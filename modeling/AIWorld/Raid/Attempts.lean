import Mathlib.Logic.Relation
import Mathlib.Tactic.Common

/-! What an attempt to steal comes to. Of a raider only that is kept which decides whether its attempt can still be
counted: as a theft, or as a theft that was prevented. Either count settles the attempt. -/

namespace AIWorld.Raid

/-- A raider since the start of its last attempt. -/
structure Attempt where
  active : Bool
  returning : Bool
  /-- A fight was noted. -/
  noted : Bool
  /-- It is at the theft. -/
  stealing : Bool
  /-- It has stolen. -/
  robbed : Bool
  laden : Bool
  /-- Its party is on its way out. -/
  forward : Bool
  /-- Thefts and prevented thefts. -/
  count : ℕ

namespace Attempt

/-- What becomes of a raider without a new attempt. -/
inductive Step : Attempt → Attempt → Prop
  | fade {a : Attempt} {stealing laden forward : Bool} (hstealing : stealing = true → a.stealing = true)
      (hladen : laden = true → a.laden = true) (hforward : forward = true → a.forward = true) :
      Step a { a with stealing, laden, forward }
  | reach {a : Attempt} (hactive : a.active = true) (hout : a.returning = false) :
      Step a { a with stealing := true }
  | turnBack {a : Attempt}
      (h : a.forward = true ∨ (a.active = true ∧ a.returning = false) ∨ a.stealing = true) :
      Step a { a with active := false, returning := true }
  | intercept {a : Attempt} (h : a.active = true ∨ a.returning = true) (hnoted : a.noted = false) :
      Step a { a with
        active := false, returning := true, noted := true, stealing := false
        count := a.count + (!a.robbed).toNat }
  | fall {a : Attempt} {counted : Bool} (h : counted = true → a.active = true ∧ a.robbed = false) :
      Step a { a with
        active := false, returning := false, stealing := false, forward := false
        count := a.count + counted.toNat }
  | revive {a : Attempt} :
      Step a { a with
        active := false, returning := false, noted := false, stealing := false, forward := false }
  | rob {a : Attempt} {laden : Bool} (h : a.stealing = true) :
      Step a { a with returning := true, stealing := false, robbed := true, laden, count := a.count + 1 }
  | deliver {a : Attempt} {left : Bool} (h : a.laden = true) :
      Step a { a with active := left, returning := left, stealing := false, laden := left }
  | home {a : Attempt} : Step a { a with active := false, returning := false, stealing := false }

abbrev Steps : Attempt → Attempt → Prop := Relation.ReflTransGen Step

/-- A new attempt begins with nothing stolen, and counts nothing. -/
structure Starts (a b : Attempt) : Prop where
  idle : a.active = false
  home : a.returning = false
  empty : a.laden = false
  unrobbed : b.robbed = false
  unladen : b.laden = false
  count : b.count = a.count

/-- Cargo comes from the theft of the attempt. -/
def Honest (a : Attempt) : Prop := a.laden = true → a.robbed = true

/-- The attempt can be counted no more. -/
structure Settled (a : Attempt) : Prop where
  stealing : a.stealing = false
  returning : a.active = true → a.returning = true
  robbed : a.robbed = true ∨ (a.active = false ∧ (a.noted = true ∨ (a.returning = false ∧ a.forward = false)))

variable {a b : Attempt}

theorem Step.honest (h : Step a b) (ha : a.Honest) : b.Honest := by
  unfold Honest at ha ⊢
  cases h with
  | fade _ hladen => exact fun hb => ha (hladen hb)
  | rob => exact fun _ => rfl
  | deliver h => exact fun _ => ha h
  | _ => exact ha

/-- What does not count leaves a settled attempt settled. -/
theorem Step.settled (h : Step a b) (ha : a.Honest) (hsettled : a.Settled) : b.Settled ∧ b.count = a.count := by
  obtain ⟨hstealing, hreturning, hrobbed⟩ := hsettled
  cases h with
  | fade hs _ hf =>
    refine ⟨⟨?_, hreturning, ?_⟩, rfl⟩
    · simpa [hstealing] using hs
    · refine hrobbed.imp_right fun ⟨hidle, h⟩ => ⟨hidle, h.imp_right fun ⟨hout, hstays⟩ => ⟨hout, ?_⟩⟩
      simpa [hstays] using hf
  | reach hactive hout => simp [hreturning hactive] at hout
  | turnBack h =>
    refine ⟨⟨hstealing, fun _ => rfl, ?_⟩, rfl⟩
    rcases hrobbed with hrobbed | ⟨hidle, hnoted | ⟨-, hstays⟩⟩
    · exact .inl hrobbed
    · exact .inr ⟨rfl, .inl hnoted⟩
    · simp [hidle, hstays, hstealing] at h
  | intercept h hnoted =>
    rcases hrobbed with hrobbed | ⟨hidle, hn | ⟨hout, -⟩⟩
    · exact ⟨⟨rfl, fun _ => rfl, .inl hrobbed⟩, by simp [hrobbed]⟩
    · simp [hn] at hnoted
    · simp [hidle, hout] at h
  | @fall counted h =>
    have hcounted : counted = false := by
      rw [Bool.eq_false_iff]
      intro hc
      obtain ⟨hactive, hr⟩ := h hc
      simp [hr, hactive] at hrobbed
    exact ⟨⟨rfl, fun h => h, .inr ⟨rfl, .inr ⟨rfl, rfl⟩⟩⟩, by simp [hcounted]⟩
  | revive => exact ⟨⟨rfl, fun h => h, .inr ⟨rfl, .inr ⟨rfl, rfl⟩⟩⟩, rfl⟩
  | rob h => simp [hstealing] at h
  | deliver h => exact ⟨⟨rfl, fun h => h, .inl (ha h)⟩, rfl⟩
  | home =>
    refine ⟨⟨rfl, fun h => h, ?_⟩, rfl⟩
    refine hrobbed.imp_right fun ⟨_, h⟩ => ⟨rfl, h.imp_right fun ⟨_, hstays⟩ => ⟨rfl, hstays⟩⟩

/-- A count settles the attempt. -/
theorem Step.counts (h : Step a b) : b.count = a.count ∨ (b.count = a.count + 1 ∧ b.Settled) := by
  cases h with
  | intercept =>
    cases hrobbed : a.robbed with
    | true => exact .inl (by simp)
    | false => exact .inr ⟨by simp, rfl, fun _ => rfl, .inr ⟨rfl, .inl rfl⟩⟩
  | @fall counted =>
    cases counted with
    | false => exact .inl rfl
    | true => exact .inr ⟨rfl, rfl, fun h => h, .inr ⟨rfl, .inr ⟨rfl, rfl⟩⟩⟩
  | rob => exact .inr ⟨rfl, rfl, fun _ => rfl, .inl rfl⟩
  | _ => exact .inl rfl

theorem Steps.honest (h : Steps a b) (ha : a.Honest) : b.Honest := by
  induction h with
  | refl => exact ha
  | tail _ hstep ih => exact hstep.honest ih

/-- Until a new attempt at most one theft is counted, or one that was prevented. -/
theorem Steps.counts (h : Steps a b) (ha : a.Honest) :
    b.count = a.count ∨ (b.count = a.count + 1 ∧ b.Settled) := by
  induction h with
  | refl => exact .inl rfl
  | @tail b c hsteps hstep ih =>
    have hb : b.Honest := Steps.honest hsteps ha
    rcases ih with hcount | ⟨hcount, hsettled⟩
    · rcases hstep.counts with h | ⟨h, hc⟩
      · exact .inl (h.trans hcount)
      · exact .inr ⟨by rw [h, hcount], hc⟩
    · obtain ⟨hc, h⟩ := hstep.settled hb hsettled
      exact .inr ⟨h.trans hcount, hc⟩

end Attempt

end AIWorld.Raid
