import AIWorld.Agent.LivingPlanningState
import Mathlib.Algebra.Order.Group.Nat
import Mathlib.Order.Interval.Finset.Nat

/-! What the inactivity clock of planning counts. A ledger notes the milliseconds that pauses
cover, each of them once. The clock of the code adds up the lengths of the pauses instead; the
two agree in every run in which no wait starts inside a care pause that counts. -/

namespace AIWorld.Agent

open Lib

/-! ### Covered time -/

/-- The milliseconds of the current epoch that pauses cover, and the starts of open pauses. -/
structure PauseLedger where
  covered : Finset ℕ := ∅
  care : Option ℕ := none
  wait : Option ℕ := none

namespace PauseLedger

/-- What an open pause covers up to a time. -/
def since (start : Option ℕ) (now : ℕ) : Finset ℕ := start.elim ∅ fun s => Finset.Ico s now

def endCare (l : PauseLedger) (now : ℕ) : PauseLedger :=
  { l with covered := l.covered ∪ since l.care now, care := none }

def endWait (l : PauseLedger) (now : ℕ) : PauseLedger :=
  { l with covered := l.covered ∪ since l.wait now, wait := none }

variable {G : Type} [Inhabited G]

/-- A care pause lasts from an accepted pause to the end of care, a wait from a deferral until work
is resumed or care begins. New work starts with nothing covered. -/
def note (l : PauseLedger) (e : Event (LivingPlanningContext G) (LivingPlanningContext.Op × UInt64) Bool) :
    PauseLedger :=
  let now := e.input.2.toNat
  match e.input.1 with
  | .begin .. => {}
  | .markProgress => {}
  | .markDeferred .. => { l with wait := some (l.wait.getD now) }
  | .resumeWork => l.endWait now
  | .pauseForCare => if e.output then { l.endWait now with care := some (l.care.getD now) } else l
  | .resumeAfterCare => l.endCare now

def ofRun (tr : List (Event (LivingPlanningContext G) (LivingPlanningContext.Op × UInt64) Bool)) :
    PauseLedger :=
  tr.foldl note {}

/-- The milliseconds between two times that no pause covers. -/
def uncovered (l : PauseLedger) (progressAt now : ℕ) : ℕ :=
  (Finset.Ico progressAt now \ (l.covered ∪ since l.care now ∪ since l.wait now)).card

end PauseLedger

/-! ### One pause -/

namespace LivingPlanningCarePause

variable {p : LivingPlanningCarePause} {progressAt now : UInt64} {last counted : ℕ} {opened : Option ℕ}

/-- How long a pause has lasted that started at the given time, if it did. -/
def lasted (opened : Option ℕ) (now : ℕ) : ℕ := opened.elim 0 fun s => now - s

/-- A pause counts so many milliseconds for the current epoch, and is open for it since the
given time or not at all. -/
structure Counts (p : LivingPlanningCarePause) (progressAt : UInt64) (counted : ℕ) (opened : Option ℕ)
    (last : ℕ) : Prop where
  ended : p.endedAt.toNat ≤ last
  started : p.active = true → p.startedAt.toNat ≤ last
  anchor : p.progressAnchor.toNat ≤ progressAt.toNat
  counted : counted = if p.progressAnchor = progressAt then p.completedMs.toNat else 0
  opened : opened = if p.active = true ∧ p.progressAnchor = progressAt then some p.startedAt.toNat else none

theorem Counts.mono {last' : ℕ} (h : p.Counts progressAt counted opened last) (hle : last ≤ last') :
    p.Counts progressAt counted opened last' :=
  ⟨h.ended.trans hle, fun ha => (h.started ha).trans hle, h.anchor, h.counted, h.opened⟩

theorem counts_default (progressAt : UInt64) (last : ℕ) :
    ({} : LivingPlanningCarePause).Counts progressAt 0 none last :=
  ⟨Nat.zero_le _, by simp, Nat.zero_le _, by simp, by simp⟩

theorem Counts.opened_eq_none (h : p.Counts progressAt counted opened last)
    (hactive : ¬ (p.active = true ∧ p.progressAnchor = progressAt)) : opened = none := by
  rw [h.opened, if_neg hactive]

theorem Counts.begin (h : p.Counts progressAt counted opened last) (hlast : last ≤ now.toNat)
    (hnow : progressAt ≤ now) (hactive : p.active = false) :
    ∃ p', p.begin now progressAt = (true, p') ∧ p'.active = true ∧ p'.progressAnchor = progressAt ∧
      p'.Counts progressAt counted (some now.toNat) now.toNat := by
  have hended : ¬ now < p.endedAt := by
    rw [UInt64.lt_iff_toNat_lt]
    have := h.ended
    omega
  have hcounted := h.counted
  unfold LivingPlanningCarePause.begin
  rw [if_neg (by simpa using hnow), hactive]
  by_cases hanchor : p.progressAnchor = progressAt
  · rw [if_pos hanchor] at hcounted
    simp only [Bool.false_eq_true, if_false, hanchor, ne_eq, not_true, hended]
    refine ⟨_, rfl, rfl, rfl, ⟨?_, fun _ => le_rfl, le_rfl, ?_, ?_⟩⟩
    · exact h.ended.trans hlast
    · simp [hcounted]
    · simp
  · rw [if_neg hanchor] at hcounted
    simp only [Bool.false_eq_true, if_false, hanchor, ne_eq, not_false_iff, if_true, UInt64.not_lt_zero]
    refine ⟨_, rfl, rfl, rfl, ⟨?_, fun _ => le_rfl, le_rfl, ?_, ?_⟩⟩
    · simp
    · simp [hcounted]
    · simp

theorem Counts.finish (h : p.Counts progressAt counted opened last) (hlast : last ≤ now.toNat)
    (hnow : progressAt ≤ now) (hsize : counted + lasted opened now.toNat < 2 ^ 64) :
    ∃ p', p.finish now progressAt = (true, p') ∧ p'.active = false ∧
      p'.Counts progressAt (counted + lasted opened now.toNat) none now.toNat := by
  have hcounted := h.counted
  have hopened := h.opened
  unfold LivingPlanningCarePause.finish
  cases hactive : p.active with
  | false =>
    rw [hactive, if_neg (by simp)] at hopened
    rw [hopened]
    exact ⟨p, rfl, hactive, ⟨h.ended.trans hlast, by simp [hactive], h.anchor, hcounted, by simp [hactive]⟩⟩
  | true =>
    have hstarted := (h.started hactive).trans hlast
    have hback : ¬ (now < p.startedAt ∨ now < progressAt) := by
      rw [UInt64.lt_iff_toNat_lt, UInt64.lt_iff_toNat_lt, not_or]
      rw [UInt64.le_iff_toNat_le] at hnow
      omega
    simp only [Bool.not_true, Bool.false_eq_true, if_false, hback]
    rw [hactive] at hopened
    by_cases hanchor : p.progressAnchor = progressAt
    · rw [if_pos hanchor] at hcounted
      rw [if_pos ⟨rfl, hanchor⟩] at hopened
      rw [hopened] at hsize ⊢
      rw [if_pos hanchor]
      refine ⟨_, rfl, rfl, ⟨le_rfl, by simp, h.anchor, ?_, by simp⟩⟩
      have hsub := UInt64.toNat_sub_of_le now p.startedAt (UInt64.le_iff_toNat_le.mpr hstarted)
      simp only [lasted, Option.elim] at hsize ⊢
      simp only [hanchor, if_true]
      rw [UInt64.toNat_add, hsub, Nat.mod_eq_of_lt (by omega), hcounted]
    · rw [if_neg hanchor] at hcounted
      rw [if_neg (by simp [hanchor])] at hopened
      rw [hopened, if_neg hanchor]
      exact ⟨_, rfl, rfl, ⟨le_rfl, by simp, le_rfl, by simp [hcounted, lasted], by simp⟩⟩

theorem Counts.pausedMs (h : p.Counts progressAt counted opened now.toNat) (hnow : progressAt ≤ now)
    (allowActive : Bool) (hactive : p.active = true → allowActive = true ∧ p.progressAnchor = progressAt)
    (hsize : counted + lasted opened now.toNat < 2 ^ 64) :
    ∃ ms, p.pausedMs now progressAt allowActive = some ms ∧
      ms.toNat = min (counted + lasted opened now.toNat) (now.toNat - progressAt.toNat) := by
  have hcounted := h.counted
  have hopened := h.opened
  have helapsed := UInt64.toNat_sub_of_le now progressAt hnow
  unfold LivingPlanningCarePause.pausedMs
  have hallowed : ¬ ((p.active = true ∧ (!allowActive) = true) ∨ now < progressAt) := by
    rintro (⟨ha, hdeny⟩ | hback)
    · rw [(hactive ha).1] at hdeny
      contradiction
    · exact absurd hnow (by simpa using hback)
  rw [if_neg (by simpa using hallowed)]
  by_cases hanchor : p.progressAnchor = progressAt
  · rw [if_pos hanchor] at hcounted ⊢
    have hinside : ¬ (now < p.endedAt ∨ (p.active = true ∧ now < p.startedAt)) := by
      rintro (hended | ⟨ha, hstarted⟩)
      · exact absurd h.ended (by simpa [UInt64.lt_iff_toNat_lt] using hended)
      · exact absurd (h.started ha) (by simpa [UInt64.lt_iff_toNat_lt] using hstarted)
    rw [if_neg hinside]
    refine ⟨_, rfl, ?_⟩
    rw [UInt64.toNat_min, helapsed]
    congr 1
    cases ha : p.active with
    | false =>
      rw [ha, if_neg (by simp)] at hopened
      rw [hcounted, hopened]
      rfl
    | true =>
      rw [ha, if_pos ⟨rfl, hanchor⟩] at hopened
      have hsub := UInt64.toNat_sub_of_le now p.startedAt (UInt64.le_iff_toNat_le.mpr (h.started ha))
      rw [hopened] at hsize ⊢
      simp only [lasted, Option.elim] at hsize ⊢
      rw [if_pos trivial, UInt64.toNat_add, hsub, Nat.mod_eq_of_lt (by omega), hcounted]
  · rw [if_neg hanchor] at hcounted ⊢
    have hidle : p.active = false := by
      cases ha : p.active with
      | false => rfl
      | true => exact absurd (hactive ha).2 hanchor
    rw [hidle, if_neg (by simp)] at hopened
    refine ⟨_, rfl, ?_⟩
    rw [UInt64.toNat_min, hcounted, hopened]
    simp [lasted]

end LivingPlanningCarePause

/-! ### The ledger and the pauses -/

open LivingPlanningCarePause PauseLedger

variable {G : Type} [Inhabited G] {c c' : LivingPlanningContext G} {l : PauseLedger} {last : ℕ}

/-- Both pauses together count what the ledger covers. At most one of them is open, and then
nothing is covered after its start. -/
structure PauseLedger.Matches (l : PauseLedger) (c : LivingPlanningContext G) (last : ℕ) : Prop where
  started : c.startedAt.toNat ≤ c.progressAt.toNat
  progress : c.progressAt.toNat ≤ last
  care : ∃ n, c.carePause.Counts c.progressAt n l.care last ∧
    ∃ m, c.budgetPause.Counts c.progressAt m l.wait last ∧ n + m = l.covered.card
  budget : c.budgetPause.active = true → c.budgetPause.progressAnchor = c.progressAt
  covered : ∀ t ∈ l.covered, c.progressAt.toNat ≤ t ∧ t < last
  careOpen : ∀ s ∈ l.care, c.progressAt.toNat ≤ s ∧ s ≤ last ∧ ∀ t ∈ l.covered, t < s
  waitOpen : ∀ s ∈ l.wait, c.progressAt.toNat ≤ s ∧ s ≤ last ∧ ∀ t ∈ l.covered, t < s
  apart : l.care = none ∨ l.wait = none

theorem PauseLedger.Matches.mono {last' : ℕ} (h : l.Matches c last) (hle : last ≤ last') :
    l.Matches c last' := by
  obtain ⟨n, hcare, m, hwait, hsum⟩ := h.care
  exact ⟨h.started, h.progress.trans hle, ⟨n, hcare.mono hle, m, hwait.mono hle, hsum⟩, h.budget,
    fun t ht => ⟨(h.covered t ht).1, (h.covered t ht).2.trans_le hle⟩,
    fun s hs => ⟨(h.careOpen s hs).1, (h.careOpen s hs).2.1.trans hle, (h.careOpen s hs).2.2⟩,
    fun s hs => ⟨(h.waitOpen s hs).1, (h.waitOpen s hs).2.1.trans hle, (h.waitOpen s hs).2.2⟩, h.apart⟩

/-- A fresh epoch: nothing is covered and no pause is open. -/
theorem PauseLedger.matches_empty (hstarted : c.startedAt.toNat ≤ c.progressAt.toNat)
    (hprogress : c.progressAt.toNat ≤ last) (hcare : c.carePause.Counts c.progressAt 0 none last)
    (hbudget : c.budgetPause = {}) : ({} : PauseLedger).Matches c last :=
  ⟨hstarted, hprogress, ⟨0, hcare, 0, hbudget ▸ counts_default c.progressAt last, rfl⟩, by simp [hbudget],
    by simp, by simp, by simp, .inl rfl⟩

/-- An open pause adds to the covered time exactly what it lasted. -/
theorem card_union_since {opened : Option ℕ} {covered : Finset ℕ} (now : ℕ)
    (h : ∀ s ∈ opened, ∀ t ∈ covered, t < s) :
    (covered ∪ since opened now).card = covered.card + lasted opened now := by
  cases opened with
  | none => simp [since, lasted]
  | some s =>
    have hdisjoint : Disjoint covered (Finset.Ico s now) := by
      rw [Finset.disjoint_left]
      intro t ht ht'
      have := h s rfl t ht
      have := (Finset.mem_Ico.mp ht').1
      omega
    simp [since, lasted, Finset.card_union_of_disjoint hdisjoint]

theorem card_covered_le {covered : Finset ℕ} {start stop : ℕ}
    (h : ∀ t ∈ covered, start ≤ t ∧ t < stop) : covered.card ≤ stop - start := by
  rw [← Nat.card_Ico]
  exact Finset.card_le_card fun t ht => Finset.mem_Ico.mpr (h t ht)

theorem PauseLedger.Matches.uncovered_add {now : ℕ} (h : l.Matches c now) (hcare : l.care = none) :
    l.uncovered c.progressAt.toNat now + (l.covered.card + lasted l.wait now) =
      now - c.progressAt.toNat := by
  have hunion := card_union_since now fun s hs => (h.waitOpen s hs).2.2
  have hsub : l.covered ∪ since l.wait now ⊆ Finset.Ico c.progressAt.toNat now := by
    intro t ht
    rcases Finset.mem_union.mp ht with ht | ht
    · exact Finset.mem_Ico.mpr (h.covered t ht)
    · cases hw : l.wait with
      | none => simp [since, hw] at ht
      | some s =>
        rw [hw] at ht
        have hs := (h.waitOpen s hw).1
        have ht' := Finset.mem_Ico.mp ht
        exact Finset.mem_Ico.mpr ⟨hs.trans ht'.1, ht'.2⟩
  have hempty : since none now = ∅ := rfl
  rw [← hunion, uncovered, hcare, hempty, Finset.union_empty, ← Nat.card_Ico]
  exact Finset.card_sdiff_add_card_eq_card hsub

/-- When no pause is open for care, the clock of the code is the clock of the ledger. -/
theorem PauseLedger.Matches.fresh_iff {now : UInt64} (h : l.Matches c now.toNat)
    (hactive : c.carePause.active = false) :
    c.fresh now = true ↔ l.uncovered c.progressAt.toNat now.toNat < 30000 := by
  obtain ⟨n, hcare, m, hwait, hsum⟩ := h.care
  have hnow : c.progressAt ≤ now := UInt64.le_iff_toNat_le.mpr h.progress
  have hclosed : l.care = none := by
    rw [hcare.opened, hactive]
    simp
  have huncovered := h.uncovered_add hclosed
  have hsize := now.toNat_lt
  rw [hclosed] at hcare
  obtain ⟨careMs, hcareMs, hcareNat⟩ := hcare.pausedMs hnow false (by simp [hactive])
    (by simp only [lasted, Option.elim]; omega)
  obtain ⟨waitMs, hwaitMs, hwaitNat⟩ := hwait.pausedMs hnow true
    (fun ha => ⟨rfl, h.budget ha⟩) (by omega)
  have helapsed := UInt64.toNat_sub_of_le now c.progressAt hnow
  have hcareNone : lasted none now.toNat = 0 := rfl
  have hcapped : (min careMs (now - c.progressAt)).toNat = n := by
    rw [UInt64.toNat_min, hcareNat, helapsed, hcareNone]
    omega
  have hrest : (now - c.progressAt - min careMs (now - c.progressAt)).toNat =
      now.toNat - c.progressAt.toNat - n := by
    rw [UInt64.toNat_sub_of_le _ _ (by rw [UInt64.le_iff_toNat_le]; omega), hcapped, helapsed]
  have hwaited : (min waitMs (now - c.progressAt - min careMs (now - c.progressAt))).toNat =
      m + lasted l.wait now.toNat := by
    rw [UInt64.toNat_min, hwaitNat, hrest]
    omega
  have hpaused : (min careMs (now - c.progressAt) +
      min waitMs (now - c.progressAt - min careMs (now - c.progressAt))).toNat =
        l.covered.card + lasted l.wait now.toNat := by
    rw [UInt64.toNat_add, hcapped, hwaited, Nat.mod_eq_of_lt (by omega)]
    omega
  simp only [LivingPlanningContext.fresh, livingPlanningFresh, hcareMs, hwaitMs, decide_eq_true_eq]
  rw [UInt64.lt_iff_toNat_lt, UInt64.toNat_sub_of_le _ _ (by rw [UInt64.le_iff_toNat_le]; omega),
    hpaused, helapsed]
  have hlimit : (30000 : UInt64).toNat = 30000 := rfl
  omega

/-! ### Steps -/

/-- No wait starts inside a care pause that counts, and no epoch starts in the very millisecond of
the last one while such a pause is open. -/
def StaysApart (c : LivingPlanningContext G) : LivingPlanningContext.Op × UInt64 → Prop
  | (.markDeferred .., _) => ¬ (c.carePause.active = true ∧ c.carePause.progressAnchor = c.progressAt)
  | (.markProgress, now) => ¬ (c.carePause.active = true ∧ c.carePause.progressAnchor = now)
  | _ => True

instance decidableStaysApart (c : LivingPlanningContext G) :
    (i : LivingPlanningContext.Op × UInt64) → Decidable (StaysApart c i)
  | (.markDeferred .., _) => inferInstanceAs (Decidable (¬ (_ ∧ _)))
  | (.markProgress, _) => inferInstanceAs (Decidable (¬ (_ ∧ _)))
  | (.begin .., _) => .isTrue trivial
  | (.resumeWork, _) => .isTrue trivial
  | (.pauseForCare, _) => .isTrue trivial
  | (.resumeAfterCare, _) => .isTrue trivial

namespace PauseLedger.Matches

variable {now : UInt64}

theorem covered_card_le (h : l.Matches c last) : l.covered.card ≤ last - c.progressAt.toNat :=
  card_covered_le h.covered

theorem congr (h : l.Matches c last) (hstarted : c'.startedAt = c.startedAt)
    (hprogress : c'.progressAt = c.progressAt) (hcare : c'.carePause = c.carePause)
    (hbudget : c'.budgetPause = c.budgetPause) : l.Matches c' last := by
  obtain ⟨h₁, h₂, h₃, h₄, h₅, h₆, h₇, h₈⟩ := h
  rw [← hprogress] at h₁ h₂ h₃ h₄ h₅ h₆ h₇
  rw [← hcare, ← hbudget] at h₃
  rw [← hbudget] at h₄
  exact ⟨hstarted ▸ h₁, h₂, h₃, h₄, h₅, h₆, h₇, h₈⟩

theorem mem_since {opened : Option ℕ} {now t : ℕ} (ht : t ∈ since opened now) :
    ∃ s, opened = some s ∧ s ≤ t ∧ t < now := by
  cases opened with
  | none => simp [since] at ht
  | some s => exact ⟨s, rfl, Finset.mem_Ico.mp ht⟩

theorem lasted_le {opened : Option ℕ} {from_ now : ℕ} (h : ∀ s ∈ opened, from_ ≤ s) (hnow : from_ ≤ now) :
    lasted opened now ≤ now - from_ := by
  cases opened with
  | none => exact Nat.zero_le _
  | some s =>
    have := h s rfl
    simp only [lasted, Option.elim]
    omega

/-- The total of an epoch fits in its length. -/
theorem card_add_lasted_lt (h : l.Matches c now.toNat) {opened : Option ℕ}
    (hopened : ∀ s ∈ opened, c.progressAt.toNat ≤ s ∧ s ≤ now.toNat ∧ ∀ t ∈ l.covered, t < s) :
    l.covered.card + lasted opened now.toNat < 2 ^ 64 := by
  have hnow := now.toNat_lt
  cases opened with
  | none =>
    have hcard := h.covered_card_le
    simp only [lasted, Option.elim]
    omega
  | some s =>
    obtain ⟨hstart, hstop, hbefore⟩ := hopened s rfl
    have hcard := card_covered_le fun t ht => ⟨(h.covered t ht).1, hbefore t ht⟩
    simp only [lasted, Option.elim]
    omega

theorem endWait (h : l.Matches c last) (hlast : last ≤ now.toNat) :
    (l.endWait now.toNat).Matches
      { c with budgetPause := (c.budgetPause.finish now c.progressAt).2 } now.toNat := by
  replace h := h.mono hlast
  obtain ⟨n, hcare, m, hwait, hsum⟩ := h.care
  have hnow : c.progressAt ≤ now := UInt64.le_iff_toNat_le.mpr h.progress
  have hsize := h.card_add_lasted_lt h.waitOpen
  obtain ⟨p, hp, hclosed, hcounts⟩ := hwait.finish le_rfl hnow (by omega)
  rw [hp]
  have hunion := card_union_since now.toNat fun s hs => (h.waitOpen s hs).2.2
  refine ⟨h.started, h.progress, ⟨n, hcare, _, hcounts, ?_⟩, ?_, ?_, ?_, ?_, .inr rfl⟩
  · rw [PauseLedger.endWait, hunion]
    omega
  · intro ha
    rw [hclosed] at ha
    contradiction
  · intro t ht
    rcases Finset.mem_union.mp ht with ht | ht
    · exact h.covered t ht
    · obtain ⟨s, hs, hst, htn⟩ := mem_since ht
      exact ⟨((h.waitOpen s hs).1).trans hst, htn⟩
  · intro s hs
    refine ⟨(h.careOpen s hs).1, (h.careOpen s hs).2.1, fun t ht => ?_⟩
    rcases Finset.mem_union.mp ht with ht | ht
    · exact (h.careOpen s hs).2.2 t ht
    · obtain ⟨u, hu, -⟩ := mem_since ht
      have hnone := h.apart.resolve_left fun hn => by simp [PauseLedger.endWait, hn] at hs
      rw [hnone] at hu
      contradiction
  · simp [PauseLedger.endWait]

theorem markProgress (h : l.Matches c last) (hlast : last ≤ now.toNat)
    (hapart : ¬ (c.carePause.active = true ∧ c.carePause.progressAnchor = now)) :
    ({} : PauseLedger).Matches (c.markProgress now) now.toNat := by
  obtain ⟨n, hcare, m, hwait, hsum⟩ := h.care
  have hprogress := h.progress.trans hlast
  refine matches_empty (h.started.trans hprogress) le_rfl ⟨?_, ?_, ?_, ?_, ?_⟩ rfl
  · exact hcare.ended.trans hlast
  · exact fun ha => (hcare.started ha).trans hlast
  · exact hcare.anchor.trans hprogress
  · change 0 = if c.carePause.progressAnchor = now then c.carePause.completedMs.toNat else 0
    split_ifs with hanchor
    · have hsame : c.carePause.progressAnchor = c.progressAt := by
        have := hcare.anchor
        rw [hanchor] at this ⊢
        exact UInt64.toNat_inj.mp (by omega)
      have hcounted := hcare.counted
      rw [if_pos hsame] at hcounted
      have hcard := h.covered_card_le
      rw [← hsame, hanchor] at hcard
      omega
    · rfl
  · exact (if_neg hapart).symm

theorem markDeferred (h : l.Matches c last) (hlast : last ≤ now.toNat) (reason stage : String)
    (hapart : ¬ (c.carePause.active = true ∧ c.carePause.progressAnchor = c.progressAt)) :
    ({ l with wait := some (l.wait.getD now.toNat) } : PauseLedger).Matches
      (c.markDeferred now reason stage) now.toNat := by
  replace h := h.mono hlast
  obtain ⟨n, hcare, m, hwait, hsum⟩ := h.care
  have hnow : c.progressAt ≤ now := UInt64.le_iff_toNat_le.mpr h.progress
  have hnone := hcare.opened_eq_none hapart
  cases hactive : c.budgetPause.active with
  | false =>
    have hidle := hwait.opened_eq_none (by simp [hactive])
    obtain ⟨p, hp, -, hanchor, hcounts⟩ := hwait.begin le_rfl hnow hactive
    rw [hidle]
    unfold LivingPlanningContext.markDeferred
    rw [hp]
    refine ⟨h.started, h.progress, ⟨n, hcare, m, hcounts, hsum⟩, fun _ => hanchor, h.covered, h.careOpen,
      ?_, .inl hnone⟩
    intro s hs
    cases hs
    exact ⟨h.progress, le_rfl, fun t ht => (h.covered t ht).2⟩
  | true =>
    have hkept : (c.budgetPause.begin now c.progressAt).2 = c.budgetPause := by
      unfold LivingPlanningCarePause.begin
      rw [if_neg (by simpa using hnow), if_pos hactive]
    have hopen : l.wait = some c.budgetPause.startedAt.toNat := by
      rw [hwait.opened, if_pos ⟨hactive, h.budget hactive⟩]
    have hsame : ({ l with wait := some (l.wait.getD now.toNat) } : PauseLedger) = l := by
      rw [hopen, Option.getD_some, ← hopen]
    rw [hsame]
    exact h.congr rfl rfl rfl hkept

/-- A pause for care is refused, goes on with an open one, or starts one. -/
theorem pauseForCare_cases (h : l.Matches c now.toNat) :
    c.pauseForCare now = (false, c) ∨
    c.carePause.active = true ∧ c.carePause.progressAnchor = c.progressAt ∧
      c.pauseForCare now = (true, { c with
        budgetPause := (c.budgetPause.finish now c.progressAt).2, deferred := true }) ∨
    c.carePause.active = false ∧
      c.pauseForCare now = (true, { c with
        carePause := (c.carePause.begin now c.progressAt).2
        budgetPause := (c.budgetPause.finish now c.progressAt).2
        deferred := true }) := by
  obtain ⟨n, hcare, m, hwait, hsum⟩ := h.care
  have hnow : c.progressAt ≤ now := UInt64.le_iff_toNat_le.mpr h.progress
  unfold LivingPlanningContext.pauseForCare
  split_ifs with hrefused
  · exact .inl rfl
  · cases hactive : c.carePause.active with
    | false =>
      obtain ⟨p, hp, -⟩ := hcare.begin le_rfl hnow hactive
      rw [hp]
      exact .inr (.inr ⟨rfl, rfl⟩)
    | true =>
      have hstarted : now ≥ c.carePause.startedAt := UInt64.le_iff_toNat_le.mpr (hcare.started hactive)
      have hbegin : c.carePause.begin now c.progressAt =
          (decide (c.carePause.progressAnchor = c.progressAt), c.carePause) := by
        unfold LivingPlanningCarePause.begin
        rw [if_neg (by simpa using hnow), if_pos hactive]
        simp only [hstarted, and_true]
      rw [hbegin]
      by_cases hanchor : c.carePause.progressAnchor = c.progressAt
      · rw [decide_eq_true hanchor]
        exact .inr (.inl ⟨rfl, hanchor, rfl⟩)
      · rw [decide_eq_false hanchor]
        exact .inl rfl

theorem pauseForCare (h : l.Matches c last) (hlast : last ≤ now.toNat) :
    (if (c.pauseForCare now).1 then { l.endWait now.toNat with care := some (l.care.getD now.toNat) }
      else l).Matches (c.pauseForCare now).2 now.toNat := by
  replace h := h.mono hlast
  have hended := h.endWait le_rfl
  obtain ⟨n, hcare, m, hwait, hsum⟩ := h.care
  rcases h.pauseForCare_cases with heq | ⟨hactive, hanchor, heq⟩ | ⟨hactive, heq⟩ <;> rw [heq]
  · exact h
  · have hopen : l.care = some c.carePause.startedAt.toNat := by
      rw [hcare.opened, if_pos ⟨hactive, hanchor⟩]
    have hsame : { l.endWait now.toNat with care := some (l.care.getD now.toNat) } = l.endWait now.toNat := by
      rw [hopen, Option.getD_some, ← hopen]
      rfl
    rw [if_pos rfl, hsame]
    exact hended.congr rfl rfl rfl rfl
  · have hnone := hcare.opened_eq_none (by simp [hactive])
    obtain ⟨n', hcare', m', hwait', hsum'⟩ := hended.care
    obtain ⟨p, hp, -, -, hcounts⟩ :=
      hcare'.begin le_rfl (UInt64.le_iff_toNat_le.mpr h.progress) hactive
    rw [if_pos rfl, hnone, Option.getD_none]
    refine ⟨hended.started, hended.progress, ⟨n', ?_, m', hwait', hsum'⟩, hended.budget, hended.covered, ?_,
      hended.waitOpen, .inr rfl⟩
    · change (c.carePause.begin now c.progressAt).2.Counts _ _ _ _
      rw [hp]
      exact hcounts
    · intro s hs
      cases hs
      exact ⟨hended.progress, le_rfl, fun t ht => (hended.covered t ht).2⟩

theorem resumeAfterCare (h : l.Matches c last) (hlast : last ≤ now.toNat) :
    (l.endCare now.toNat).Matches (c.resumeAfterCare now).2 now.toNat := by
  replace h := h.mono hlast
  obtain ⟨n, hcare, m, hwait, hsum⟩ := h.care
  have hnow : c.progressAt ≤ now := UInt64.le_iff_toNat_le.mpr h.progress
  have hsize := h.card_add_lasted_lt h.careOpen
  obtain ⟨p, hp, hclosed, hcounts⟩ := hcare.finish le_rfl hnow (by omega)
  have hstarted : ¬ now < c.startedAt := by
    rw [UInt64.lt_iff_toNat_lt]
    have := h.started.trans h.progress
    omega
  have hunion := card_union_since now.toNat fun s hs => (h.careOpen s hs).2.2
  unfold LivingPlanningContext.resumeAfterCare
  rw [if_neg hstarted, hp]
  refine ⟨h.started, h.progress, ⟨_, hcounts, m, hwait, ?_⟩, h.budget, ?_, ?_, ?_, .inl rfl⟩
  · rw [PauseLedger.endCare, hunion]
    omega
  · intro t ht
    rcases Finset.mem_union.mp ht with ht | ht
    · exact h.covered t ht
    · obtain ⟨s, hs, hst, htn⟩ := mem_since ht
      exact ⟨((h.careOpen s hs).1).trans hst, htn⟩
  · simp [PauseLedger.endCare]
  · intro s hs
    refine ⟨(h.waitOpen s hs).1, (h.waitOpen s hs).2.1, fun t ht => ?_⟩
    rcases Finset.mem_union.mp ht with ht | ht
    · exact (h.waitOpen s hs).2.2 t ht
    · obtain ⟨u, hu, -⟩ := mem_since ht
      have hnone := h.apart.resolve_right fun hn => by simp [PauseLedger.endCare, hn] at hs
      rw [hnone] at hu
      contradiction

end PauseLedger.Matches

theorem PauseLedger.Matches.step {i : LivingPlanningContext.Op × UInt64} (h : l.Matches c last)
    (hlast : last ≤ i.2.toNat) (hapart : StaysApart c i) :
    (l.note ⟨c, i, (c.step i).1, (c.step i).2⟩).Matches (c.step i).2 i.2.toNat := by
  obtain ⟨op, now⟩ := i
  cases op with
  | begin here home danger phaseMask capabilities =>
    exact matches_empty le_rfl le_rfl (counts_default _ _) rfl
  | markDeferred reason stage => exact h.markDeferred hlast reason stage hapart
  | resumeWork => exact (h.endWait hlast).congr rfl rfl rfl rfl
  | pauseForCare => exact h.pauseForCare hlast
  | resumeAfterCare => exact h.resumeAfterCare hlast
  | markProgress => exact h.markProgress hlast hapart

/-! ### Runs -/

variable {tr : List (Event (LivingPlanningContext G) (LivingPlanningContext.Op × UInt64) Bool)}

theorem PauseLedger.Matches.run (hrun : (LivingPlanningContext.machine G).Run c tr c')
    (h : l.Matches c last) (hclock : (last :: tr.map fun e => e.input.2.toNat).Pairwise (· ≤ ·))
    (hapart : ∀ e ∈ tr, StaysApart e.pre e.input) {now : ℕ} (hlast : last ≤ now)
    (hnow : ∀ e ∈ tr, e.input.2.toNat ≤ now) : (tr.foldl note l).Matches c' now := by
  induction hrun generalizing l last with
  | nil => exact h.mono hlast
  | @cons c m c' i o tr hstep hrun ih =>
    have heq : c.step i = (o, m) := Option.some.inj hstep
    obtain rfl : (c.step i).1 = o := congrArg Prod.fst heq
    obtain rfl : (c.step i).2 = m := congrArg Prod.snd heq
    rw [List.map_cons, List.pairwise_cons] at hclock
    obtain ⟨hfirst, hrest⟩ := List.forall_mem_cons.mp hapart
    obtain ⟨hi, htr⟩ := List.forall_mem_cons.mp hnow
    exact ih (h.step (hclock.1 _ List.mem_cons_self) hfirst) hclock.2 hrest hi htr

/-- In a run whose pauses stay apart the planning state is fresh exactly while less than thirty
seconds of its epoch are covered by no pause. -/
theorem planning_fresh_iff (hrun : (LivingPlanningContext.machine G).Run {} tr c)
    (hclock : (tr.map fun e => e.input.2).Pairwise (· ≤ ·))
    (hapart : ∀ e ∈ tr, StaysApart e.pre e.input) {now : UInt64} (hnow : ∀ e ∈ tr, e.input.2 ≤ now)
    (hcare : c.carePause.active = false) :
    c.fresh now = true ↔ (ofRun tr).uncovered c.progressAt.toNat now.toNat < 30000 := by
  have hempty : ({} : PauseLedger).Matches ({} : LivingPlanningContext G) 0 :=
    matches_empty le_rfl le_rfl (counts_default _ _) rfl
  have htimes : (0 :: tr.map fun e => e.input.2.toNat).Pairwise (· ≤ ·) := by
    refine List.pairwise_cons.mpr ⟨fun _ _ => Nat.zero_le _, ?_⟩
    rw [List.pairwise_map] at hclock ⊢
    exact hclock.imp fun h => UInt64.le_iff_toNat_le.mp h
  have hmatches := hempty.run hrun htimes hapart (Nat.zero_le _)
    fun e he => UInt64.le_iff_toNat_le.mp (hnow e he)
  exact hmatches.fresh_iff hcare

/-- A place to think at. -/
def camp : ActionPosition Float32 := ⟨0, 0, 0, 0⟩

open LivingPlanningContext in
def separatePauses : List (Op × UInt64) :=
  [(.begin camp camp none 0 0, 1000), (.markDeferred "WORK_BUDGET" "ADVICE", 2000), (.pauseForCare, 3000),
    (.resumeAfterCare, 13000)]

theorem planning_fresh_iff_separate :
    ∃ tr c, (LivingPlanningContext.machine Unit).Run {} tr c ∧ tr.map (·.input) = separatePauses ∧
      (ofRun tr).uncovered c.progressAt.toNat 41999 < 30000 := by
  have hexec : (LivingPlanningContext.machine Unit).exec {} separatePauses = some (_, _) := rfl
  have hrun := Machine.run_of_exec hexec
  have hnow : ∀ i ∈ separatePauses, i.2 ≤ 41999 := by decide
  exact ⟨_, _, hrun, rfl, (planning_fresh_iff hrun (by decide) (by decide)
    (fun e he => hnow _ (List.mem_map_of_mem he)) (by decide)).mp (by decide)⟩

open LivingPlanningContext in
def overlappingPauses : List (Op × UInt64) :=
  [(.begin camp camp none 0 0, 1000), (.pauseForCare, 2000), (.markDeferred "WORK_BUDGET" "ADVICE", 3000),
    (.resumeAfterCare, 13000), (.resumeWork, 13000)]

/-- A wait inside a care pause is counted on top of it. -/
theorem planning_pauses_counted_twice :
    ¬ ∀ (tr : List (Event (LivingPlanningContext Unit) (LivingPlanningContext.Op × UInt64) Bool))
        (c : LivingPlanningContext Unit) (now : UInt64),
      (LivingPlanningContext.machine Unit).Run {} tr c → (tr.map fun e => e.input.2).Pairwise (· ≤ ·) →
      (∀ e ∈ tr, e.input.2 ≤ now) → c.carePause.active = false →
      (c.fresh now = true ↔ (ofRun tr).uncovered c.progressAt.toNat now.toNat < 30000) := by
  intro hall
  have hexec : (LivingPlanningContext.machine Unit).exec {} overlappingPauses = some (_, _) := rfl
  have hshort := (hall _ _ 45000 (Machine.run_of_exec hexec) (by decide) (by decide) (by decide)).mp (by decide)
  have hcovered : Finset.Ico 13000 45000 ⊆ Finset.Ico 1000 45000 \
      ((∅ ∪ Finset.Ico 2000 13000) ∪ Finset.Ico 3000 13000 ∪ ∅ ∪ ∅) := by
    intro t ht
    simp only [Finset.mem_sdiff, Finset.mem_union, Finset.mem_Ico, Finset.notMem_empty, or_false,
      false_or] at ht ⊢
    omega
  have hcard := Finset.card_le_card hcovered
  rw [Nat.card_Ico] at hcard
  exact absurd (hcard.trans_lt hshort) (by decide)

end AIWorld.Agent
