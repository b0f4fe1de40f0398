import Mathlib.Logic.Function.Basic
import Mathlib.Tactic.Common

/-! Two copies of keyed contents, of which one follows the other. An operation on a
key is submitted under a ticket; some time later it commits at the primary copy or
aborts there, and some time after that its outcome reaches the mirror, which then
makes the same change. A key that has an operation in flight takes no other. The
copies agree on every key without one, and in between the primary is ahead by
exactly the operation in flight. -/

namespace Lib.WriteThrough

variable {κ C ω : Type*}

/-- The key of an operation, when it may be submitted, and what it does. -/
structure Ops (κ C ω : Type*) where
  key : ω → κ
  Allowed : ω → C → Prop
  apply : ω → C → C

/-- The two copies, and the operations in flight with their outcome, if known. -/
@[ext]
structure State (κ C ω : Type*) where
  primary : κ → C
  mirror : κ → C
  inFlight : ℕ → Option (ω × Option Bool)

namespace State

/-- Give a ticket a new entry. -/
def track (s : State κ C ω) (n : ℕ) (entry : Option (ω × Option Bool)) : State κ C ω :=
  { s with inFlight := Function.update s.inFlight n entry }

variable [DecidableEq κ] (O : Ops κ C ω)

def commit (s : State κ C ω) (op : ω) : State κ C ω :=
  { s with primary := Function.update s.primary (O.key op) (O.apply op (s.primary (O.key op))) }

def follow (s : State κ C ω) (op : ω) : State κ C ω :=
  { s with mirror := Function.update s.mirror (O.key op) (O.apply op (s.mirror (O.key op))) }

end State

variable [DecidableEq κ]

inductive Step (O : Ops κ C ω) (s : State κ C ω) : State κ C ω → Prop
  | idle : Step O s s
  | submit {n : ℕ} {op : ω} (hnew : s.inFlight n = none)
      (hfree : ∀ m op' out, s.inFlight m = some (op', out) → O.key op' ≠ O.key op)
      (hallowed : O.Allowed op (s.mirror (O.key op))) : Step O s (s.track n (some (op, none)))
  | commit {n : ℕ} {op : ω} (hop : s.inFlight n = some (op, none)) :
      Step O s ((s.commit O op).track n (some (op, some true)))
  | abort {n : ℕ} {op : ω} (hop : s.inFlight n = some (op, none)) :
      Step O s (s.track n (some (op, some false)))
  | finish {n : ℕ} {op : ω} (hop : s.inFlight n = some (op, some true)) :
      Step O s ((s.follow O op).track n none)
  | forget {n : ℕ} {op : ω} (hop : s.inFlight n = some (op, some false)) :
      Step O s (s.track n none)

/-- One operation at a time on each key, allowed by the mirror as it is; the primary
is ahead by the committed ones. -/
structure Inv (O : Ops κ C ω) (s : State κ C ω) : Prop where
  single : ∀ n m op op' out out', s.inFlight n = some (op, out) → s.inFlight m = some (op', out') →
    O.key op = O.key op' → n = m
  allowed : ∀ n op out, s.inFlight n = some (op, out) → O.Allowed op (s.mirror (O.key op))
  ahead : ∀ n op, s.inFlight n = some (op, some true) →
    s.primary (O.key op) = O.apply op (s.mirror (O.key op))
  agree : ∀ k, (∀ n op, s.inFlight n = some (op, some true) → O.key op ≠ k) →
    s.primary k = s.mirror k

variable {O : Ops κ C ω} {s s' : State κ C ω} {n m : ℕ} {op op' : ω} {out : Option Bool} {k : κ}

omit [DecidableEq κ] in
theorem track_eq_some {entry : Option (ω × Option Bool)} {p : ω × Option Bool} :
    (s.track n entry).inFlight m = some p ↔ m = n ∧ entry = some p ∨ m ≠ n ∧ s.inFlight m = some p := by
  change Function.update s.inFlight n entry m = some p ↔ _
  rw [Function.update_apply]
  split_ifs with h <;> simp [h]

omit [DecidableEq κ] in
/-- Two entries with one key are one. -/
theorem Inv.key_ne (h : Inv O s) (hn : s.inFlight n = some (op, out)) {out' : Option Bool}
    (hm : s.inFlight m = some (op', out')) (hne : m ≠ n) : O.key op' ≠ O.key op :=
  fun hkey => hne (h.single m n op' op out' out hm hn hkey)

omit [DecidableEq κ] in
theorem Inv.submit (h : Inv O s)
    (hfree : ∀ m op' out, s.inFlight m = some (op', out) → O.key op' ≠ O.key op)
    (hnew : s.inFlight n = none) (hallowed : O.Allowed op (s.mirror (O.key op))) :
    Inv O (s.track n (some (op, none))) where
  single i j a b out out' hi hj hkey := by
    rw [track_eq_some] at hi hj
    rcases hi with ⟨rfl, hi⟩ | ⟨-, hi⟩ <;> rcases hj with ⟨rfl, hj⟩ | ⟨-, hj⟩
    · rfl
    · cases hi
      exact absurd hkey.symm (hfree j b out' hj)
    · cases hj
      exact absurd hkey (hfree i a out hi)
    · exact h.single i j a b out out' hi hj hkey
  allowed i a out hi := by
    rw [track_eq_some] at hi
    rcases hi with ⟨rfl, hi⟩ | ⟨-, hi⟩
    · cases hi
      exact hallowed
    · exact h.allowed i a out hi
  ahead i a hi := by
    rw [track_eq_some] at hi
    rcases hi with ⟨rfl, hi⟩ | ⟨-, hi⟩
    · cases hi
    · exact h.ahead i a hi
  agree k hk := by
    refine h.agree k fun i a hi => hk i a (track_eq_some.mpr (.inr ⟨?_, hi⟩))
    rintro rfl
    rw [hnew] at hi
    contradiction

omit [DecidableEq κ] in
/-- An outcome for an operation does not change which operations are in flight. -/
theorem before_outcome (hop : s.inFlight n = some (op, none)) {out out' : Option Bool}
    (hm : (s.track n (some (op, out))).inFlight m = some (op', out')) :
    ∃ out'', s.inFlight m = some (op', out'') := by
  rw [track_eq_some] at hm
  rcases hm with ⟨rfl, hm⟩ | ⟨-, hm⟩
  · cases hm
    exact ⟨none, hop⟩
  · exact ⟨out', hm⟩

omit [DecidableEq κ] in
theorem Inv.abort (h : Inv O s) (hop : s.inFlight n = some (op, none)) :
    Inv O (s.track n (some (op, some false))) where
  single i j a b _ _ hi hj := by
    obtain ⟨_, hi⟩ := before_outcome hop hi
    obtain ⟨_, hj⟩ := before_outcome hop hj
    exact h.single i j a b _ _ hi hj
  allowed i a _ hi := by
    obtain ⟨_, hi⟩ := before_outcome hop hi
    exact h.allowed i a _ hi
  ahead i a hi := by
    rw [track_eq_some] at hi
    rcases hi with ⟨-, hi⟩ | ⟨-, hi⟩
    · cases hi
    · exact h.ahead i a hi
  agree k hk := by
    refine h.agree k fun i a hi => hk i a (track_eq_some.mpr (.inr ⟨?_, hi⟩))
    rintro rfl
    rw [hop] at hi
    cases hi

theorem Inv.commit (h : Inv O s) (hop : s.inFlight n = some (op, none)) :
    Inv O ((s.commit O op).track n (some (op, some true))) where
  single i j a b _ _ hi hj := by
    obtain ⟨_, hi⟩ := before_outcome (s := s.commit O op) hop hi
    obtain ⟨_, hj⟩ := before_outcome (s := s.commit O op) hop hj
    exact h.single i j a b _ _ hi hj
  allowed i a _ hi := by
    obtain ⟨_, hi⟩ := before_outcome (s := s.commit O op) hop hi
    exact h.allowed i a _ hi
  ahead i a hi := by
    rw [track_eq_some] at hi
    change Function.update s.primary _ _ _ = O.apply a (s.mirror (O.key a))
    rcases hi with ⟨rfl, hi⟩ | ⟨hne, hi⟩
    · cases hi
      -- the key had no other operation in flight, so the copies agreed on it
      have hagree : s.primary (O.key op) = s.mirror (O.key op) := by
        refine h.agree _ fun j b hj hkey => ?_
        obtain rfl := h.single j i b op _ _ hj hop hkey
        rw [hop] at hj
        cases hj
      rw [Function.update_self, hagree]
    · rw [Function.update_of_ne (h.key_ne hop hi hne)]
      exact h.ahead i a hi
  agree k hk := by
    change Function.update s.primary _ _ _ = s.mirror k
    have hne : k ≠ O.key op := (hk n op (track_eq_some.mpr (.inl ⟨rfl, rfl⟩))).symm
    rw [Function.update_of_ne hne]
    refine h.agree k fun i a hi => hk i a (track_eq_some.mpr (.inr ⟨?_, hi⟩))
    rintro rfl
    rw [hop] at hi
    cases hi

omit [DecidableEq κ] in
theorem Inv.forget (h : Inv O s) (hop : s.inFlight n = some (op, some false)) :
    Inv O (s.track n none) where
  single i j a b out out' hi hj := by
    simp only [track_eq_some, reduceCtorEq, and_false, false_or] at hi hj
    exact h.single i j a b out out' hi.2 hj.2
  allowed i a out hi := by
    simp only [track_eq_some, reduceCtorEq, and_false, false_or] at hi
    exact h.allowed i a out hi.2
  ahead i a hi := by
    simp only [track_eq_some, reduceCtorEq, and_false, false_or] at hi
    exact h.ahead i a hi.2
  agree k hk := by
    refine h.agree k fun i a hi => hk i a (track_eq_some.mpr (.inr ⟨?_, hi⟩))
    rintro rfl
    rw [hop] at hi
    cases hi

theorem Inv.finish (h : Inv O s) (hop : s.inFlight n = some (op, some true)) :
    Inv O ((s.follow O op).track n none) where
  single i j a b out out' hi hj := by
    simp only [track_eq_some, reduceCtorEq, and_false, false_or] at hi hj
    exact h.single i j a b out out' hi.2 hj.2
  allowed i a out hi := by
    simp only [track_eq_some, reduceCtorEq, and_false, false_or] at hi
    change O.Allowed a (Function.update s.mirror _ _ _)
    rw [Function.update_of_ne (h.key_ne hop hi.2 hi.1)]
    exact h.allowed i a out hi.2
  ahead i a hi := by
    simp only [track_eq_some, reduceCtorEq, and_false, false_or] at hi
    change s.primary (O.key a) = O.apply a (Function.update s.mirror _ _ _)
    rw [Function.update_of_ne (h.key_ne hop hi.2 hi.1)]
    exact h.ahead i a hi.2
  agree k hk := by
    change s.primary k = Function.update s.mirror _ _ _
    by_cases hkey : O.key op = k
    · rw [← hkey, Function.update_self]
      exact h.ahead n op hop
    · rw [Function.update_of_ne (Ne.symm hkey)]
      refine h.agree k fun i a hi => ?_
      by_cases hin : i = n
      · subst hin
        rw [hop] at hi
        cases hi
        exact hkey
      · exact hk i a (track_eq_some.mpr (.inr ⟨hin, hi⟩))

theorem Step.inv (hstep : Step O s s') (h : Inv O s) : Inv O s' := by
  cases hstep with
  | idle => exact h
  | submit hnew hfree hallowed => exact h.submit hfree hnew hallowed
  | commit hop => exact h.commit hop
  | abort hop => exact h.abort hop
  | finish hop => exact h.finish hop
  | forget hop => exact h.forget hop

omit [DecidableEq κ] in
/-- The copies agree on a key without an operation in flight. -/
theorem Inv.agree_of_free (h : Inv O s)
    (hfree : ∀ n op out, s.inFlight n = some (op, out) → O.key op ≠ k) :
    s.primary k = s.mirror k :=
  h.agree k fun n op hop => hfree n op _ hop

omit [DecidableEq κ] in
/-- What holds of every mirrored content, and is kept by the operations, holds of the
primary contents too. -/
theorem Inv.primary_forall (h : Inv O s) {W : C → Prop} (hmirror : ∀ k, W (s.mirror k))
    (happly : ∀ op c, O.Allowed op c → W c → W (O.apply op c)) (k : κ) : W (s.primary k) := by
  by_cases hk : ∀ n op, s.inFlight n = some (op, some true) → O.key op ≠ k
  · rw [h.agree k hk]
    exact hmirror k
  · simp only [not_forall, not_not] at hk
    obtain ⟨n, op, hop, rfl⟩ := hk
    rw [h.ahead n op hop]
    exact happly op _ (h.allowed n op _ hop) (hmirror _)

/-- The mirrored contents have a property, and what each operation in flight will make of
its content has it too. -/
structure Sound (O : Ops κ C ω) (W : C → Prop) (s : State κ C ω) : Prop where
  mirror : ∀ k, W (s.mirror k)
  next : ∀ n op out, s.inFlight n = some (op, out) → W (O.apply op (s.mirror (O.key op)))

/-- It is enough to check the property when an operation is submitted. -/
theorem Step.sound {W : C → Prop} (hstep : Step O s s') (h : Inv O s) (hs : Sound O W s)
    (hnew : ∀ n op out, s.inFlight n = none → s'.inFlight n = some (op, out) →
      O.Allowed op (s.mirror (O.key op)) → W (O.apply op (s.mirror (O.key op)))) :
    Sound O W s' := by
  cases hstep with
  | idle => exact hs
  | @submit n op hn hfree hallowed =>
    refine ⟨hs.mirror, fun i a out hi => ?_⟩
    have hentry := hi
    rw [track_eq_some] at hentry
    rcases hentry with ⟨rfl, hentry⟩ | ⟨-, hold⟩
    · cases hentry
      exact hnew i op none hn hi hallowed
    · exact hs.next i a out hold
  | @commit n op hop | @abort n op hop =>
    refine ⟨hs.mirror, fun i a out hi => ?_⟩
    rw [track_eq_some] at hi
    rcases hi with ⟨rfl, hi⟩ | ⟨-, hi⟩
    · cases hi
      exact hs.next i op none hop
    · exact hs.next i a out hi
  | @finish n op hop =>
    refine ⟨fun k => ?_, fun i a out hi => ?_⟩
    · change W (Function.update s.mirror (O.key op) _ k)
      rw [Function.update_apply]
      split_ifs
      · exact hs.next n op _ hop
      · exact hs.mirror k
    · simp only [track_eq_some, reduceCtorEq, and_false, false_or] at hi
      change W (O.apply a (Function.update s.mirror _ _ _))
      rw [Function.update_of_ne (h.key_ne hop hi.2 hi.1)]
      exact hs.next i a out hi.2
  | @forget n op hop =>
    refine ⟨hs.mirror, fun i a out hi => ?_⟩
    simp only [track_eq_some, reduceCtorEq, and_false, false_or] at hi
    exact hs.next i a out hi.2

end Lib.WriteThrough
