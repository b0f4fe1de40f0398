import Mathlib.Algebra.Ring.Nat
import Mathlib.Order.Basic
import Mathlib.Tactic.Common

/-! Functions that check before they go on. One that leaves at the first check that fails says of an input it lets
through that every check was passed; and a subtraction of unsigned integers that is undefined where it would wrap
around makes a computation defined exactly when none of its subtractions underflows. -/

namespace Lib

/-! ### Guards -/

section Guards

variable {α : Type*} {c : Prop} [Decidable c] {a b x : α}

/-- A function that answers `x` has not left with another answer. -/
theorem left_unless (hne : a ≠ x) : (if c then a else b) = x ↔ ¬ c ∧ b = x := by
  by_cases hc : c
  · rw [if_pos hc]
    exact iff_of_false hne fun h => h.1 hc
  · rw [if_neg hc]
    exact (and_iff_right hc).symm

/-- A function whose answer satisfies `p` has not left with one that does not. -/
theorem left_unless_of {p : α → Prop} (hna : ¬ p a) : p (if c then a else b) ↔ ¬ c ∧ p b := by
  by_cases hc : c
  · rw [if_pos hc]
    exact iff_of_false hna fun h => h.1 hc
  · rw [if_neg hc]
    exact (and_iff_right hc).symm

/-- A function that passes on a failing answer of another check. -/
theorem left_unless_passed {p : α → Prop} [Decidable (¬ p a)] : p (if ¬ p a then a else b) ↔ p a ∧ p b := by
  by_cases ha : p a
  · rw [if_neg (not_not.mpr ha)]
    exact (and_iff_right ha).symm
  · rw [if_pos ha]
    exact iff_of_false ha fun h => ha h.1

end Guards

/-! ### Subtraction -/

def checkedSub (a b : UInt64) : Option UInt64 := if b ≤ a then some (a - b) else none

theorem checkedSub_of_le {a b : UInt64} (h : b ≤ a) : checkedSub a b = some (a - b) := if_pos h

theorem checkedSub_eq_some {a b c : UInt64} :
    checkedSub a b = some c ↔ b ≤ a ∧ a - b = c := by
  unfold checkedSub
  split_ifs with h <;> simp [h]

theorem toNat_add_of_lt {a b : UInt64} (h : a.toNat + b.toNat < 2 ^ 64) :
    (a + b).toNat = a.toNat + b.toNat := by
  rw [UInt64.toNat_add, Nat.mod_eq_of_lt h]

/-- A guarded difference of times, read without the wrap around. -/
theorem elapsed_iff {start now span : UInt64} :
    start ≤ now ∧ span ≤ now - start ↔ start.toNat + span.toNat ≤ now.toNat := by
  constructor
  · rintro ⟨hle, hspan⟩
    rw [UInt64.le_iff_toNat_le, UInt64.toNat_sub_of_le _ _ hle] at hspan
    have hnat := UInt64.le_iff_toNat_le.mp hle
    omega
  · intro h
    have hle : start ≤ now := UInt64.le_iff_toNat_le.mpr (by omega)
    refine ⟨hle, ?_⟩
    rw [UInt64.le_iff_toNat_le, UInt64.toNat_sub_of_le _ _ hle]
    omega

theorem not_elapsed_iff {start now span : UInt64} (h : start ≤ now) :
    now - start < span ↔ now.toNat < start.toNat + span.toNat := by
  rw [← UInt64.not_le, ← Nat.not_le, ← elapsed_iff, and_iff_right h]

end Lib
