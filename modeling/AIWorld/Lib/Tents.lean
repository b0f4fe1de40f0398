import Mathlib.Algebra.BigOperators.Group.Finset.Basic
import Mathlib.Algebra.BigOperators.Ring.Finset
import Mathlib.Algebra.Order.Field.Basic
import Mathlib.Data.Rat.Cast.Order
import Mathlib.Tactic.Linarith
import Mathlib.Tactic.Ring

/-! A continuous field over a grid of squares. Each corner carries a tent over the four squares around it and each
centre a cap over its own square, so that the field is the given height at every corner and centre and linear on
each of the four triangles of a square. -/

namespace Lib.Tents

open Finset

variable {K : Type} [Field K] [LinearOrder K]

def half : K := (1 / 2 : ℚ)

def tent (s t : K) : K := max 0 (1 - |s| - |t|)

def cap (s t : K) : K := max 0 (1 - (2 : ℕ) * max |s| |t|)

/-- The field over `n` by `n` squares. -/
def field (corners centers : ℕ → ℕ → K) (n : ℕ) (u v : K) : K :=
  ∑ i ∈ range (n + 1), ∑ j ∈ range (n + 1), corners i j * tent (u - i) (v - j) +
    ∑ i ∈ range n, ∑ j ∈ range n, centers i j * cap (u - i - half) (v - j - half)

variable [IsStrictOrderedRing K] {s t u v : K} {n row col : ℕ}

theorem tent_of_left (h : 1 ≤ |s|) : tent s t = 0 :=
  max_eq_left (by linarith [abs_nonneg t])

theorem tent_of_right (h : 1 ≤ |t|) : tent s t = 0 :=
  max_eq_left (by linarith [abs_nonneg s])

theorem half_eq : (half : K) = 1 / 2 := by
  unfold half
  norm_num

theorem cap_of_left (h : half ≤ |s|) : cap s t = 0 := by
  rw [half_eq] at h
  have hle := le_max_left |s| |t|
  refine max_eq_left ?_
  push_cast
  linarith

theorem cap_of_right (h : half ≤ |t|) : cap s t = 0 := by
  rw [half_eq] at h
  have hle := le_max_right |s| |t|
  refine max_eq_left ?_
  push_cast
  linarith

/-- A point is at least one square away from the other corners. -/
theorem one_le_abs (h : (row : K) ≤ u) (h' : u ≤ row + 1) {i : ℕ} (hi : i ≠ row) (hi' : i ≠ row + 1) :
    1 ≤ |u - i| := by
  rcases Nat.lt_or_gt_of_ne hi with hlt | hgt
  · have hcast : (i : K) + 1 ≤ row := by exact_mod_cast hlt
    exact (by linarith : 1 ≤ u - i).trans (le_abs_self _)
  · have hcast : (row : K) + 2 ≤ i := by exact_mod_cast (by omega : row + 2 ≤ i)
    exact (by linarith : 1 ≤ -(u - i)).trans (neg_le_abs _)

theorem half_le_abs (h : (row : K) ≤ u) (h' : u ≤ row + 1) {i : ℕ} (hi : i ≠ row) : half ≤ |u - i - half| := by
  rw [half_eq]
  rcases Nat.lt_or_gt_of_ne hi with hlt | hgt
  · have hcast : (i : K) + 1 ≤ row := by exact_mod_cast hlt
    exact (by linarith : 1 / 2 ≤ u - i - 1 / 2).trans (le_abs_self _)
  · have hcast : (row : K) + 1 ≤ i := by exact_mod_cast hgt
    exact (by linarith : 1 / 2 ≤ -(u - i - 1 / 2)).trans (neg_le_abs _)

omit [LinearOrder K] [IsStrictOrderedRing K] in
theorem sum_corners {f : ℕ → K} (hrow : row < n) (hf : ∀ i, i ≠ row → i ≠ row + 1 → f i = 0) :
    ∑ i ∈ range (n + 1), f i = f row + f (row + 1) :=
  sum_eq_add row (row + 1) (by omega) (fun i _ hi => hf i hi.1 hi.2)
    (fun hmem => absurd (mem_range.mpr (by omega)) hmem) fun hmem => absurd (mem_range.mpr (by omega)) hmem

/-- Over one square the field depends on its corners and its centre alone. -/
theorem field_square (corners centers : ℕ → ℕ → K) (hrow : row < n) (hcol : col < n) (hu : (row : K) ≤ u)
    (hu' : u ≤ row + 1) (hv : (col : K) ≤ v) (hv' : v ≤ col + 1) : field corners centers n u v =
      corners row col * max 0 (1 - (u - row) - (v - col)) + corners row (col + 1) * max 0 ((v - col) - (u - row)) +
      (corners (row + 1) col * max 0 ((u - row) - (v - col)) +
        corners (row + 1) (col + 1) * max 0 ((u - row) + (v - col) - 1)) +
      centers row col * cap (u - row - half) (v - col - half) := by
  have hcorners (i : ℕ) : ∑ j ∈ range (n + 1), corners i j * tent (u - i) (v - j) =
      corners i col * tent (u - i) (v - col) + corners i (col + 1) * tent (u - i) (v - (col + 1 : ℕ)) :=
    sum_corners hcol fun j hj hj' => by rw [tent_of_right (one_le_abs hv hv' hj hj'), mul_zero]
  have hcenters : ∑ i ∈ range n, ∑ j ∈ range n, centers i j * cap (u - i - half) (v - j - half) =
      centers row col * cap (u - row - half) (v - col - half) := by
    rw [sum_eq_single row, sum_eq_single col]
    · exact fun j _ hj => by rw [cap_of_right (half_le_abs hv hv' hj), mul_zero]
    · exact fun hmem => absurd (mem_range.mpr hcol) hmem
    · exact fun i _ hi => sum_eq_zero fun j _ => by rw [cap_of_left (half_le_abs hu hu' hi), mul_zero]
    · exact fun hmem => absurd (mem_range.mpr hrow) hmem
  have hrows := sum_corners (f := fun i => ∑ j ∈ range (n + 1), corners i j * tent (u - i) (v - j)) hrow
    fun i hi hi' => sum_eq_zero fun j _ => by rw [tent_of_left (one_le_abs hu hu' hi hi'), mul_zero]
  have hnear : |u - row| = u - row := abs_of_nonneg (by linarith)
  have hfar : |u - (row + 1 : ℕ)| = 1 - (u - row) := by
    push_cast
    rw [abs_of_nonpos (by linarith)]
    ring
  have hnear' : |v - col| = v - col := abs_of_nonneg (by linarith)
  have hfar' : |v - (col + 1 : ℕ)| = 1 - (v - col) := by
    push_cast
    rw [abs_of_nonpos (by linarith)]
    ring
  have hleft : 1 - (u - row) - (1 - (v - col)) = v - col - (u - row) := by ring
  have hright : 1 - (1 - (u - row)) - (v - col) = u - row - (v - col) := by ring
  have hboth : 1 - (1 - (u - row)) - (1 - (v - col)) = u - row + (v - col) - 1 := by ring
  rw [field, hrows, hcorners, hcorners, hcenters]
  simp only [tent, hnear, hfar, hnear', hfar', hleft, hright, hboth]

end Lib.Tents
