import Mathlib.Analysis.InnerProductSpace.Basic

/-! Points near a ray. What is near the same ray as the end of a leg, and not further along, is within twice
that of the leg itself. -/

namespace Lib.Straight

variable {V : Type*} [NormedAddCommGroup V] [InnerProductSpace ℝ V] {u v e : V} {ε : ℝ}

open scoped RealInnerProductSpace

/-- How far along a direction, in multiples of it. -/
noncomputable def along (u v : V) : ℝ := ⟪u, v⟫ / ‖u‖ ^ 2

theorem along_self (hu : u ≠ 0) : along u u = 1 := by
  rw [along, real_inner_self_eq_norm_sq, div_self]
  exact pow_ne_zero 2 (norm_ne_zero_iff.mpr hu)

theorem along_zero : along u 0 = 0 := by simp [along]

theorem along_lt (hu : u ≠ 0) {w : V} (h : 0 < ⟪u, w - v⟫) : along u v < along u w := by
  have hpos : 0 < ‖u‖ ^ 2 := pow_pos (norm_pos_iff.mpr hu) 2
  rw [along, along, div_lt_div_iff_of_pos_right hpos]
  rw [inner_sub_right] at h
  linarith

/-- The distance from a line, by the parallelogram that a point spans with its direction. -/
theorem norm_sub_along_sq (hu : u ≠ 0) :
    ‖v - along u v • u‖ ^ 2 * ‖u‖ ^ 2 = ‖u‖ ^ 2 * ‖v‖ ^ 2 - ⟪u, v⟫ ^ 2 := by
  have hne : ‖u‖ ^ 2 ≠ 0 := pow_ne_zero 2 (norm_ne_zero_iff.mpr hu)
  rw [norm_sub_sq_real, real_inner_smul_right, norm_smul, mul_pow, Real.norm_eq_abs, sq_abs, along,
    real_inner_comm u v]
  field_simp
  ring

theorem norm_sub_along_le (hu : u ≠ 0) (hε : 0 ≤ ε)
    (h : ‖u‖ ^ 2 * ‖v‖ ^ 2 - ⟪u, v⟫ ^ 2 ≤ ε ^ 2 * ‖u‖ ^ 2) : ‖v - along u v • u‖ ≤ ε := by
  have hpos : 0 < ‖u‖ ^ 2 := pow_pos (norm_pos_iff.mpr hu) 2
  rw [← norm_sub_along_sq hu] at h
  exact abs_le_of_sq_le_sq' (le_of_mul_le_mul_right h hpos) hε |>.2

/-- A point no further along than the end of a leg, with both of them near the same ray, is near the leg. -/
theorem norm_sub_leg_le {c b : ℝ} (hv : ‖v - c • u‖ ≤ ε) (he : ‖e - b • u‖ ≤ ε) (hc : 0 ≤ c) (hcb : c ≤ b)
    (hb : 0 < b) : ‖v - (c / b) • e‖ ≤ 2 * ε := by
  have hsplit : v - (c / b) • e = (v - c • u) - (c / b) • (e - b • u) := by
    rw [smul_sub, smul_smul, div_mul_cancel₀ c hb.ne']
    abel
  have hratio : c / b ≤ 1 := (div_le_one hb).mpr hcb
  have hnonneg : 0 ≤ c / b := div_nonneg hc hb.le
  calc ‖v - (c / b) • e‖ ≤ ‖v - c • u‖ + ‖(c / b) • (e - b • u)‖ := hsplit ▸ norm_sub_le _ _
    _ = ‖v - c • u‖ + c / b * ‖e - b • u‖ := by rw [norm_smul, Real.norm_eq_abs, abs_of_nonneg hnonneg]
    _ ≤ ε + 1 * ε := add_le_add hv (mul_le_mul hratio he (norm_nonneg _) zero_le_one)
    _ = 2 * ε := by ring

end Lib.Straight
