import AIWorld.Agent.LivingSurfaceCorridor
import Mathlib.Analysis.InnerProductSpace.PiL2

/-! Exact arithmetic. The operations on floats are those of the real numbers, and positions are points of
Euclidean space. -/

namespace AIWorld.Agent

noncomputable def exactFloats : FloatOps ℝ where
  lit := fun q => q
  add := fun x y => x + y
  sub := fun x y => x - y
  mul := fun x y => x * y
  div := fun x y => x / y
  abs := fun x => |x|
  hypot := fun x y => √(x ^ 2 + y ^ 2)
  hypot3 := fun x y z => √(x ^ 2 + y ^ 2 + z ^ 2)
  ceil := fun x => ⌈x⌉₊
  roundQuotient := fun x q => some (round (x / q))
  isFinite := fun _ => true
  lt := fun x y => x < y
  le := fun x y => x ≤ y
  eq := fun x y => x = y
  eq_self := by simp

section Operations
variable (x y z : ℝ)

@[simp] theorem exact_lit (q : ℚ) : exactFloats.lit q = q := rfl
@[simp] theorem exact_add : exactFloats.add x y = x + y := rfl
@[simp] theorem exact_sub : exactFloats.sub x y = x - y := rfl
@[simp] theorem exact_mul : exactFloats.mul x y = x * y := rfl
@[simp] theorem exact_div : exactFloats.div x y = x / y := rfl
@[simp] theorem exact_abs : exactFloats.abs x = |x| := rfl
@[simp] theorem exact_hypot : exactFloats.hypot x y = √(x ^ 2 + y ^ 2) := rfl
@[simp] theorem exact_hypot3 : exactFloats.hypot3 x y z = √(x ^ 2 + y ^ 2 + z ^ 2) := rfl
@[simp] theorem exact_ceil : exactFloats.ceil x = ⌈x⌉₊ := rfl
@[simp] theorem exact_isFinite : exactFloats.isFinite x = true := rfl
@[simp] theorem exact_lt : exactFloats.lt x y = decide (x < y) := rfl
@[simp] theorem exact_le : exactFloats.le x y = decide (x ≤ y) := rfl
@[simp] theorem exact_eq : exactFloats.eq x y = decide (x = y) := rfl

end Operations

/-! ### Points of space -/

abbrev Space := EuclideanSpace ℝ (Fin 3)

noncomputable def vec (p : ActionPosition ℝ) : Space := !₂[p.x, p.y, p.z]

theorem vec_inj {a b : ActionPosition ℝ} (hmap : a.mapId = b.mapId) : vec a = vec b ↔ a = b := by
  refine ⟨fun h => ?_, fun h => by rw [h]⟩
  have hx := congrFun (congrArg WithLp.ofLp h) 0
  have hy := congrFun (congrArg WithLp.ofLp h) 1
  have hz := congrFun (congrArg WithLp.ofLp h) 2
  cases a
  cases b
  simp_all [vec]

theorem dist_vec (a b : ActionPosition ℝ) :
    dist (vec a) (vec b) = √((a.x - b.x) ^ 2 + (a.y - b.y) ^ 2 + (a.z - b.z) ^ 2) := by
  simp [EuclideanSpace.dist_eq, vec, Fin.sum_univ_three, Real.dist_eq]

theorem norm_vec_sq (a b : ActionPosition ℝ) :
    ‖vec a - vec b‖ ^ 2 = (a.x - b.x) ^ 2 + (a.y - b.y) ^ 2 + (a.z - b.z) ^ 2 := by
  simp [EuclideanSpace.real_norm_sq_eq, vec, Fin.sum_univ_three]

open scoped RealInnerProductSpace in
theorem inner_vec (a b c d : ActionPosition ℝ) : ⟪vec a - vec b, vec c - vec d⟫ =
    (a.x - b.x) * (c.x - d.x) + (a.y - b.y) * (c.y - d.y) + (a.z - b.z) * (c.z - d.z) := by
  simp [PiLp.inner_apply, vec, Fin.sum_univ_three]
  ring

end AIWorld.Agent
