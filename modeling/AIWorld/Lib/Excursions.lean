import Mathlib.Algebra.BigOperators.Group.List.Basic
import Mathlib.Tactic.Common
import Mathlib.Tactic.Ring

/-! Walks that go up and down by one. Cut at the points where it is on the ground, a walk that
never goes below it is a sequence of excursions, of which the last may be unfinished. A
resource that is taken and given back in any order is in use exactly during them. -/

namespace Lib

variable {α : Type*} (up : α → Bool)

/-- How far above its start a walk ends. -/
def height (walk : List α) : ℤ := (walk.map fun x => if up x then 1 else -1).sum

/-- The walk is above the ground after each of its steps. -/
def Above (walk : List α) : Prop := ∀ start, start <+: walk → start ≠ [] → 0 < height up start

/-- The walk comes back to the ground with its last step and not before. -/
structure IsExcursion (walk : List α) : Prop where
  ne_nil : walk ≠ []
  ground : height up walk = 0
  above : ∀ start, start <+: walk → start ≠ [] → start ≠ walk → 0 < height up start

/-- A walk cut into its excursions and an unfinished one. -/
structure CutsInto (walk : List α) (closed : List (List α)) (current : List α) : Prop where
  eq : walk = closed.flatten ++ current
  closed : ∀ part ∈ closed, IsExcursion up part
  above : Above up current

variable {up} {walk current : List α} {closed : List (List α)} {x : α}

@[simp] theorem height_nil : height up [] = 0 := rfl

theorem height_append (walk rest : List α) : height up (walk ++ rest) = height up walk + height up rest := by
  rw [height, List.map_append, List.sum_append, height, height]

theorem height_concat_up (walk : List α) (hx : up x = true) : height up (walk ++ [x]) = height up walk + 1 := by
  rw [height_append]
  simp [height, hx]

theorem height_concat_down (walk : List α) (hx : up x = false) :
    height up (walk ++ [x]) = height up walk - 1 := by
  rw [height_append]
  simp [height, hx, sub_eq_add_neg]

theorem above_nil : Above up ([] : List α) := fun _ hstart hne =>
  absurd (List.prefix_nil.mp hstart) hne

theorem Above.height_nonneg (h : Above up walk) : 0 ≤ height up walk := by
  by_cases hne : walk = []
  · rw [hne, height_nil]
  · exact (h walk (List.prefix_refl walk) hne).le

theorem Above.height_pos (h : Above up walk) (hne : walk ≠ []) : 0 < height up walk :=
  h walk (List.prefix_refl walk) hne

theorem Above.concat (h : Above up walk) (hpos : 0 < height up (walk ++ [x])) : Above up (walk ++ [x]) := by
  intro start hstart hne
  rcases List.prefix_concat_iff.mp hstart with rfl | hstart
  · exact hpos
  · exact h start hstart hne

theorem CutsInto.nil : CutsInto up ([] : List α) [] [] := ⟨rfl, by simp, above_nil⟩

/-- A step up starts an excursion or goes on with the current one. -/
theorem CutsInto.goUp (h : CutsInto up walk closed current) (hx : up x = true) :
    CutsInto up (walk ++ [x]) closed (current ++ [x]) := by
  refine ⟨by rw [h.eq, List.append_assoc], h.closed, h.above.concat ?_⟩
  rw [height_concat_up current hx]
  have := h.above.height_nonneg
  omega

/-- A step down that does not reach the ground goes on with the current excursion. -/
theorem CutsInto.goDown (h : CutsInto up walk closed current) (hx : up x = false)
    (hheight : height up current ≠ 1) (hne : current ≠ []) :
    CutsInto up (walk ++ [x]) closed (current ++ [x]) := by
  refine ⟨by rw [h.eq, List.append_assoc], h.closed, h.above.concat ?_⟩
  rw [height_concat_down current hx]
  have := h.above.height_pos hne
  omega

/-- A step down to the ground closes the current excursion. -/
theorem CutsInto.close (h : CutsInto up walk closed current) (hx : up x = false)
    (hheight : height up current = 1) : CutsInto up (walk ++ [x]) (closed ++ [current ++ [x]]) [] := by
  have hground : height up (current ++ [x]) = 0 := by
    rw [height_concat_down current hx, hheight, sub_self]
  refine ⟨by rw [h.eq]; simp, fun part hpart => ?_, above_nil⟩
  rcases List.mem_append.mp hpart with hpart | hpart
  · exact h.closed part hpart
  · rw [List.mem_singleton.mp hpart]
    refine ⟨by simp, hground, fun start hstart hne hproper => ?_⟩
    rcases List.prefix_concat_iff.mp hstart with rfl | hstart
    · exact absurd rfl hproper
    · exact h.above start hstart hne

end Lib
