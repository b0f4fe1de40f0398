import AIWorld.Agent.ExactGeometry
import AIWorld.Agent.LivingReturnPolicy
import AIWorld.Lib.Straight

/-! Straight legs. The dense points of a path along one straight segment are walked in one leg, as long as the
leg stays short. In exact arithmetic no corner is cut: every point of the path is next to the leg that
spans it, and the points come in order along the route. -/

namespace AIWorld.Raid

open Agent Agent.LivingReturnPolicy
open Agent.LivingSurfaceCorridor (finite)
open Lib.Straight

/-! ### The walk over the points -/

section Model
variable {F : Type} (ops : FloatOps F)

structure Coalescing (F : Type) where
  result : List (ActionPosition F)
  anchor : ActionPosition F
  directionEnd : ActionPosition F
  pending : ActionPosition F
  havePending : Bool

/-- Whether a point goes on along the first ray of the leg. The products are of double precision. -/
def straight (anchor directionEnd pending point : ActionPosition F) : Bool :=
  let ux := ops.sub directionEnd.x anchor.x
  let uy := ops.sub directionEnd.y anchor.y
  let uz := ops.sub directionEnd.z anchor.z
  let vx := ops.sub point.x anchor.x
  let vy := ops.sub point.y anchor.y
  let vz := ops.sub point.z anchor.z
  let cx := ops.sub (ops.mul uy vz) (ops.mul uz vy)
  let cy := ops.sub (ops.mul uz vx) (ops.mul ux vz)
  let cz := ops.sub (ops.mul ux vy) (ops.mul uy vx)
  let squaredDirection := ops.add (ops.add (ops.mul ux ux) (ops.mul uy uy)) (ops.mul uz uz)
  let forward := ops.add (ops.add (ops.mul (ops.sub point.x pending.x) ux) (ops.mul (ops.sub point.y pending.y) uy))
    (ops.mul (ops.sub point.z pending.z) uz)
  ops.lt (ops.lit 0) forward && ops.lt (ops.lit 0) squaredDirection &&
    ops.le (ops.add (ops.add (ops.mul cx cx) (ops.mul cy cy)) (ops.mul cz cz))
      (ops.mul (ops.lit (1 / 10 ^ 8)) squaredDirection)

def coalesceStep (maxLength : F) (s : Coalescing F) (point : ActionPosition F) : Coalescing F :=
  if samePosition ops point s.pending then s
  else if !s.havePending then { s with directionEnd := point, pending := point, havePending := true }
  else if !straight ops s.anchor s.directionEnd s.pending point ||
      ops.lt maxLength (distance ops s.anchor point) then
    { s with result := s.result ++ [s.pending], anchor := s.pending, directionEnd := point, pending := point }
  else { s with pending := point }

/-- Every point is finite, on the map and within reach of the one before. -/
def stepsBounded (source : ActionPosition F) (maxLength : F) : ActionPosition F → List (ActionPosition F) → Bool
  | _, [] => true
  | previous, point :: corridor =>
    if !finite ops point || point.mapId ≠ source.mapId ||
        ops.lt (ops.add maxLength (ops.lit (1 / 10000))) (distance ops previous point) then false
    else stepsBounded source maxLength point corridor

def coalesceStraightLegs (source : ActionPosition F) (corridor : List (ActionPosition F)) (maxLength : F) :
    List (ActionPosition F) :=
  if !finite ops source || !ops.isFinite maxLength || ops.le maxLength (ops.lit 1) ||
      ops.lt (maxStepLength ops) maxLength || corridor.length > 128 then []
  else if !stepsBounded ops source maxLength source corridor then []
  else
    let s := corridor.foldl (coalesceStep ops maxLength) ⟨[], source, source, source, false⟩
    if s.havePending then s.result ++ [s.pending] else s.result

end Model

/-! ### Exact arithmetic -/

variable {source anchor directionEnd pending point a e : ActionPosition ℝ} {maxLength : ℝ}
  {block done legs seen corridor : List (ActionPosition ℝ)}

theorem samePosition_iff (a b : ActionPosition ℝ) : samePosition exactFloats a b = true ↔ a = b := by
  cases a
  cases b
  simp [samePosition, and_assoc]

theorem distance_eq (a b : ActionPosition ℝ) : distance exactFloats a b = dist (vec a) (vec b) :=
  (dist_vec a b).symm

/-- The direction of a leg. -/
noncomputable def direction (anchor directionEnd : ActionPosition ℝ) : Space := vec directionEnd - vec anchor

/-- How far along the first ray of its leg a point is. -/
noncomputable def coordinate (anchor directionEnd p : ActionPosition ℝ) : ℝ :=
  along (direction anchor directionEnd) (vec p - vec anchor)

open scoped RealInnerProductSpace in
theorem straight_spec (h : straight exactFloats anchor directionEnd pending point = true) :
    direction anchor directionEnd ≠ 0 ∧
    coordinate anchor directionEnd pending < coordinate anchor directionEnd point ∧
    ‖vec point - vec anchor - coordinate anchor directionEnd point • direction anchor directionEnd‖ ≤ 1 / 10 ^ 4 := by
  simp only [straight, exact_lt, exact_le, exact_add, exact_mul, exact_sub, exact_lit, Bool.and_eq_true,
    decide_eq_true_eq, Rat.cast_zero] at h
  obtain ⟨⟨hforward, hdirection⟩, hcross⟩ := h
  have hsq := norm_vec_sq directionEnd anchor
  have hne : direction anchor directionEnd ≠ 0 := by
    intro hzero
    rw [direction] at hzero
    rw [hzero, norm_zero] at hsq
    nlinarith
  refine ⟨hne, along_lt hne ?_, norm_sub_along_le hne (by norm_num) ?_⟩
  · rw [sub_sub_sub_cancel_right, direction, inner_vec]
    linarith
  · rw [direction, hsq, norm_vec_sq, inner_vec]
    push_cast at hcross
    nlinarith [hcross]

/-! ### Blocks of points -/

/-- Points along one leg: each next to the leg, and none behind the ones before it. -/
def Along (a e : ActionPosition ℝ) (block : List (ActionPosition ℝ)) : Prop :=
  ∃ t : ActionPosition ℝ → ℝ,
    (∀ p ∈ block, 0 ≤ t p ∧ t p ≤ 1 ∧ dist (vec p) (AffineMap.lineMap (vec a) (vec e) (t p)) ≤ (2 / 10 ^ 4 : ℚ)) ∧
      block.Pairwise fun p q => t p ≤ t q

/-- Legs one after another, each with the points along it, the last of which is its end. -/
inductive Spanned : ActionPosition ℝ → List (ActionPosition ℝ) → List (ActionPosition ℝ) → Prop
  | nil (a : ActionPosition ℝ) : Spanned a [] []
  | leg {a e : ActionPosition ℝ} {block legs rest : List (ActionPosition ℝ)} (halong : Along a e block)
      (hend : block.getLast? = some e) (h : Spanned e legs rest) : Spanned a (e :: legs) (block ++ rest)

theorem Spanned.append (h : Spanned a legs done) (halong : Along (legs.getLastD a) e block)
    (hend : block.getLast? = some e) : Spanned a (legs ++ [e]) (done ++ block) := by
  induction h with
  | nil a =>
    have hleg := Spanned.leg halong hend (.nil e)
    rwa [List.append_nil] at hleg
  | @leg a e' block' legs rest halong' hend' _ ih =>
    rw [List.cons_append, List.append_assoc]
    refine .leg halong' hend' (ih ?_)
    rwa [List.getLastD_cons] at halong

theorem Spanned.sublist (h : Spanned a legs done) : legs.Sublist done := by
  induction h with
  | nil a => exact .slnil
  | leg _ hend _ ih =>
    have hmem := List.singleton_sublist.mpr (List.mem_of_getLast? hend)
    exact hmem.append ih

/-- The points of the leg that is not yet complete, seen along its first ray. -/
structure Block (anchor directionEnd pending : ActionPosition ℝ) (block : List (ActionPosition ℝ)) : Prop where
  direction_ne : direction anchor directionEnd ≠ 0
  last : block.getLast? = some pending
  forward : 0 < coordinate anchor directionEnd pending
  near : ∀ p ∈ block, 0 ≤ coordinate anchor directionEnd p ∧
    coordinate anchor directionEnd p ≤ coordinate anchor directionEnd pending ∧
    ‖vec p - vec anchor - coordinate anchor directionEnd p • direction anchor directionEnd‖ ≤ 1 / 10 ^ 4
  sorted : block.Pairwise fun p q => coordinate anchor directionEnd p ≤ coordinate anchor directionEnd q

theorem Block.pending_mem (h : Block anchor directionEnd pending block) : pending ∈ block :=
  List.mem_of_getLast? h.last

theorem Block.along (h : Block anchor directionEnd pending block) : Along anchor pending block := by
  refine ⟨fun p => coordinate anchor directionEnd p / coordinate anchor directionEnd pending, fun p hp => ?_, ?_⟩
  · obtain ⟨hnonneg, hle, hnear⟩ := h.near p hp
    obtain ⟨-, -, hend⟩ := h.near pending h.pending_mem
    refine ⟨div_nonneg hnonneg h.forward.le, (div_le_one h.forward).mpr hle, ?_⟩
    have hleg := norm_sub_leg_le hnear hend hnonneg hle h.forward
    rw [dist_eq_norm, AffineMap.lineMap_apply, vsub_eq_sub, vadd_eq_add, add_comm, ← sub_sub]
    linarith
  · exact h.sorted.imp fun hpq => div_le_div_of_nonneg_right hpq h.forward.le

theorem coordinate_anchor : coordinate anchor directionEnd anchor = 0 := by
  rw [coordinate, sub_self, along_zero]

/-- The first point of a leg gives it its direction. -/
theorem Block.first (hblock : ∀ p ∈ block, p = anchor) (hpoint : vec point ≠ vec anchor) :
    Block anchor point point (block ++ [point]) := by
  have hne : direction anchor point ≠ 0 := sub_ne_zero.mpr hpoint
  have hone : coordinate anchor point point = 1 := along_self hne
  refine ⟨hne, List.getLast?_concat, by rw [hone]; norm_num, fun p hp => ?_, ?_⟩
  · rcases List.mem_append.mp hp with hp | hp
    · rw [hblock p hp, coordinate_anchor, hone]
      simp
    · rw [List.mem_singleton.mp hp, hone, one_smul, direction, sub_self]
      simp
  · refine List.pairwise_append.mpr ⟨List.pairwise_of_forall_mem_list fun p hp q hq => ?_, List.pairwise_singleton _ _,
      fun p hp q hq => ?_⟩
    · rw [hblock p hp, hblock q hq]
    · rw [hblock p hp, List.mem_singleton.mp hq, coordinate_anchor, hone]
      norm_num

/-- A point further along, next to the ray, joins the leg. -/
theorem Block.extend (h : Block anchor directionEnd pending block)
    (hle : coordinate anchor directionEnd pending ≤ coordinate anchor directionEnd point)
    (hnear : ‖vec point - vec anchor - coordinate anchor directionEnd point • direction anchor directionEnd‖ ≤ 1 / 10 ^ 4) :
    Block anchor directionEnd point (block ++ [point]) := by
  refine ⟨h.direction_ne, List.getLast?_concat, h.forward.trans_le hle, fun p hp => ?_, ?_⟩
  · rcases List.mem_append.mp hp with hp | hp
    · obtain ⟨hnonneg, hpending, hp⟩ := h.near p hp
      exact ⟨hnonneg, hpending.trans hle, hp⟩
    · rw [List.mem_singleton.mp hp]
      exact ⟨h.forward.le.trans hle, le_rfl, hnear⟩
  · refine List.pairwise_append.mpr ⟨h.sorted, List.pairwise_singleton _ _, fun p hp q hq => ?_⟩
    rw [List.mem_singleton.mp hq]
    exact (h.near p hp).2.1.trans hle

/-! ### The walk -/

/-- A leg that is short enough to be walked at once. -/
def Short (maxLength : ℝ) (a b : ActionPosition ℝ) : Prop :=
  dist (vec a) (vec b) ≤ maxLength + (1 / 10 ^ 4 : ℚ)

theorem isChain_snoc {r : ActionPosition ℝ → ActionPosition ℝ → Prop} {l : List (ActionPosition ℝ)} :
    (a :: (l ++ [e])).IsChain r ↔ (a :: l).IsChain r ∧ r (l.getLastD a) e := by
  rw [← List.cons_append, List.isChain_append, List.getLastD_eq_getLast?]
  simp [List.getLast?_cons]

/-- Where the loop stands after some points: it waits for one away from the start, or walks a leg. -/
inductive Walk (source : ActionPosition ℝ) (maxLength : ℝ) : Coalescing ℝ → List (ActionPosition ℝ) → Prop
  | waiting {seen : List (ActionPosition ℝ)} (h : ∀ p ∈ seen, p = source) :
      Walk source maxLength ⟨[], source, source, source, false⟩ seen
  | walking {result done block : List (ActionPosition ℝ)} {directionEnd pending : ActionPosition ℝ}
      (hspanned : Spanned source result done)
      (hblock : Block (result.getLastD source) directionEnd pending block)
      (hmap : pending.mapId = source.mapId) (hshort : (source :: (result ++ [pending])).IsChain (Short maxLength)) :
      Walk source maxLength ⟨result, result.getLastD source, directionEnd, pending, true⟩ (done ++ block)

variable {s : Coalescing ℝ}

theorem Walk.pending_eq (h : Walk source maxLength s seen) : s.pending = seen.getLastD source := by
  cases h with
  | waiting h =>
    cases hlast : seen.getLast? with
    | none => rw [List.getLastD_eq_getLast?, hlast]; rfl
    | some p =>
      rw [List.getLastD_eq_getLast?, hlast, Option.getD_some]
      exact (h p (List.mem_of_getLast? hlast)).symm
  | @walking result done block directionEnd pending _ hblock =>
    have hlast : (done ++ block).getLast? = some pending := by
      rw [List.getLast?_append_of_ne_nil _ (List.ne_nil_of_mem hblock.pending_mem), hblock.last]
    change pending = (done ++ block).getLastD source
    rw [List.getLastD_eq_getLast?, hlast, Option.getD_some]

/-- One point keeps the walk. -/
theorem Walk.step (h : Walk source maxLength s seen) (hmap : point.mapId = source.mapId)
    (hreach : Short maxLength s.pending point) :
    Walk source maxLength (coalesceStep exactFloats maxLength s point) (seen ++ [point]) := by
  cases h with
  | waiting h =>
    by_cases hsame : samePosition exactFloats point source = true
    · rw [coalesceStep, if_pos hsame]
      refine .waiting fun p hp => ?_
      rcases List.mem_append.mp hp with hp | hp
      · exact h p hp
      · rw [List.mem_singleton.mp hp]
        exact (samePosition_iff _ _).mp hsame
    · rw [coalesceStep, if_neg hsame, if_pos (by simp)]
      have hne : vec point ≠ vec source := fun heq =>
        hsame ((samePosition_iff _ _).mpr ((vec_inj hmap).mp heq))
      change Walk source maxLength ⟨[], source, point, point, true⟩ ([] ++ (seen ++ [point]))
      exact .walking (.nil source) (Block.first h hne) hmap (isChain_snoc.mpr ⟨.singleton _, hreach⟩)
  | @walking result done block directionEnd pending hspanned hblock hpending hshort =>
    by_cases hsame : samePosition exactFloats point pending = true
    · rw [coalesceStep, if_pos hsame]
      cases (samePosition_iff _ _).mp hsame
      rw [List.append_assoc]
      exact .walking hspanned (hblock.extend le_rfl (hblock.near _ hblock.pending_mem).2.2) hpending hshort
    · rw [coalesceStep, if_neg hsame, if_neg (by simp)]
      split
      · have hne : vec point ≠ vec pending := fun heq =>
          hsame ((samePosition_iff _ _).mpr ((vec_inj (hmap.trans hpending.symm)).mp heq))
        have hfirst : Block pending point point ([] ++ [point]) := Block.first (by simp) hne
        have hspanned' := hspanned.append hblock.along hblock.last
        have hlast : (result ++ [pending]).getLastD source = pending := List.getLastD_concat
        rw [← hlast] at hfirst
        have hchain := isChain_snoc.mpr ⟨hshort, hlast.symm ▸ hreach⟩
        have hwalk := Walk.walking hspanned' hfirst hmap hchain
        rwa [hlast] at hwalk
      next hstay =>
        simp only [Bool.or_eq_true, not_or, Bool.not_eq_true', Bool.not_eq_false, exact_lt, decide_eq_true_eq,
          not_lt, distance_eq] at hstay
        obtain ⟨-, hlt, hnear⟩ := straight_spec hstay.1
        rw [List.append_assoc]
        have hend : Short maxLength (result.getLastD source) point := hstay.2.trans (by linarith)
        exact .walking hspanned (hblock.extend hlt.le hnear) hmap
          (isChain_snoc.mpr ⟨(isChain_snoc.mp hshort).1, hend⟩)

/-- The whole corridor is walked. -/
theorem Walk.run (h : Walk source maxLength s seen)
    (hbounded : stepsBounded exactFloats source maxLength (seen.getLastD source) corridor = true) :
    Walk source maxLength (corridor.foldl (coalesceStep exactFloats maxLength) s) (seen ++ corridor) := by
  induction corridor generalizing s seen with
  | nil => rwa [List.append_nil]
  | cons point corridor ih =>
    simp only [stepsBounded, exact_lt, exact_add, exact_lit, distance_eq] at hbounded
    split_ifs at hbounded with hguard
    simp only [Bool.or_eq_true, not_or, Bool.not_eq_true', Bool.not_eq_false, decide_eq_true_eq, not_lt,
      ne_eq, not_not] at hguard
    obtain ⟨⟨-, hmap⟩, hreach⟩ := hguard
    have hshort : Short maxLength s.pending point := by
      rw [h.pending_eq]
      exact hreach.trans_eq (by push_cast; ring)
    have hstep := ih (h.step hmap hshort) (by rwa [List.getLastD_concat])
    rwa [List.append_assoc] at hstep

theorem coalesce_single : coalesceStraightLegs exactFloats ⟨725, 0, 0, 0⟩ [⟨725, 1, 0, 0⟩] 14 = [⟨725, 1, 0, 0⟩] := by
  simp [coalesceStraightLegs, stepsBounded, coalesceStep, finite, maxStepLength, distance, samePosition]
  norm_num

end AIWorld.Raid
