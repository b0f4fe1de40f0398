import AIWorld.Agent.ExactGeometry
import AIWorld.Agent.LivingReturnPolicy
import AIWorld.Lib.Machine
import Mathlib.Data.List.Forall2

/-! The trail that an agent leaves on its way out, and consumes on its way home. It has no loops and no more than
`maxTrailPoints` points, and its first point stays as long as the agent stays on its map. -/

namespace AIWorld.Agent.LivingReturnPolicy

open Lib
open LivingSurfaceCorridor (finite)

/-! ### Runs -/

/-- What the way home knows of the trail. -/
structure Homing (F : Type) where
  trailTarget : Option (ActionPosition F)
  trailDestination : ActionPosition F
  trail : List (ActionPosition F)

inductive TrailOp (F : Type)
  | aim (target : Option (ActionPosition F)) (destination : ActionPosition F)
  | observe (point : ActionPosition F) (returning : Bool)
  | arrive (here : ActionPosition F)

variable {F : Type} (ops : FloatOps F)

def Homing.step (s : Homing F) : TrailOp F → Homing F
  | .aim target destination => { s with trailTarget := target, trailDestination := destination }
  | .observe point returning => { s with trail := observeTrail ops s.trail point returning }
  | .arrive here =>
    { s with
      trailTarget := (arriveOnTrail ops s.trailTarget s.trailDestination here s.trail).1
      trail := (arriveOnTrail ops s.trailTarget s.trailDestination here s.trail).2 }

def homing : Machine (Homing F) (TrailOp F) Unit where
  step s op := some ((), s.step ops op)

variable {ops} {trail : List (ActionPosition F)} {point a : ActionPosition F} {returning : Bool}

/-! ### One step -/

/-- A trail without loops, of finite points on one map. -/
structure LoopFree (ops : FloatOps F) (trail : List (ActionPosition F)) : Prop where
  bounded : trail.length ≤ maxTrailPoints
  finite : ∀ p ∈ trail, finite ops p = true
  oneMap : ∀ p ∈ trail, ∀ q ∈ trail, p.mapId = q.mapId
  apart : trail.Pairwise fun p q => ops.le (distance ops p q) (ops.lit 2) = false

theorem LoopFree.nil : LoopFree ops [] := ⟨Nat.zero_le _, by simp, by simp, .nil⟩

theorem LoopFree.sublist {trail' : List (ActionPosition F)} (h : LoopFree ops trail) (hsub : trail'.Sublist trail) :
    LoopFree ops trail' where
  bounded := hsub.length_le.trans h.bounded
  finite p hp := h.finite p (hsub.subset hp)
  oneMap p hp q hq := h.oneMap p (hsub.subset hp) q (hsub.subset hq)
  apart := h.apart.sublist hsub

/-- A point that is put behind some of the others. -/
structure Appends (ops : FloatOps F) (trail kept : List (ActionPosition F)) (point : ActionPosition F) : Prop where
  sublist : kept.Sublist trail
  room : kept.length < maxTrailPoints
  finite : finite ops point = true
  oneMap : ∀ q ∈ kept, q.mapId = point.mapId
  apart : ∀ q ∈ trail, q.mapId = point.mapId → ops.le (distance ops q point) (ops.lit 2) = false

theorem sameMap_cases (h : LoopFree ops trail) (point : ActionPosition F) :
    sameMap trail point = [] ∧ (∀ q ∈ trail, q.mapId ≠ point.mapId) ∨
      sameMap trail point = trail ∧ ∀ q ∈ trail, q.mapId = point.mapId := by
  unfold sameMap
  cases hlast : trail.getLast? with
  | none =>
    rw [List.getLast?_eq_none_iff] at hlast
    simp [hlast]
  | some last =>
    have hmem := List.mem_of_getLast? hlast
    by_cases hmap : last.mapId = point.mapId
    · exact .inr ⟨by simp [hmap], fun q hq => (h.oneMap q hq last hmem).trans hmap⟩
    · exact .inl ⟨by simp [hmap], fun q hq heq => hmap ((h.oneMap last hmem q hq).trans heq)⟩

theorem makeRoom_spec (h : trail.length ≤ maxTrailPoints) :
    (makeRoom trail).Sublist trail ∧ (makeRoom trail).length < maxTrailPoints := by
  unfold makeRoom
  split_ifs with hfull
  · refine ⟨List.eraseIdx_sublist _ _, ?_⟩
    rw [List.length_eraseIdx_of_lt (by rw [hfull]; decide), hfull]
    decide
  · exact ⟨.refl _, by omega⟩

theorem observe_cases (h : LoopFree ops trail) (point : ActionPosition F) (returning : Bool) :
    observeTrail ops trail point returning <+: trail ∨
      ∃ kept, Appends ops trail kept point ∧ observeTrail ops trail point returning = kept ++ [point] := by
  have hmap := sameMap_cases h point
  have hfront : sameMap trail point <+: trail := by
    rcases hmap with ⟨hsame, -⟩ | ⟨hsame, -⟩ <;> rw [hsame]
    exact List.nil_prefix
  unfold observeTrail
  by_cases hfinite : finite ops point = true
  · rw [if_neg (by simp [hfinite])]
    cases hfind : (sameMap trail point).findIdx? fun p => ops.le (distance ops p point) (ops.lit 2) with
    | some i => exact .inl ((List.take_prefix _ _).trans hfront)
    | none =>
      dsimp only
      split_ifs
      · exact .inl hfront
      · obtain ⟨hsub, hroom⟩ := makeRoom_spec (hfront.length_le.trans h.bounded)
        refine .inr ⟨_, ⟨hsub.trans hfront.sublist, hroom, hfinite, fun q hq => ?_, fun q hq hsame => ?_⟩, rfl⟩
        · rcases hmap with ⟨hnil, -⟩ | ⟨-, hall⟩
          · have hmem := hsub.subset hq
            rw [hnil] at hmem
            contradiction
          · exact hall q (hfront.subset (hsub.subset hq))
        · rcases hmap with ⟨-, hall⟩ | ⟨hkept, -⟩
          · exact absurd hsame (hall q hq)
          · rw [hkept] at hfind
            exact List.findIdx?_eq_none_iff.mp hfind q hq
  · exact .inl (by rw [if_pos (by simp [hfinite])])

theorem arrive_prefix {target : Option (ActionPosition F)} {destination here : ActionPosition F} :
    (arriveOnTrail ops target destination here trail).2 <+: trail := by
  cases target with
  | none => exact List.prefix_refl _
  | some target =>
    unfold arriveOnTrail
    dsimp only
    split_ifs
    · exact List.prefix_refl _
    · exact List.takeWhile_prefix _

variable {s s' : Homing F} {tr : List (Event (Homing F) (TrailOp F) Unit)}

/-- A step cuts the trail short, or it appends the point that is observed. -/
theorem step_cases (h : LoopFree ops s.trail) (op : TrailOp F) : (s.step ops op).trail <+: s.trail ∨
    ∃ point returning kept, op = .observe point returning ∧ Appends ops s.trail kept point ∧
      (s.step ops op).trail = kept ++ [point] := by
  cases op with
  | aim target destination => exact .inl (List.prefix_refl _)
  | observe point returning =>
    rcases observe_cases h point returning with hfront | ⟨kept, hkept, heq⟩
    · exact .inl hfront
    · exact .inr ⟨point, returning, kept, rfl, hkept, heq⟩
  | arrive here => exact .inl arrive_prefix

theorem LoopFree.append {kept : List (ActionPosition F)} (h : LoopFree ops trail)
    (hkept : Appends ops trail kept point) : LoopFree ops (kept ++ [point]) where
  bounded := by
    rw [List.length_append, List.length_singleton]
    exact hkept.room
  finite p hp := by
    rcases List.mem_append.mp hp with hp | hp
    · exact h.finite p (hkept.sublist.subset hp)
    · exact List.mem_singleton.mp hp ▸ hkept.finite
  oneMap p hp q hq := by
    have hmap : ∀ r ∈ kept ++ [point], r.mapId = point.mapId := by
      simpa [or_imp, forall_and] using hkept.oneMap
    exact (hmap p hp).trans (hmap q hq).symm
  apart := by
    refine List.pairwise_append.mpr ⟨h.apart.sublist hkept.sublist, List.pairwise_singleton _ _, fun q hq p hp => ?_⟩
    rw [List.mem_singleton.mp hp]
    exact hkept.apart q (hkept.sublist.subset hq) (hkept.oneMap q hq)

theorem LoopFree.step (h : LoopFree ops s.trail) (op : TrailOp F) : LoopFree ops (s.step ops op).trail := by
  rcases step_cases h op with hfront | ⟨point, returning, kept, -, hkept, heq⟩
  · exact h.sublist hfront.sublist
  · rw [heq]
    exact h.append hkept

/-! ### What was observed -/

/-- The observation at a finitePlace of a run appended a point, which has been on the trail ever since. -/
def LastAppended (tr : List (Event (Homing F) (TrailOp F) Unit)) (k : ℕ) (point : ActionPosition F) : Prop :=
  ∃ e returning, tr[k]? = some e ∧ e.input = .observe point returning ∧ point ∉ e.pre.trail ∧
    ∀ e' ∈ tr.drop k, point ∈ e'.post.trail

theorem LastAppended.lt {k : ℕ} (h : LastAppended tr k point) : k < tr.length := by
  obtain ⟨e, -, hget, -⟩ := h
  exact (List.getElem?_eq_some_iff.mp hget).1

theorem LastAppended.concat {k : ℕ} {e : Event (Homing F) (TrailOp F) Unit} (h : LastAppended tr k point)
    (he : point ∈ e.post.trail) : LastAppended (tr ++ [e]) k point := by
  have hlt := h.lt
  obtain ⟨first, returning, hget, hinput, hnew, hlater⟩ := h
  refine ⟨first, returning, by rwa [List.getElem?_append_left hlt], hinput, hnew, fun e' he' => ?_⟩
  rw [List.drop_append_of_le_length hlt.le] at he'
  rcases List.mem_append.mp he' with he' | he'
  · exact hlater e' he'
  · rwa [List.mem_singleton.mp he']

/-- The points of the trail in the order of the observations that appended them. -/
def InOrder (tr : List (Event (Homing F) (TrailOp F) Unit)) (trail : List (ActionPosition F)) : Prop :=
  ∃ marks : List (ℕ × ActionPosition F), marks.map Prod.snd = trail ∧ (marks.map Prod.fst).Pairwise (· < ·) ∧
    ∀ mark ∈ marks, LastAppended tr mark.1 mark.2

theorem InOrder.sublist {trail' : List (ActionPosition F)} (h : InOrder tr trail) (hsub : trail'.Sublist trail) :
    InOrder tr trail' := by
  obtain ⟨marks, rfl, hmarks, hlast⟩ := h
  obtain ⟨marks', hsub', rfl⟩ := List.sublist_map_iff.mp hsub
  exact ⟨marks', rfl, hmarks.sublist (hsub'.map _), fun mark hmark => hlast mark (hsub'.subset hmark)⟩

section Later
variable {e : Event (Homing F) (TrailOp F) Unit}

theorem InOrder.concat (h : InOrder tr trail) (he : ∀ p ∈ trail, p ∈ e.post.trail) : InOrder (tr ++ [e]) trail := by
  obtain ⟨marks, rfl, hmarks, hlast⟩ := h
  exact ⟨marks, rfl, hmarks, fun mark hmark => (hlast mark hmark).concat (he _ (List.mem_map_of_mem hmark))⟩

theorem InOrder.append {kept : List (ActionPosition F)} (h : InOrder tr kept)
    (hinput : e.input = .observe point returning) (hnew : point ∉ e.pre.trail)
    (hpost : e.post.trail = kept ++ [point]) : InOrder (tr ++ [e]) (kept ++ [point]) := by
  obtain ⟨marks, rfl, hmarks, hlast⟩ := h
  have hmem {p : ActionPosition F} (hp : p ∈ marks.map Prod.snd ++ [point]) : p ∈ e.post.trail := by rwa [hpost]
  refine ⟨marks ++ [(tr.length, point)], by simp, ?_, fun mark hmark => ?_⟩
  · rw [List.map_append]
    refine List.pairwise_append.mpr ⟨hmarks, List.pairwise_singleton _ _, fun k hk k' hk' => ?_⟩
    obtain ⟨mark, hmark, rfl⟩ := List.mem_map.mp hk
    rw [List.mem_singleton.mp hk']
    exact (hlast mark hmark).lt
  · rcases List.mem_append.mp hmark with hmark | hmark
    · exact (hlast mark hmark).concat (hmem (List.mem_append_left _ (List.mem_map_of_mem hmark)))
    · rw [List.mem_singleton.mp hmark]
      refine ⟨e, returning, by simp, hinput, hnew, fun e' he' => ?_⟩
      rw [List.drop_left, List.mem_singleton] at he'
      exact he' ▸ hmem (List.mem_append_right _ (List.mem_singleton_self point))

end Later

section Exact
variable (hself : ∀ p, finite ops p = true → ops.le (distance ops p p) (ops.lit 2) = true)
include hself

theorem not_mem_of_appends {kept : List (ActionPosition F)} (h : Appends ops trail kept point) : point ∉ trail :=
  fun hmem =>
  Bool.false_ne_true ((h.apart point hmem rfl).symm.trans (hself point h.finite))

theorem inOrder_step (h : LoopFree ops s.trail) (hin : InOrder tr s.trail) (op : TrailOp F) :
    InOrder (tr ++ [⟨s, op, (), s.step ops op⟩]) (s.step ops op).trail := by
  rcases step_cases h op with hfront | ⟨point, returning, kept, rfl, hkept, heq⟩
  · exact (hin.sublist hfront.sublist).concat fun p hp => hp
  · rw [heq]
    exact (hin.sublist hkept.sublist).append rfl (not_mem_of_appends hself hkept) heq

theorem inOrder_run (hempty : s.trail = []) (hrun : (homing ops).Run s tr s') :
    LoopFree ops s'.trail ∧ InOrder tr s'.trail := by
  refine hrun.history (P := fun tr s => LoopFree ops s.trail ∧ InOrder tr s.trail)
    (fun tr m op o m' hm hstep => ?_) ?_
  · obtain ⟨rfl, rfl⟩ := Prod.mk.inj (Option.some.inj hstep)
    exact ⟨hm.1.step op, inOrder_step hself hm.1 hm.2 op⟩
  · rw [hempty]
    exact ⟨.nil, [], rfl, .nil, by simp⟩

end Exact

/-! ### The first point -/

theorem head_of_prefix {trail' : List (ActionPosition F)} (h : trail' <+: trail) (hmem : a ∈ trail')
    (hhead : trail.head? = some a) : trail'.head? = some a := by
  obtain ⟨rest, rfl⟩ := h
  rwa [List.head?_append_of_ne_nil _ (List.ne_nil_of_mem hmem)] at hhead

theorem head_observe (h : LoopFree ops trail) (hhead : trail.head? = some a)
    (hmap : finite ops point = true → point.mapId = a.mapId) :
    (observeTrail ops trail point returning).head? = some a := by
  unfold observeTrail
  by_cases hfinite : finite ops point = true
  · rw [if_neg (by simp [hfinite])]
    obtain ⟨rest, rfl⟩ := List.head?_eq_some_iff.mp hhead
    rcases sameMap_cases h point with ⟨-, hother⟩ | ⟨hsame, -⟩
    · exact absurd (hmap hfinite).symm (hother a List.mem_cons_self)
    · rw [hsame]
      cases (a :: rest).findIdx? fun p => ops.le (distance ops p point) (ops.lit 2) with
      | some i => rfl
      | none =>
        dsimp only
        unfold makeRoom
        split_ifs <;> rfl
  · rwa [if_pos (by simp [hfinite])]

/-- The map stays the same, and no arrival takes the first point away. -/
def Stays (ops : FloatOps F) (a : ActionPosition F) (e : Event (Homing F) (TrailOp F) Unit) : Prop :=
  (∀ point returning, e.input = .observe point returning → finite ops point = true → point.mapId = a.mapId) ∧
    ∀ here, e.input = .arrive here → a ∈ e.pre.trail → a ∈ e.post.trail

theorem first_kept (h : LoopFree ops s.trail) (hrun : (homing ops).Run s tr s') (hhead : s.trail.head? = some a)
    (hstays : ∀ e ∈ tr, Stays ops a e) : s'.trail.head? = some a := by
  have hboth : LoopFree ops s'.trail ∧ s'.trail.head? = some a := by
    refine hrun.invariant_of_forall (P := fun s => LoopFree ops s.trail ∧ s.trail.head? = some a)
      (fun m op o m' hm hC hstep => ?_) hstays ⟨h, hhead⟩
    obtain ⟨-, rfl⟩ := Prod.mk.inj (Option.some.inj hstep)
    refine ⟨hm.1.step op, ?_⟩
    cases op with
    | aim target destination => exact hm.2
    | observe point returning => exact head_observe hm.1 hm.2 (hC.1 point returning rfl)
    | arrive here => exact head_of_prefix arrive_prefix (hC.2 here rfl (List.mem_of_head? hm.2)) hm.2
  exact hboth.2

/-! ### Exact arithmetic -/

/-- Exact arithmetic with one value that is not finite. -/
noncomputable def exactOrNone : FloatOps (Option ℝ) where
  lit q := some (exactFloats.lit q)
  add := Option.map₂ exactFloats.add
  sub := Option.map₂ exactFloats.sub
  mul := Option.map₂ exactFloats.mul
  div x y := if y = some (exactFloats.lit 0) then none else Option.map₂ exactFloats.div x y
  abs := Option.map exactFloats.abs
  hypot := Option.map₂ exactFloats.hypot
  hypot3 x y z := Option.map₂ (fun f => f) (Option.map₂ exactFloats.hypot3 x y) z
  ceil x := (x.map exactFloats.ceil).getD 0
  roundQuotient x q := x.bind fun x => exactFloats.roundQuotient x q
  isFinite := Option.isSome
  lt x y := (Option.map₂ exactFloats.lt x y).getD false
  le x y := (Option.map₂ exactFloats.le x y).getD false
  eq x y := (Option.map₂ exactFloats.eq x y).getD false
  eq_self {x} h := by
    cases x with
    | none => exact absurd h Bool.false_ne_true
    | some x => exact exactFloats.eq_self rfl

/-- A point with finite coordinates. -/
def finitePlace (p : ActionPosition ℝ) : ActionPosition (Option ℝ) := ⟨p.mapId, some p.x, some p.y, some p.z⟩

theorem exists_finitePlace {p : ActionPosition (Option ℝ)} (h : finite exactOrNone p = true) : ∃ q, p = finitePlace q := by
  obtain ⟨mapId, x, y, z⟩ := p
  simp only [finite, exactOrNone, Bool.and_eq_true, Option.isSome_iff_exists] at h
  obtain ⟨⟨⟨x, rfl⟩, y, rfl⟩, z, rfl⟩ := h
  exact ⟨⟨mapId, x, y, z⟩, rfl⟩

theorem le_distance (p q : ActionPosition ℝ) :
    exactOrNone.le (distance exactOrNone (finitePlace p) (finitePlace q)) (exactOrNone.lit 2) = true ↔ dist (vec p) (vec q) ≤ 2 := by
  rw [dist_vec]
  change decide (√((p.x - q.x) ^ 2 + (p.y - q.y) ^ 2 + (p.z - q.z) ^ 2) ≤ ((2 : ℚ) : ℝ)) = true ↔ _
  rw [decide_eq_true_iff, Rat.cast_ofNat]

theorem near_self (p : ActionPosition (Option ℝ)) (h : finite exactOrNone p = true) :
    exactOrNone.le (distance exactOrNone p p) (exactOrNone.lit 2) = true := by
  obtain ⟨q, rfl⟩ := exists_finitePlace h
  rw [le_distance, dist_self]
  exact zero_le_two

theorem exists_finitePlaces {trail : List (ActionPosition (Option ℝ))} (h : ∀ p ∈ trail, finite exactOrNone p = true) :
    ∃ points : List (ActionPosition ℝ), trail = points.map finitePlace := by
  induction trail with
  | nil => exact ⟨[], rfl⟩
  | cons p trail ih =>
    obtain ⟨hp, htrail⟩ := List.forall_mem_cons.mp h
    obtain ⟨q, rfl⟩ := exists_finitePlace hp
    obtain ⟨points, rfl⟩ := ih htrail
    exact ⟨q :: points, rfl⟩

/-- The trail is bounded, on one map and without loops. It holds the observed points in the order of the observations
that appended them, and its first point stays. -/
theorem trail_loopFree {s s' : Homing (Option ℝ)} {tr : List (Event (Homing (Option ℝ)) (TrailOp (Option ℝ)) Unit)}
    (hempty : s.trail = []) (hrun : (homing exactOrNone).Run s tr s') :
    (∃ points : List (ActionPosition ℝ), s'.trail = points.map finitePlace ∧ points.length ≤ maxTrailPoints ∧
      (∀ p ∈ points, ∀ q ∈ points, p.mapId = q.mapId) ∧ points.Pairwise fun p q => 2 < dist (vec p) (vec q)) ∧
    InOrder tr s'.trail ∧
    ∀ (later : List (Event (Homing (Option ℝ)) (TrailOp (Option ℝ)) Unit)) (s'' : Homing (Option ℝ))
      (first : ActionPosition (Option ℝ)), (homing exactOrNone).Run s' later s'' → s'.trail.head? = some first →
      (∀ e ∈ later, Stays exactOrNone first e) → s''.trail.head? = some first := by
  obtain ⟨hloop, horder⟩ := inOrder_run near_self hempty hrun
  refine ⟨?_, horder, fun later s'' first hlater hhead hstays => first_kept hloop hlater hhead hstays⟩
  obtain ⟨points, hpoints⟩ := exists_finitePlaces hloop.finite
  refine ⟨points, hpoints, ?_, fun p hp q hq => ?_, ?_⟩
  · have hbounded := hloop.bounded
    rwa [hpoints, List.length_map] at hbounded
  · refine hloop.oneMap (finitePlace p) ?_ (finitePlace q) ?_ <;> rw [hpoints]
    · exact List.mem_map_of_mem hp
    · exact List.mem_map_of_mem hq
  · have hapart := hloop.apart
    rw [hpoints, List.pairwise_map] at hapart
    refine hapart.imp fun {p q} hfar => ?_
    by_contra! hnear
    exact Bool.false_ne_true (hfar.symm.trans ((le_distance p q).mpr hnear))

noncomputable def along (x : ℚ) : ActionPosition (Option ℝ) :=
  finitePlace ⟨0, exactFloats.lit x, exactFloats.lit 0, exactFloats.lit 0⟩

/-- A walk out of the house and back into it. -/
theorem trail_loopFree_along : ∃ tr s', (homing exactOrNone).Run ⟨none, along 0, []⟩ tr s' ∧
    tr.map Event.input = [.observe (along 0) false, .observe (along 5) false, .arrive (along 0)] ∧
      InOrder tr s'.trail := by
  obtain ⟨tr, s', hrun, hinputs, -⟩ := (homing exactOrNone).exists_run (P := fun _ => True)
    (fun s op _ => ⟨(), s.step exactOrNone op, rfl, trivial⟩)
    [.observe (along 0) false, .observe (along 5) false, .arrive (along 0)] (s := ⟨none, along 0, []⟩) trivial
  exact ⟨tr, s', hrun, hinputs, (trail_loopFree rfl hrun).2.1⟩

end AIWorld.Agent.LivingReturnPolicy
