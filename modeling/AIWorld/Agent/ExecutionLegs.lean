import AIWorld.Agent.ExactGeometry
import AIWorld.Agent.LivingReturnPolicy

/-! What is walked is the route that was proved. The legs of a route end at points of the route and none of them is
long, but for single segments, and a step along a path goes as far along the path as its budget allows. All in exact
arithmetic. -/

namespace AIWorld.Agent

open LivingSurfaceCorridor (legs legsLoop stride)
open LivingReturnPolicy (between pathStep pathStepLoop)

/-- The length of a route from a point on. -/
noncomputable def lengthFrom : ActionPosition ℝ → List (ActionPosition ℝ) → ℝ
  | _, [] => 0
  | a, b :: route => dist (vec a) (vec b) + lengthFrom b route

theorem lengthFrom_nonneg (a : ActionPosition ℝ) (route : List (ActionPosition ℝ)) : 0 ≤ lengthFrom a route := by
  induction route generalizing a with
  | nil => exact le_rfl
  | cons b route ih => exact add_nonneg dist_nonneg (ih b)

theorem lengthFrom_concat (a : ActionPosition ℝ) (route : List (ActionPosition ℝ)) (b : ActionPosition ℝ) :
    lengthFrom a (route ++ [b]) = lengthFrom a route + dist (vec (route.getLastD a)) (vec b) := by
  induction route generalizing a with
  | nil => simp [lengthFrom]
  | cons c route ih =>
    rw [List.cons_append, lengthFrom, ih, lengthFrom, add_assoc, List.getLastD_cons]

theorem eq_start_of_lengthFrom {a : ActionPosition ℝ} {route : List (ActionPosition ℝ)} (h : lengthFrom a route = 0) :
    ∀ p ∈ route, vec p = vec a := by
  induction route generalizing a with
  | nil => simp
  | cons b route ih =>
    rw [lengthFrom] at h
    have hfirst : dist (vec a) (vec b) = 0 := by
      linarith [dist_nonneg (x := vec a) (y := vec b), lengthFrom_nonneg b route]
    have hrest : lengthFrom b route = 0 := by rwa [hfirst, zero_add] at h
    have hab := dist_eq_zero.mp hfirst
    exact List.forall_mem_cons.mpr ⟨hab.symm, fun p hp => (ih hrest p hp).trans hab.symm⟩

theorem stride_eq (a b : ActionPosition ℝ) : stride exactFloats a b = dist (vec a) (vec b) := by
  rw [dist_comm, dist_vec]
  rfl

/-! ### Legs -/

/-- A leg from a point through others: it is short, or it is one segment after some of no length. -/
def IsLeg (start : ActionPosition ℝ) (part : List (ActionPosition ℝ)) : Prop :=
  lengthFrom start part ≤ exactFloats.lit (11 / 2) ∨
    ∃ still stop, part = still ++ [stop] ∧ ∀ p ∈ still, vec p = vec start

/-- The points of a route taken together in legs, of which the last points are kept. -/
inductive InLegs : ActionPosition ℝ → List (ActionPosition ℝ) → List (ActionPosition ℝ) → Prop
  | nil (start : ActionPosition ℝ) : InLegs start [] []
  | cons {start stop : ActionPosition ℝ} {part route stops : List (ActionPosition ℝ)}
      (hleg : IsLeg start (part ++ [stop])) (hrest : InLegs stop route stops) :
      InLegs start (part ++ stop :: route) (stop :: stops)

theorem InLegs.sublist {start : ActionPosition ℝ} {route stops : List (ActionPosition ℝ)}
    (h : InLegs start route stops) : stops.Sublist route := by
  induction h with
  | nil => exact .refl _
  | cons _ _ ih => exact (ih.cons_cons _).trans (List.sublist_append_right _ _)

theorem InLegs.getLast {start : ActionPosition ℝ} {route stops : List (ActionPosition ℝ)}
    (h : InLegs start route stops) : stops.getLast? = route.getLast? := by
  induction h with
  | nil => rfl
  | cons _ _ ih =>
    rw [List.getLast?_append_of_ne_nil _ (List.cons_ne_nil _ _), List.getLast?_cons, List.getLast?_cons, ih]

section Loop
variable {start previous point : ActionPosition ℝ} {pending route : List (ActionPosition ℝ)}

/-- What the loop has not yet put into a leg is short, and it ends where the loop is. -/
structure RunningLeg (start previous : ActionPosition ℝ) (pending : List (ActionPosition ℝ)) : Prop where
  last : pending.getLastD start = previous
  short : lengthFrom start pending < 5

theorem RunningLeg.none (p : ActionPosition ℝ) : RunningLeg p p [] := ⟨rfl, by simp [lengthFrom]⟩

theorem RunningLeg.grow (h : RunningLeg start previous pending) :
    lengthFrom start (pending ++ [point]) = lengthFrom start pending + stride exactFloats previous point := by
  rw [lengthFrom_concat, h.last, stride_eq]

/-- One more segment is a leg with the pending ones, as long as it does not make them long. -/
theorem isLeg_concat
    (hfits : 0 < lengthFrom start pending → lengthFrom start (pending ++ [point]) ≤ 11 / 2) :
    IsLeg start (pending ++ [point]) := by
  rcases (lengthFrom_nonneg start pending).eq_or_lt with hzero | hpos
  · exact .inr ⟨pending, point, rfl, eq_start_of_lengthFrom hzero.symm⟩
  · refine .inl ((hfits hpos).trans_eq ?_)
    rw [exact_lit]
    norm_num

theorem inLegs_grow (hfits : 0 < lengthFrom start pending → lengthFrom start (pending ++ [point]) ≤ 11 / 2)
    (ih : ∀ (start : ActionPosition ℝ) (pending : List (ActionPosition ℝ)), RunningLeg start point pending →
      (route = [] → pending = []) →
        InLegs start (pending ++ route) (legsLoop exactFloats point route (lengthFrom start pending))) :
    let length := lengthFrom start (pending ++ [point])
    let done := exactFloats.le (exactFloats.lit 5) length || route.isEmpty
    InLegs start (pending ++ point :: route) ((if done then [point] else []) ++
      legsLoop exactFloats point route (if done then exactFloats.lit 0 else length)) := by
  intro length done
  by_cases hdone : done = true
  · rw [if_pos hdone, if_pos hdone, exact_lit, Rat.cast_zero]
    exact .cons (isLeg_concat hfits) (ih point [] (.none point) fun _ => rfl)
  · rw [if_neg hdone, if_neg hdone]
    simp only [done, exact_le, exact_lit, Rat.cast_ofNat, Bool.or_eq_true, decide_eq_true_eq, not_or, not_le,
      List.isEmpty_iff] at hdone
    have hrest := ih start (pending ++ [point]) ⟨by simp, hdone.1⟩ fun hnil => absurd hnil hdone.2
    rwa [List.append_assoc, List.singleton_append] at hrest

/-- Where a leg would grow long, the loop ends it and goes on from there. -/
theorem inLegs_loop (h : RunningLeg start previous pending) (hdone : route = [] → pending = []) :
    InLegs start (pending ++ route) (legsLoop exactFloats previous route (lengthFrom start pending)) := by
  induction route generalizing start previous pending with
  | nil =>
    rw [hdone rfl]
    exact .nil start
  | cons point route ih =>
    have hrest (start : ActionPosition ℝ) (pending : List (ActionPosition ℝ)) (h : RunningLeg start point pending)
        (hdone : route = [] → pending = []) := ih h hdone
    rw [legsLoop]
    by_cases hcut : (exactFloats.lt (exactFloats.lit 0) (lengthFrom start pending) &&
        exactFloats.lt (exactFloats.lit (11 / 2))
          (exactFloats.add (lengthFrom start pending) (stride exactFloats previous point))) = true
    · rw [if_pos hcut, if_pos hcut]
      simp only [Bool.and_eq_true, exact_lt, exact_lit, Rat.cast_zero, decide_eq_true_eq] at hcut
      obtain ⟨front, last, rfl⟩ : ∃ front last, pending = front ++ [last] := by
        refine (List.eq_nil_or_concat' pending).resolve_left fun hnil => ?_
        simp [hnil, lengthFrom] at hcut
      obtain rfl : last = previous := by simpa using h.last
      have hgrow := inLegs_grow (fun hpos => absurd hpos (lt_irrefl (lengthFrom last []))) hrest
      have hlength : exactFloats.add (exactFloats.lit 0) (stride exactFloats last point) =
          lengthFrom last ([] ++ [point]) := by
        rw [(RunningLeg.none last).grow]
        simp [lengthFrom]
      rw [hlength, List.append_assoc, List.append_assoc]
      refine .cons (.inl ?_) hgrow
      rw [exact_lit]
      have hshort := h.short
      push_cast
      linarith
    · rw [if_neg hcut, if_neg hcut, List.nil_append]
      have hlength : exactFloats.add (lengthFrom start pending) (stride exactFloats previous point) =
          lengthFrom start (pending ++ [point]) := h.grow.symm
      rw [hlength] at hcut ⊢
      refine inLegs_grow (fun hpos => ?_) hrest
      simp only [Bool.and_eq_true, exact_lt, exact_lit, Rat.cast_zero, decide_eq_true_eq, not_and, not_lt] at hcut
      refine (hcut hpos).trans_eq ?_
      norm_num

end Loop

theorem inLegs_legs (first second : ActionPosition ℝ) (route : List (ActionPosition ℝ)) :
    InLegs first (second :: route) (legs exactFloats (first :: second :: route)) := by
  have h := inLegs_loop (.none first) (fun _ : second :: route = [] => rfl)
  have hzero : lengthFrom first [] = exactFloats.lit 0 := by simp [lengthFrom]
  rwa [List.nil_append, hzero] at h

/-! ### Steps along a path -/

/-- The point of a path at some distance from its start, measured along the path. -/
inductive LiesAt : List (ActionPosition ℝ) → ℝ → ActionPosition ℝ → Prop
  | start (a : ActionPosition ℝ) (path : List (ActionPosition ℝ)) : LiesAt (a :: path) 0 a
  | segment {a b : ActionPosition ℝ} {t : ℝ} (path : List (ActionPosition ℝ)) (hle : 0 ≤ t) (hge : t ≤ 1) :
      LiesAt (a :: b :: path) (t * dist (vec a) (vec b)) (between exactFloats a b t)
  | later {a b point : ActionPosition ℝ} {path : List (ActionPosition ℝ)} {s : ℝ} (h : LiesAt (b :: path) s point) :
      LiesAt (a :: b :: path) (dist (vec a) (vec b) + s) point

theorem liesAt_loop {cursor point : ActionPosition ℝ} {path : List (ActionPosition ℝ)} {budget : ℝ} {advanced : Bool}
    (hpos : 0 ≤ budget) (h : pathStepLoop exactFloats cursor path budget advanced = some point) :
    LiesAt (cursor :: path) (min budget (lengthFrom cursor path)) point := by
  induction path generalizing cursor budget advanced with
  | nil =>
    rw [pathStepLoop] at h
    split_ifs at h
    rw [← Option.some.inj h, lengthFrom, min_eq_right hpos]
    exact .start cursor []
  | cons next path ih =>
    have hlength : exactFloats.hypot3 (exactFloats.sub next.x cursor.x) (exactFloats.sub next.y cursor.y)
        (exactFloats.sub next.z cursor.z) = dist (vec cursor) (vec next) := by
      rw [dist_comm, dist_vec]
      rfl
    rw [pathStepLoop] at h
    split_ifs at h
    rw [hlength] at h
    simp only [exact_isFinite, Bool.not_true, Bool.false_eq_true, if_false, exact_lt, exact_lit, Rat.cast_zero,
      decide_eq_true_eq, exact_le, exact_div, exact_sub] at h
    rw [lengthFrom]
    split_ifs at h with hne hfits
    · have hspent : budget / dist (vec cursor) (vec next) * dist (vec cursor) (vec next) = budget :=
        div_mul_cancel₀ _ hne.ne'
      have hpart := LiesAt.segment (a := cursor) (b := next) path (div_nonneg hpos hne.le) ((div_le_one hne).mpr hfits)
      rw [hspent] at hpart
      rw [← Option.some.inj h, min_eq_left (hfits.trans (le_add_of_nonneg_right (lengthFrom_nonneg _ _)))]
      exact hpart
    · have hlater := (ih (sub_nonneg.mpr (not_le.mp hfits).le) h).later (a := cursor)
      rwa [← min_add_add_left, add_sub_cancel] at hlater
    · have hzero : dist (vec cursor) (vec next) = 0 := le_antisymm (not_lt.mp hne) dist_nonneg
      have hlater := (ih hpos h).later (a := cursor)
      rw [hzero, zero_add] at hlater ⊢
      exact hlater

/-- The legs of a route go through it from end to end, and a step along a path spends its budget on the path. -/
theorem legs_follow_route (first second : ActionPosition ℝ) (route path : List (ActionPosition ℝ)) (budget : ℝ) :
    let stops := legs exactFloats (first :: second :: route)
    (stops.Sublist (second :: route) ∧ stops.getLast? = (second :: route).getLast? ∧
      InLegs first (second :: route) stops) ∧
    ∀ start point, pathStep exactFloats (start :: path) budget = some point →
      LiesAt (start :: path) (min budget (lengthFrom start path)) point := by
  have hlegs := inLegs_legs first second route
  refine ⟨⟨hlegs.sublist, hlegs.getLast, hlegs⟩, fun start point h => ?_⟩
  cases path with
  | nil => exact absurd h (by simp [pathStep])
  | cons next path =>
    rw [pathStep] at h
    split_ifs at h with hbudget
    have hpos : ¬budget ≤ exactFloats.lit 0 := by
      simp only [Bool.or_eq_true, not_or, exact_le, decide_eq_true_eq] at hbudget
      exact hbudget.1.2
    rw [exact_lit, Rat.cast_zero, not_le] at hpos
    exact liesAt_loop hpos.le h

end AIWorld.Agent
