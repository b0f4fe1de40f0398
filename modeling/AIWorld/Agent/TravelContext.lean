import AIWorld.Agent.LivingFineRoute
import AIWorld.Lib.Machine

/-! A trip over a planned route. Each leg is issued for the next planned corner, or for a whole stretch of them,
and only an arrival that the trip owns consumes what was issued. A stretch is recognised by walking the plan
again, which finds it exactly where the corners left out of the stretch repeat the corner before. -/

namespace AIWorld.Agent

open Action (samePoint RecoveryMovement SurfacePolyline)
open Quest (ObjectGuid)
open Lib Lib.Binary32 Lib.Thinning LivingFineRoute

/-- A trip, without what an arrival neither reads nor writes. -/
structure TravelContext where
  active : Bool := false
  separateFailureProofs : Bool := false
  guid : ObjectGuid := {}
  goal : Point
  home : Point
  origin : Point
  danger : Option Point := none
  clearance : Float32 := 0
  phaseMask : UInt32 := 0
  planned : List Point := []
  surfaceCorridor : Bool := false
  searching : Bool := false
  pending : Option (RecoveryMovement Float32) := none
  pendingFrom : Point

namespace TravelContext

section Arrivals
variable (hypot : Float32 → Float32 → Float32 → Float32)

/-- The proof belongs to this trip, and its line leads from the origin to what was queried. -/
def owns (ctx : TravelContext) (request : RecoveryMovement Float32) (proof : SurfacePolyline Float32)
    (front : Point) : Bool :=
  proof.owner = ctx.guid && proof.phaseMask = ctx.phaseMask && samePoint proof.goal ctx.goal &&
    samePoint request.home ctx.home && bounded hypot proof.points maxControls &&
    (proof.splinePoints = [] || retainsCorners hypot proof.points proof.splinePoints) &&
    request.dangerRadius == ctx.clearance && request.danger.isSome = ctx.danger.isSome &&
    ctx.danger.all (fun d => request.danger.any (samePoint · d)) && front.mapId = ctx.origin.mapId &&
    !(0.01 < distance hypot front ctx.origin : Bool) &&
    samePoint (proof.points.getLastD front) (request.queryDestination.getD request.destination)

def polylinePrefix (ctx : TravelContext) (request : RecoveryMovement Float32) : Option ℕ :=
  match request.polyline with
  | none => none
  | some proof =>
    if !ctx.active || !ctx.separateFailureProofs || !request.surfaceCorridor || request.rejoin then none
    else match proof.points with
      | [] => none
      | front :: rest =>
        if owns hypot ctx request proof front then recognise samePoint front rest ctx.planned else none

/-- An owned arrival that consumes so many corners. -/
def arrive (ctx : TravelContext) (here : Point) (consumed : ℕ) : TravelContext :=
  { ctx with
    planned := ctx.planned.drop consumed
    pending := none
    origin := here
    searching := false
    surfaceCorridor := ctx.surfaceCorridor && ctx.planned.drop consumed ≠ [] }

/-- How close an arrival has to be. -/
def tolerance (ctx : TravelContext) (pending : RecoveryMovement Float32) : Float32 :=
  if pending.polyline.isSome then sourceTolerance else if ctx.surfaceCorridor then 0.5 else 2

def observeSource (ctx : TravelContext) (here : Point) (ownedArrival : Bool) : Bool × TravelContext :=
  if !ctx.active || here.mapId ≠ ctx.origin.mapId then (false, ctx)
  else
    let stays : Bool := distance hypot ctx.origin here ≤ 0.01
    match if ownedArrival then ctx.pending else none with
    | none => (stays, ctx)
    | some pending =>
      let moved := distance hypot ctx.pendingFrom here
      let missed := distance hypot pending.destination here
      if pending.polyline.isSome ∧ (moved ≤ 0.25 ∨ sourceTolerance < missed) then (false, ctx)
      else if 0.25 < moved ∧ missed ≤ ctx.tolerance pending then
        match pending.polyline with
        | some proof =>
          match ctx.polylinePrefix hypot pending with
          | none => (false, ctx)
          | some consumed =>
            if proof.points.head?.any (samePoint · ctx.pendingFrom) then (true, ctx.arrive here consumed)
            else (false, ctx)
        | none =>
          let query := pending.queryDestination.getD pending.destination
          (true, ctx.arrive here (if ctx.planned.head?.any (samePoint · query) then 1 else 0))
      else (stays, ctx)

end Arrivals

def polylineProof (ctx : TravelContext) (points splinePoints : List Point) : SurfacePolyline Float32 :=
  { owner := ctx.guid, phaseMask := ctx.phaseMask, goal := ctx.goal, points, splinePoints }

/-- The request that a stretch of the route is issued with. -/
def polylineRequest (ctx : TravelContext) (points splinePoints : List Point) (destination : Point)
    (homeRadius : Float32) : RecoveryMovement Float32 :=
  { destination
    home := ctx.home
    homeRadius
    danger := ctx.danger
    surfaceCorridor := ctx.surfaceCorridor
    queryDestination := points.getLast?
    dangerRadius := ctx.clearance
    polyline := some (ctx.polylineProof points splinePoints) }

def issue (ctx : TravelContext) (request : RecoveryMovement Float32) (source : Point) : TravelContext :=
  { ctx with pending := some request, pendingFrom := source }

/-! ### Recognised stretches -/

variable {hypot : Float32 → Float32 → Float32 → Float32} {ctx ctx' : TravelContext}
  {source here destination : Point} {splinePoints : List Point} {homeRadius : Float32}

/-- How many corners a stretch has besides its source. -/
def corners (hypot : Float32 → Float32 → Float32 → Float32) (ctx : TravelContext) (source : Point) : ℕ :=
  (batch hypot source ctx.planned).length - 1

/-- How many planned corners there are up to the last one of the stretch. -/
def covered (hypot : Float32 → Float32 → Float32 → Float32) (ctx : TravelContext) (source : Point) : ℕ :=
  passed (near hypot) source (ctx.corners hypot source) ctx.planned

/-- When a stretch is recognised: the trip's coordinates are numbers, it starts where the trip stands, and
what was left out of it repeats the corner before. -/
structure Recognisable (hypot : Float32 → Float32 → Float32 → Float32) (ctx : TravelContext) (source : Point) :
    Prop where
  separate : ctx.separateFailureProofs = true
  goal : samePoint ctx.goal ctx.goal = true
  home : samePoint ctx.home ctx.home = true
  danger : ∀ d ∈ ctx.danger, samePoint d d = true
  clearance : (ctx.clearance == ctx.clearance) = true
  map : source.mapId = ctx.origin.mapId
  atOrigin : ¬ 0.01 < distance hypot source ctx.origin
  repeats : Repeats (near hypot) samePoint source (ctx.corners hypot source) ctx.planned

/-- A stretch of the trip, with a spline that keeps its corners. -/
structure Issued (hypot : Float32 → Float32 → Float32 → Float32) (ctx : TravelContext) (source : Point)
    (splinePoints : List Point) : Prop where
  active : ctx.active = true
  surface : ctx.surfaceCorridor = true
  stretch : batch hypot source ctx.planned ≠ []
  spline : splinePoints = [] ∨ retainsCorners hypot (batch hypot source ctx.planned) splinePoints = true

theorem owns_iff (ctx : TravelContext) (destination : Point) (homeRadius : Float32) {front : Point}
    {rest : List Point} (hpoints : bounded hypot (front :: rest) maxControls = true)
    (hspline : splinePoints = [] ∨ retainsCorners hypot (front :: rest) splinePoints = true)
    (hlast : samePoint ((front :: rest).getLastD front) ((front :: rest).getLastD front) = true) :
    ctx.owns hypot (ctx.polylineRequest (front :: rest) splinePoints destination homeRadius)
      (ctx.polylineProof (front :: rest) splinePoints) front = true ↔
      samePoint ctx.goal ctx.goal = true ∧ samePoint ctx.home ctx.home = true ∧
        (ctx.clearance == ctx.clearance) = true ∧ (∀ d ∈ ctx.danger, samePoint d d = true) ∧
        front.mapId = ctx.origin.mapId ∧ ¬ 0.01 < distance hypot front ctx.origin := by
  have hquery : (front :: rest).getLast?.getD destination = (front :: rest).getLastD front := by
    rw [List.getLastD_eq_getLast?]
    cases h : (front :: rest).getLast? with
    | none => simp at h
    | some last => rfl
  have hdanger : (ctx.danger.all fun d => ctx.danger.any (samePoint · d)) = true ↔
      ∀ d ∈ ctx.danger, samePoint d d = true := by
    cases ctx.danger <;> simp
  unfold owns polylineRequest polylineProof
  dsimp only
  rw [hquery]
  simp only [Bool.and_eq_true, Bool.or_eq_true, decide_eq_true_eq, Bool.not_eq_true', decide_eq_false_iff_not,
    hpoints, hspline, hlast, hdanger]
  tauto

theorem polylinePrefix_request (front : Point) (rest : List Point) :
    ctx.polylinePrefix hypot (ctx.polylineRequest (front :: rest) splinePoints destination homeRadius) =
      if (!ctx.active || !ctx.separateFailureProofs || !ctx.surfaceCorridor || false) = true then none
      else if ctx.owns hypot (ctx.polylineRequest (front :: rest) splinePoints destination homeRadius)
        (ctx.polylineProof (front :: rest) splinePoints) front = true then
        recognise samePoint front rest ctx.planned
      else none := rfl

theorem corners_eq {n : ℕ} (hn : n ≤ (thin (near hypot) source ctx.planned).length)
    (hbatch : batch hypot source ctx.planned = source :: (thin (near hypot) source ctx.planned).take n) :
    ctx.corners hypot source = n := by
  rw [corners, hbatch, List.length_cons, List.length_take, Nat.min_eq_left hn, Nat.add_sub_cancel]

/-- A stretch is recognised exactly when it is recognisable, and then all of it is. -/
theorem prefix_iff (hh : Hypot hypot) (h : Issued hypot ctx source splinePoints) (m : ℕ) :
    ctx.polylinePrefix hypot
        (ctx.polylineRequest (batch hypot source ctx.planned) splinePoints destination homeRadius) = some m ↔
      Recognisable hypot ctx source ∧ m = ctx.covered hypot source := by
  obtain ⟨n, -, hn, hbatch, hfinite, hkept, hbounded⟩ := batch_spec h.stretch
  have hspline := h.spline
  have hcorners := corners_eq hn hbatch
  have hall : ∀ p ∈ source :: (thin (near hypot) source ctx.planned).take n, finite p = true := fun p hp => by
    rcases List.mem_cons.mp hp with rfl | hp
    · exact hfinite
    · exact finite_of_boundedFrom hkept hp
  have hrefl : ∀ p ∈ (thin (near hypot) source ctx.planned).take n, samePoint p p = true :=
    fun p hp => samePoint_self (hall p (List.mem_cons_of_mem _ hp))
  have hself : ∀ b ∈ source :: (thin (near hypot) source ctx.planned).take n, ∀ x, samePoint x b = true →
      near hypot b x = true := fun b hb x hx => near_of_samePoint hh (hall b hb) hx
  have hcongr : ∀ x p, samePoint x p = true → ∀ a, near hypot a x = near hypot a p :=
    fun x p hxp a => near_congr hh hxp a
  have hrecognise := recognise_thin hcongr hn hrefl hself m
  rw [hbatch] at hbounded hspline ⊢
  rw [polylinePrefix_request, h.active, h.surface]
  generalize (thin (near hypot) source ctx.planned).take n = kept at *
  have hlast : (source :: kept).getLastD source ∈ source :: kept := by
    rw [List.getLastD_cons]
    exact List.getLastD_mem_cons
  have howns := owns_iff ctx destination homeRadius hbounded hspline (samePoint_self (hall _ hlast))
  by_cases hseparate : ctx.separateFailureProofs = true
  · rw [if_neg (by rw [hseparate]; decide)]
    by_cases hmine : ctx.owns hypot (ctx.polylineRequest (source :: kept) splinePoints destination homeRadius)
        (ctx.polylineProof (source :: kept) splinePoints) source = true
    · rw [if_pos hmine, hrecognise, covered, hcorners]
      obtain ⟨hgoal, hhome, hclearance, hdanger, hmap, horigin⟩ := howns.mp hmine
      refine and_congr_left fun _ => ⟨fun hrepeats => ?_, fun hrec => ?_⟩
      · exact ⟨hseparate, hgoal, hhome, hdanger, hclearance, hmap, horigin, by rw [hcorners]; exact hrepeats⟩
      · have hrepeats := hrec.repeats
        rwa [hcorners] at hrepeats
    · rw [if_neg hmine]
      refine iff_of_false nofun fun hrec => hmine (howns.mpr ?_)
      exact ⟨hrec.1.goal, hrec.1.home, hrec.1.clearance, hrec.1.danger, hrec.1.map, hrec.1.atOrigin⟩
  · rw [if_pos (by rw [Bool.eq_false_iff.mpr hseparate]; rfl)]
    exact iff_of_false nofun fun hrec => hseparate hrec.1.separate

/-! ### Arrivals -/

/-- The actor has left its source and stands where the leg leads. -/
structure Arrived (hypot : Float32 → Float32 → Float32 → Float32) (ctx : TravelContext)
    (source destination here : Point) : Prop where
  map : here.mapId = ctx.origin.mapId
  moved : 0.25 < distance hypot source here
  reached : distance hypot destination here ≤ sourceTolerance

theorem covered_pos (h : Issued hypot ctx source splinePoints) :
    0 < ctx.covered hypot source ∧ ctx.planned ≠ [] := by
  obtain ⟨n, hn0, hn, hbatch, -⟩ := batch_spec h.stretch
  have hcorners := corners_eq hn hbatch
  have hplanned : ctx.planned ≠ [] := by
    intro hnil
    rw [hnil] at hn
    exact hn0 (Nat.le_zero.mp hn)
  exact ⟨passed_pos (by rw [hcorners]; exact hn0) hplanned, hplanned⟩

/-- The corners consumed are those the stretch stands for. -/
theorem thin_covered (h : Issued hypot ctx source splinePoints) :
    source :: thin (near hypot) source (ctx.planned.take (ctx.covered hypot source)) =
      batch hypot source ctx.planned := by
  obtain ⟨n, -, hn, hbatch, -⟩ := batch_spec h.stretch
  have hcorners := corners_eq hn hbatch
  rw [covered, thin_take_passed, hcorners, hbatch]

/-- An arrival at the end of a stretch consumes all of it, or nothing. -/
theorem arrival_cases (hh : Hypot hypot) (h : Issued hypot ctx source splinePoints)
    (harrived : Arrived hypot ctx source destination here) (homeRadius : Float32) :
    let issued := ctx.issue
      (ctx.polylineRequest (batch hypot source ctx.planned) splinePoints destination homeRadius) source
    (Recognisable hypot ctx source ∧
        observeSource hypot issued here true = (true, issued.arrive here (ctx.covered hypot source))) ∨
      (¬ Recognisable hypot ctx source ∧ observeSource hypot issued here true = (false, issued)) := by
  intro issued
  set request := ctx.polylineRequest (batch hypot source ctx.planned) splinePoints destination homeRadius
  obtain ⟨n, -, -, hbatch, hfinite, -⟩ := batch_spec h.stretch
  have hfront : (batch hypot source ctx.planned).head?.any (samePoint · source) = true := by
    rw [hbatch]
    exact samePoint_self hfinite
  have hobserve : observeSource hypot issued here true =
      match ctx.polylinePrefix hypot request with
      | none => (false, issued)
      | some consumed => (true, issued.arrive here consumed) := by
    change (if (!ctx.active || here.mapId ≠ ctx.origin.mapId) = true then (false, issued)
      else if true = true ∧ (distance hypot source here ≤ 0.25 ∨
          sourceTolerance < distance hypot destination here) then (false, issued)
      else if 0.25 < distance hypot source here ∧ distance hypot destination here ≤ sourceTolerance then
        match ctx.polylinePrefix hypot request with
        | none => (false, issued)
        | some consumed =>
          if (batch hypot source ctx.planned).head?.any (samePoint · source) then
            (true, issued.arrive here consumed) else (false, issued)
      else _) = _
    rw [if_neg (by rw [h.active, harrived.map]; simp), if_neg ?_, if_pos ⟨harrived.moved, harrived.reached⟩]
    · cases ctx.polylinePrefix hypot request with
      | none => rfl
      | some consumed => exact if_pos hfront
    · rintro ⟨-, hstill | hmissed⟩
      · exact not_le_of_lt harrived.moved hstill
      · exact not_le_of_lt hmissed harrived.reached
  rw [hobserve]
  cases hprefix : ctx.polylinePrefix hypot request with
  | none =>
    refine .inr ⟨fun hrec => ?_, rfl⟩
    rw [(prefix_iff hh h _).mpr ⟨hrec, rfl⟩] at hprefix
    contradiction
  | some consumed =>
    obtain ⟨hrec, rfl⟩ := (prefix_iff hh h consumed).mp hprefix
    exact .inl ⟨hrec, rfl⟩

/-! ### Trips -/

/-- A leg of a trip: where it is issued, where it leads, and where the actor arrives. -/
structure Leg where
  source : Point
  destination : Point
  here : Point
  homeRadius : Float32 := 0
  splinePoints : List Point := []

/-- Issue the next stretch and arrive. -/
def walk (hypot : Float32 → Float32 → Float32 → Float32) (ctx : TravelContext) (leg : Leg) : TravelContext :=
  let points := batch hypot leg.source ctx.planned
  let request := ctx.polylineRequest points leg.splinePoints leg.destination leg.homeRadius
  (observeSource hypot (ctx.issue request leg.source) leg.here true).2

/-- Trips of stretches only, with the corners that each leg consumes. -/
def trips (hypot : Float32 → Float32 → Float32 → Float32) : Machine TravelContext Leg (List Point) :=
  ⟨fun ctx leg =>
    let next := walk hypot ctx leg
    some (ctx.planned.take (ctx.planned.length - next.planned.length), next)⟩

/-- A leg that is issued as it should be and executed correctly. -/
structure Executed (hypot : Float32 → Float32 → Float32 → Float32) (ctx : TravelContext) (leg : Leg) : Prop where
  issued : Issued hypot ctx leg.source leg.splinePoints
  arrived : Arrived hypot ctx leg.source leg.destination leg.here

/-- A correctly executed leg consumes something exactly when its stretch is recognisable. -/
theorem consumes_iff (hh : Hypot hypot) {leg : Leg} (h : Executed hypot ctx leg) :
    (walk hypot ctx leg).planned ≠ ctx.planned ↔ Recognisable hypot ctx leg.source := by
  unfold walk
  rcases arrival_cases hh h.issued h.arrived leg.homeRadius with ⟨hrec, heq⟩ | ⟨hnot, heq⟩
  · obtain ⟨hpos, hplanned⟩ := covered_pos h.issued
    refine iff_of_true ?_ hrec
    dsimp only
    rw [heq]
    intro hsame
    have hlength := congrArg List.length hsame
    change (ctx.planned.drop _).length = _ at hlength
    rw [List.length_drop] at hlength
    have := List.length_pos_of_ne_nil hplanned
    omega
  · refine iff_of_false ?_ hnot
    dsimp only
    rw [heq]
    exact fun hne => hne rfl

/-- What a recognisable leg consumes. -/
theorem leg_consumes (hh : Hypot hypot) {leg : Leg} (h : Executed hypot ctx leg)
    (hrec : Recognisable hypot ctx leg.source) :
    ctx.planned.take (ctx.planned.length - (walk hypot ctx leg).planned.length) =
        ctx.planned.take (ctx.covered hypot leg.source) ∧
      (walk hypot ctx leg).planned = ctx.planned.drop (ctx.covered hypot leg.source) := by
  have hwalk : (walk hypot ctx leg).planned = ctx.planned.drop (ctx.covered hypot leg.source) := by
    unfold walk
    rcases arrival_cases hh h.issued h.arrived leg.homeRadius with ⟨-, heq⟩ | ⟨hnot, -⟩
    · dsimp only
      rw [heq]
      rfl
    · exact absurd hrec hnot
  refine ⟨?_, hwalk⟩
  rw [hwalk, List.length_drop]
  have hle : ctx.covered hypot leg.source ≤ ctx.planned.length := passed_le
  rw [Nat.sub_sub_self hle]

/-- Over a run of recognisable legs every planned corner is consumed once and in order, and each leg consumes
the corners of its stretch. -/
theorem run_consumes (hh : Hypot hypot) {tr : List (Event TravelContext Leg (List Point))}
    (hrun : (trips hypot).Run ctx tr ctx')
    (hlegs : ∀ e ∈ tr, Executed hypot e.pre e.input ∧ Recognisable hypot e.pre e.input.source) :
    ctx.planned = tr.flatMap Event.output ++ ctx'.planned ∧
      ∀ e ∈ tr, e.output ≠ [] ∧
        e.input.source :: thin (near hypot) e.input.source e.output = batch hypot e.input.source e.pre.planned := by
  induction hrun with
  | nil => exact ⟨(List.nil_append _).symm, fun e he => absurd he List.not_mem_nil⟩
  | @cons s m s' leg o tr hstep hrun ih =>
    obtain ⟨hexecuted, hrec⟩ : Executed hypot s leg ∧ Recognisable hypot s leg.source :=
      hlegs _ (List.mem_cons_self ..)
    simp only [trips, Option.some.injEq, Prod.mk.injEq] at hstep
    obtain ⟨rfl, rfl⟩ := hstep
    obtain ⟨htake, hwalk⟩ := leg_consumes hh hexecuted hrec
    obtain ⟨hrest, hall⟩ := ih fun e he => hlegs e (List.mem_cons_of_mem _ he)
    obtain ⟨hpos, hplanned⟩ := covered_pos hexecuted.issued
    constructor
    · rw [List.flatMap_cons, List.append_assoc, ← hrest, htake, hwalk, List.take_append_drop]
    · intro e he
      rcases List.mem_cons.mp he with rfl | he
      · dsimp only
        rw [htake]
        refine ⟨fun hnil => ?_, thin_covered hexecuted.issued⟩
        rcases List.take_eq_nil_iff.mp hnil with h0 | h0
        · exact absurd h0 (Nat.pos_iff_ne_zero.mp hpos)
        · exact hplanned h0
      · exact hall e he

/-- Stretches are recognised, and their owned arrivals consume them, exactly as far as they are recognisable;
over recognisable legs a trip consumes its plan corner by corner. -/
theorem polyline_arrivals (hh : Hypot hypot) :
    (∀ (ctx : TravelContext) (source destination : Point) (homeRadius : Float32) (splinePoints : List Point),
      Issued hypot ctx source splinePoints →
      (ctx.polylinePrefix hypot (ctx.polylineRequest (batch hypot source ctx.planned) splinePoints destination
        homeRadius) = some (ctx.covered hypot source) ↔ Recognisable hypot ctx source)) ∧
    (∀ (ctx : TravelContext) (leg : Leg), Executed hypot ctx leg →
      ((walk hypot ctx leg).planned ≠ ctx.planned ↔ Recognisable hypot ctx leg.source)) ∧
    ∀ (ctx ctx' : TravelContext) (tr : List (Event TravelContext Leg (List Point))),
      (trips hypot).Run ctx tr ctx' →
      (∀ e ∈ tr, Executed hypot e.pre e.input ∧ Recognisable hypot e.pre e.input.source) →
      ctx.planned = tr.flatMap Event.output ++ ctx'.planned ∧
        ∀ e ∈ tr, e.output ≠ [] ∧ e.input.source :: thin (near hypot) e.input.source e.output =
          batch hypot e.input.source e.pre.planned := by
  refine ⟨fun ctx source destination homeRadius splinePoints h => ?_, fun ctx leg h => consumes_iff hh h,
    fun ctx ctx' tr hrun hlegs => run_consumes hh hrun hlegs⟩
  rw [prefix_iff hh h]
  exact and_iff_left rfl

/-- Lengths along the first axis; elsewhere anything that does not see the sign of a zero. -/
def axisHypot (x y z : Float32) : Float32 :=
  if y == 0 && z == 0 then (if x < 0 then 0 - x else if x == 0 then 0 else x) else x * x + y * y + z * z

theorem axis_hypot : Hypot axisHypot where
  zero := by decide +kernel
  alike {x x' y y' z z'} hx hy hz := by
    unfold axisHypot
    have hplane : (y == 0 && z == 0) = (y' == 0 && z' == 0) := by
      rw [hy.beq_eq (.refl 0), hz.beq_eq (.refl 0)]
    rw [hplane, hx.beq_eq (.refl 0)]
    have hneg : x < 0 ↔ x' < 0 := hx.lt_iff (.refl 0)
    split_ifs with hflat hx0 hx0' hzero
    · exact (Alike.refl 0).sub hx
    · exact absurd (hneg.mp hx0) hx0'
    · exact absurd (hneg.mp hx0) hx0'
    · exact absurd (hneg.mpr ‹_›) hx0
    · exact .refl 0
    · exact absurd (hneg.mpr ‹_›) hx0
    · exact hx
    · exact ((hx.mul hx).add (hy.mul hy)).add (hz.mul hz)

def along (x : Float32) : Point := ⟨725, x, 0, 0⟩

/-- A trip along the first axis. -/
def tripAlong (planned : List Point) : TravelContext :=
  { active := true, separateFailureProofs := true, goal := along 8, home := along 0, origin := along 0,
    clearance := 8, phaseMask := 1, planned, surfaceCorridor := true, pendingFrom := along 0 }

theorem polyline_arrivals_straight :
    Recognisable axisHypot (tripAlong [along 2, along 4, along 8]) (along 0) := by
  refine ((polyline_arrivals axis_hypot).1 (tripAlong [along 2, along 4, along 8]) (along 0) (along 4) 40 []
    ⟨rfl, rfl, by decide +kernel, .inl rfl⟩).mp ?_
  decide +kernel

/-- A corner half a millimetre from the one before is left out of the stretch, and then nothing recognises it. -/
theorem doubled_corner_lost : ∃ hypot, Hypot hypot ∧
    Issued hypot (tripAlong [along 2, along 2.0005, along 4]) (along 0) [] ∧
    (tripAlong [along 2, along 2.0005, along 4]).polylinePrefix hypot
      ((tripAlong [along 2, along 2.0005, along 4]).polylineRequest
        (batch hypot (along 0) [along 2, along 2.0005, along 4]) [] (along 4) 40) = none :=
  ⟨axisHypot, axis_hypot, ⟨rfl, rfl, by decide +kernel, .inl rfl⟩, by decide +kernel⟩

end TravelContext

end AIWorld.Agent
