import AIWorld.Agent.LivingSurfaceCorridor

/-! Routes home: distances between positions, how a path is cut into steps, and the short connector over
open ground. The points of a path are in order, and what the connector asks of the world are queries. -/

namespace AIWorld.Agent.LivingReturnPolicy

open LivingSurfaceCorridor (finite)

variable {F : Type} (ops : FloatOps F)

/-! ### Positions -/

def maxStepLength : F := ops.lit 28

def distance (a b : ActionPosition F) : F := ops.hypot3 (ops.sub a.x b.x) (ops.sub a.y b.y) (ops.sub a.z b.z)

def samePosition (a b : ActionPosition F) : Bool :=
  a.mapId = b.mapId && ops.eq a.x b.x && ops.eq a.y b.y && ops.eq a.z b.z

def usefulStep (source resolved : ActionPosition F) : Bool :=
  finite ops source && finite ops resolved && source.mapId = resolved.mapId &&
    ops.lt (ops.lit 1) (distance ops source resolved)

/-- The place at a part of the way from one position to another. -/
def between (a b : ActionPosition F) (t : F) : ActionPosition F where
  mapId := a.mapId
  x := ops.add a.x (ops.mul (ops.sub b.x a.x) t)
  y := ops.add a.y (ops.mul (ops.sub b.y a.y) t)
  z := ops.add a.z (ops.mul (ops.sub b.z a.z) t)

/-! ### The trail -/

def maxTrailPoints : ℕ := 64

/-- A trail ends with the map it is on. -/
def sameMap (trail : List (ActionPosition F)) (point : ActionPosition F) : List (ActionPosition F) :=
  if trail.getLast?.any fun last => last.mapId ≠ point.mapId then [] else trail

/-- The first of a full trail stays; the next one makes room. -/
def makeRoom (trail : List (ActionPosition F)) : List (ActionPosition F) :=
  if trail.length = maxTrailPoints then trail.eraseIdx 1 else trail

/-- A place that was seen before ends the trail there, and a new one is put behind it. -/
def observeTrail (trail : List (ActionPosition F)) (point : ActionPosition F) (returning : Bool) :
    List (ActionPosition F) :=
  if !finite ops point then trail
  else
    match (sameMap trail point).findIdx? fun p => ops.le (distance ops p point) (ops.lit 2) with
    | some i => (sameMap trail point).take (i + 1)
    | none =>
      if returning || (sameMap trail point).getLast?.any fun last => ops.lt (distance ops last point) (ops.lit 3) then
        sameMap trail point
      else makeRoom (sameMap trail point) ++ [point]

/-- Arriving at the destination cuts the trail off before the point that was the target. -/
def arriveOnTrail (trailTarget : Option (ActionPosition F)) (trailDestination here : ActionPosition F)
    (trail : List (ActionPosition F)) : Option (ActionPosition F) × List (ActionPosition F) :=
  match trailTarget with
  | none => (none, trail)
  | some target =>
    if !finite ops here || here.mapId ≠ trailDestination.mapId ||
        ops.lt (ops.lit 3) (distance ops here trailDestination) then (some target, trail)
    else
      (none, trail.takeWhile fun p => !(p.mapId = target.mapId && ops.lt (distance ops p target) (ops.lit (1 / 100))))

/-! ### Along a path -/

/-- The walk along a path from the cursor on, with what is left of the budget. -/
def pathStepLoop : ActionPosition F → List (ActionPosition F) → F → Bool → Option (ActionPosition F)
  | cursor, [], _, advanced => if advanced then some cursor else none
  | cursor, next :: path, budget, advanced =>
    if next.mapId ≠ cursor.mapId || !finite ops next then none
    else
      let length := ops.hypot3 (ops.sub next.x cursor.x) (ops.sub next.y cursor.y) (ops.sub next.z cursor.z)
      if !ops.isFinite length then none
      else if ops.lt (ops.lit 0) length then
        if ops.le budget length then some (between ops cursor next (ops.div budget length))
        else pathStepLoop next path (ops.sub budget length) true
      else pathStepLoop next path budget advanced

def pathStep (path : List (ActionPosition F)) (budget : F) : Option (ActionPosition F) :=
  match path with
  | cursor :: next :: path =>
    if !finite ops cursor || !ops.isFinite budget || ops.le budget (ops.lit 0) ||
        ops.lt (maxStepLength ops) budget then none
    else pathStepLoop ops cursor (next :: path) budget false
  | _ => none

/-! ### The corridor of a path -/

/-- The steps along one segment, from the `n`th of `steps` on; none when the result grows too long. -/
def subdivide (a b : ActionPosition F) (steps : ℕ) :
    ℕ → ℕ → List (ActionPosition F) → Option (List (ActionPosition F))
  | 0, _, result => some result
  | left + 1, n, result =>
    let result := result ++ [between ops a b (ops.div (ops.lit n) (ops.lit steps))]
    if result.length > 128 then none else subdivide a b steps left (n + 1) result

/-- The loop over the segments of a path, from the position `a` on. -/
def corridorLoop : ActionPosition F → List (ActionPosition F) → F → List (ActionPosition F) →
    Option (List (ActionPosition F))
  | _, [], _, result => some result
  | a, b :: path, total, result =>
    if !finite ops b || a.mapId ≠ b.mapId then none
    else
      let length := distance ops a b
      let total := ops.add total length
      if !ops.isFinite total || ops.lt (ops.lit 480) total then none
      else if ops.le length (ops.lit (1 / 100)) then corridorLoop b path total result
      else
        let steps := ops.ceil (ops.div length (ops.lit 14))
        (subdivide ops a b steps steps 1 result).bind (corridorLoop b path total)

def corridor (path : List (ActionPosition F)) : List (ActionPosition F) :=
  match path with
  | a :: b :: path => if !finite ops a then [] else (corridorLoop ops a (b :: path) (ops.lit 0) []).getD []
  | _ => []

/-! ### The connector over open ground -/

inductive ConnectorFailure
  | none | zeroStep | range | startHeight | supportHeight | startObstacle | surfaceHeight | cliff | obstacle | endHeight
  deriving DecidableEq

/-- The samples from the `n`th of `steps` on, after which the height of the end is compared. -/
def connectorLoop (source target : ActionPosition F) (steps : ℕ) :
    ℕ → ℕ → F → List (ActionPosition F) → SurfaceProbe F (List (ActionPosition F) × ConnectorFailure)
  | 0, _, previousHeight, result =>
    if ops.lt (ops.lit 1) (ops.abs (ops.sub previousHeight target.z)) then pure ([], .endHeight)
    else pure (result, .none)
  | left + 1, n, previousHeight, result =>
    let t := ops.div (ops.lit n) (ops.lit steps)
    let point := { between ops source target t with z := previousHeight }
    requireHeight ops point ([], .surfaceHeight) fun height =>
      if ops.lt (ops.lit (3 / 4)) (ops.abs (ops.sub height previousHeight)) then pure ([], .cliff)
      else
        let point := { point with z := height }
        require (clearSegment (result.getLastD source) point) ([], .obstacle) <|
          connectorLoop source target steps left (n + 1) height (result ++ [point])

def surfaceConnector (source target : ActionPosition F) (startSupport : Option (ActionPosition F)) :
    SurfaceProbe F (List (ActionPosition F) × ConnectorFailure) :=
  if !usefulStep ops source target then pure ([], .zeroStep)
  else
    let length := ops.hypot (ops.sub target.x source.x) (ops.sub target.y source.y)
    if ops.lt length (ops.lit (1 / 2)) || ops.lt (ops.lit 6) length ||
        ops.lt (ops.lit 3) (ops.abs (ops.sub target.z source.z)) then pure ([], .range)
    else
      requireHeight ops source ([], .startHeight) fun startHeight =>
        let grounded := { source with z := startHeight }
        let steps := ops.ceil (ops.div length (ops.lit (1 / 2)))
        if ops.lt (ops.lit 1) (ops.abs (ops.sub startHeight source.z)) then
          match startSupport with
          | none => pure ([], .startHeight)
          | some support =>
            if !finite ops support || support.mapId ≠ source.mapId ||
                ops.lt (ops.lit 3) (ops.abs (ops.sub startHeight source.z)) ||
                ops.lt (ops.lit 6) (ops.hypot (ops.sub support.x source.x) (ops.sub support.y source.y)) then
              pure ([], .startHeight)
            else
              requireHeight ops support ([], .supportHeight) fun supportHeight =>
                if ops.lt (ops.lit 1) (ops.abs (ops.sub supportHeight support.z)) then pure ([], .supportHeight)
                else
                  require (clearSegment source grounded) ([], .startObstacle) <|
                    connectorLoop ops source target steps steps 1 startHeight [source, grounded]
        else connectorLoop ops source target steps steps 1 startHeight [source]

end AIWorld.Agent.LivingReturnPolicy
