import AIWorld.Agent.LivingFineRoute
import AIWorld.Agent.LivingSurfaceCorridor

/-! Fine routes over any arithmetic. A batch is a short stretch of a planned route, what remains of a batch starts
on one of its segments, and a batch that is proved again has samples of the floor between its corners. -/

namespace AIWorld.Agent.FineRoute

open Lib Lib.Thinning
open LivingFineRoute (maxControls maxDensePoints)
open LivingSurfaceCorridor (finite)

section Routes
variable {F : Type} (ops : FloatOps F)

def selectionLength : F := ops.lit 5

def maxLength : F := ops.lit 6

def sourceTolerance : F := ops.lit (1 / 20)

def distance (a b : ActionPosition F) : F := ops.hypot3 (ops.sub a.x b.x) (ops.sub a.y b.y) (ops.sub a.z b.z)

/-- Too close to be a corner of its own. -/
def near (a b : ActionPosition F) : Bool := ops.le (distance ops a b) (ops.lit (1 / 1000))

/-! ### Batches -/

def far (a b : ActionPosition F) : Bool := ops.lt (ops.lit 1) (distance ops a b)

/-- The loop of `Batch`: the batch so far, its length, and how much of it is useful. -/
def select (source last : ActionPosition F) : List (ActionPosition F) → F → ℕ → List (ActionPosition F) →
    Option (List (ActionPosition F) × ℕ)
  | batch, _, useful, [] => some (batch, useful)
  | batch, length, useful, point :: rest =>
    if !finite ops point || point.mapId ≠ source.mapId then none
    else
      let segment := distance ops (batch.getLastD source) point
      if ops.le segment (ops.lit (1 / 1000)) then select source last batch length useful rest
      else if batch.length = maxControls ∨ ops.lt (selectionLength ops) (ops.add length segment) then
        some (batch, useful)
      else
        let longer := batch ++ [point]
        let useful := if far ops source point && (rest.isEmpty || far ops point last) then longer.length else useful
        select source last longer (ops.add length segment) useful rest

def batch (source : ActionPosition F) (planned : List (ActionPosition F)) : List (ActionPosition F) :=
  if !finite ops source then []
  else match select ops source (planned.getLastD source) [source] (ops.lit 0) 0 planned with
    | none => []
    | some (batch, useful) => batch.take useful

/-- The loop of `Bounded`. -/
def boundedFrom (front : ActionPosition F) : ActionPosition F → F → List (ActionPosition F) → Bool
  | _, _, [] => true
  | previous, length, point :: rest =>
    let segment := distance ops previous point
    finite ops point && point.mapId = front.mapId && !ops.le segment (ops.lit (1 / 1000)) &&
      !ops.lt (maxLength ops) (ops.add length segment) && boundedFrom front point (ops.add length segment) rest

def bounded (controls : List (ActionPosition F)) (controlLimit : ℕ) : Bool :=
  match controls with
  | [] => false
  | front :: rest =>
    (controlLimit = maxControls || controlLimit = maxDensePoints) && !rest.isEmpty &&
      controls.length ≤ controlLimit && finite ops front &&
      !ops.le (distance ops front (controls.getLastD front)) (ops.lit 1) && boundedFrom ops front front (ops.lit 0) rest

def standsAt (corner point : ActionPosition F) : Bool :=
  ops.eq point.x corner.x && ops.eq point.y corner.y && ops.le (ops.abs (ops.sub point.z corner.z)) (ops.lit 1)

/-- The loop of `RetainsCorners`. -/
def retains : List (ActionPosition F) → List (ActionPosition F) → Bool
  | [], dense => dense.isEmpty
  | corner :: corners, dense =>
    match dense.dropWhile fun point => !standsAt ops corner point with
    | [] => false
    | _ :: rest => retains corners rest

def retainsCorners (original dense : List (ActionPosition F)) : Bool :=
  bounded ops original maxControls && bounded ops dense maxDensePoints &&
    match original, dense with
    | o :: original, d :: dense =>
      o.mapId = d.mapId && !ops.lt (sourceTolerance ops) (distance ops o d) && retains ops original dense
    | _, _ => false

/-! ### What remains -/

def clamp (x low high : F) : F := if ops.lt x low then low else if ops.lt high x then high else x

/-- The place of a segment that is closest to a position. -/
def projection (source a b : ActionPosition F) : ActionPosition F :=
  let dx := ops.sub b.x a.x
  let dy := ops.sub b.y a.y
  let dz := ops.sub b.z a.z
  let square := ops.add (ops.add (ops.mul dx dx) (ops.mul dy dy)) (ops.mul dz dz)
  let t := clamp ops
    (ops.div
      (ops.add (ops.add (ops.mul (ops.sub source.x a.x) dx) (ops.mul (ops.sub source.y a.y) dy))
        (ops.mul (ops.sub source.z a.z) dz)) square)
    (ops.lit 0) (ops.lit 1)
  { mapId := source.mapId
    x := ops.add a.x (ops.mul t dx)
    y := ops.add a.y (ops.mul t dy)
    z := ops.add a.z (ops.mul t dz) }

/-- The loop of `Remaining`: the corners from the first segment on that leads past the source. -/
def remainingFrom (source : ActionPosition F) : ActionPosition F → List (ActionPosition F) → List (ActionPosition F)
  | _, [] => []
  | a, b :: rest =>
    if ops.lt (sourceTolerance ops) (distance ops source (projection ops source a b)) then remainingFrom source b rest
    else source :: thin (fun last corner => !ops.lt (ops.lit (1 / 1000)) (distance ops last corner)) source (b :: rest)

def remaining (source : ActionPosition F) (controls : List (ActionPosition F)) (controlLimit : ℕ) :
    List (ActionPosition F) :=
  match controls with
  | [] => []
  | front :: rest =>
    if !bounded ops controls controlLimit || !finite ops source || source.mapId ≠ front.mapId then []
    else remainingFrom ops source front rest

/-! ### Proving it again -/

inductive Failure
  | none | source | points | range
  | segment (failure : SurfaceFailure)
  deriving DecidableEq

/-- The length walked so far, with these steps; none where it gets too long. -/
def walked : F → List (ActionPosition F × ActionPosition F) → Option F
  | length, [] => some length
  | length, (a, b) :: steps =>
    let length := ops.add length (distance ops a b)
    if ops.lt (maxLength ops) length then none else walked length steps

/-- The loop of `Revalidate`: each segment is a walk over the surface of its own, in one call. -/
def revalidateLoop (source : ActionPosition F) : List (ActionPosition F) → List (ActionPosition F) → F →
    SurfaceProbe F (List (ActionPosition F) × Failure)
  | [], result, _ => pure (result, .none)
  | corner :: corners, result, executedLength => do
    let segment ← LivingSurfaceCorridor.advance ops ⟨result.getLastD source, corner, false⟩ 12 (.initial ops)
    if segment.state ≠ .complete then pure ([], .segment segment.failure)
    else if maxDensePoints < result.length + segment.route.length - 1 then pure ([], .points)
    else match walked ops executedLength (segment.route.zip segment.route.tail) with
      | Option.none => pure ([], .range)
      | some executedLength => revalidateLoop source corners (result ++ segment.route.tail) executedLength

def revalidate (source : ActionPosition F) (controls : List (ActionPosition F)) (controlLimit : ℕ) :
    SurfaceProbe F (List (ActionPosition F) × Failure) :=
  match remaining ops source controls controlLimit with
  | _ :: corner :: corners => revalidateLoop ops source (corner :: corners) [source] (ops.lit 0)
  | _ => pure ([], .source)

end Routes

end AIWorld.Agent.FineRoute
