import AIWorld.Action.ActionRequest

/-! The judgement between what an agent proposes and what the engine executes. It changes nothing: it only says
whether a request is allowed right now, and if not, why. -/

namespace AIWorld.Action

open Agent (ActionPosition)
open Quest (ObjectGuid)

inductive ActionRejectReason
  | none | controlModeNotAllowed | actorNotMaterialized | actorDead | noActiveGoal | goalMismatch
  | unsupportedAction | noFleeSource | fleeSourceMismatch | noDestination | destinationMapMismatch
  | destinationNotFinite | destinationTooFar | actorMovementBusy | actorInCombat
  | eatContinuationMismatch | routineActivityMismatch | targetMissing | targetNotResolved | targetDead
  | targetNotAttackable | targetIdentityMismatch | targetEntryMismatch | targetMapMismatch
  | targetPositionMismatch | actorEngagedWithDifferentTarget | targetOutOfAttackRange
  | targetNoLineOfSight | invalidChaseAngle
  deriving DecidableEq

structure ActionValidationResult where
  allowed : Bool
  reason : ActionRejectReason
  deriving DecidableEq

def reject (reason : ActionRejectReason) : ActionValidationResult := ⟨false, reason⟩

def allow : ActionValidationResult := ⟨true, .none⟩

variable (request : ActionRequest) (context : ActionValidationContext)

/-! ### Distances -/

def maxMoveToRangeYards : Float32 := 40

def maxRoutineMoveToRangeYards : Float32 := 300

def maxCoordinationMoveToRangeYards : Float32 := 100

def arrivalToleranceYards : Float32 := 3

def twoPi : Float32 := 6.283185307179586

def squaredLength (dx dy dz : Float32) : Float32 := dx * dx + dy * dy + dz * dz

def distanceSq (destination : ActionPosition Float32) (x y z : Float32) : Float32 :=
  squaredLength (destination.x - x) (destination.y - y) (destination.z - z)

def isWithinArrivalTolerance (destination : ActionPosition Float32) (x y z : Float32) : Bool :=
  distanceSq destination x y z ≤ arrivalToleranceYards * arrivalToleranceYards

def finite (p : ActionPosition Float32) : Bool := p.x.isFinite && p.y.isFinite && p.z.isFinite

def isRoutineMove (goal : GoalType) : Bool := goal = .goToWork || goal = .goHome

def isCoordinationMove (goal : GoalType) : Bool := goal = .regroup || goal = .roam || goal = .hunt

def maxRangeYards (goal : GoalType) : Float32 :=
  if isRoutineMove goal then maxRoutineMoveToRangeYards
  else if isCoordinationMove goal then maxCoordinationMoveToRangeYards
  else maxMoveToRangeYards

def livingGoal (goal : GoalType) : Bool :=
  goal = .localActivity || goal = .predatorHunt || goal = .seekSafety || goal = .investigateDanger

/-! ### Fleeing -/

def validateFlee (goal : GoalType) : ActionValidationResult :=
  if goal ≠ .fleeDanger then reject .goalMismatch
  else if context.fleeSourceGuid.isEmpty then reject .noFleeSource
  else if request.fleeFromGuid ≠ context.fleeSourceGuid then reject .fleeSourceMismatch
  else allow

/-! ### Moving -/

/-- Where a hunter is to approach, and whether that is close enough to the live target. -/
def huntApproach : Option (ActionPosition Float32) :=
  match context.huntApproachDestination with
  | none => some ⟨context.targetMapId, context.targetX, context.targetY, context.targetZ⟩
  | some expected =>
    let dx := expected.x - context.targetX
    let dy := expected.y - context.targetY
    let dz := expected.z - context.targetZ
    if expected.mapId ≠ context.targetMapId ∨ ¬ dx.isFinite ∨ ¬ dy.isFinite ∨ ¬ dz.isFinite ∨
        arrivalToleranceYards * arrivalToleranceYards < squaredLength dx dy dz then none
    else some expected

def validateHuntTarget (destination : ActionPosition Float32) : ActionValidationResult :=
  match request.target with
  | none => reject .targetMissing
  | some target =>
    if target.guid.isEmpty ∨ target.entry = 0 then reject .targetMissing
    else if ¬ target.guid.isCreature then reject .targetIdentityMismatch
    else if target.guid.getEntry ≠ target.entry then reject .targetEntryMismatch
    else if ¬ context.targetResolved then reject .targetNotResolved
    else if ¬ context.targetAlive then reject .targetDead
    else if ¬ context.targetAttackable then reject .targetNotAttackable
    else if target.guid ≠ context.targetGuid then reject .targetIdentityMismatch
    else if target.entry ≠ context.targetEntry then reject .targetEntryMismatch
    else if context.targetMapId ≠ context.mapId then reject .targetMapMismatch
    else if destination.mapId ≠ context.targetMapId then reject .targetMapMismatch
    else if ¬ context.targetX.isFinite ∨ ¬ context.targetY.isFinite ∨ ¬ context.targetZ.isFinite then
      reject .targetPositionMismatch
    else match huntApproach context with
      | none => reject .targetPositionMismatch
      | some expected =>
        if destination.x != expected.x || destination.y != expected.y || destination.z != expected.z then
          reject .targetPositionMismatch
        else allow

/-- What lies outside the agents' scope: the destination, the home of a recovery, its query. -/
def leavesScope (destination : ActionPosition Float32) : Bool :=
  !context.scope.containsPosition destination.mapId destination.x destination.y destination.z ||
    request.recovery.any fun recovery =>
      !context.scope.containsPosition recovery.home.mapId recovery.home.x recovery.home.y recovery.home.z ||
        recovery.queryDestination.any fun query =>
          !context.scope.containsPosition query.mapId query.x query.y query.z

/-- What a flight to safety must name: the live threat, as the source and as the target. -/
def namesThreat : Bool :=
  !context.fleeSourceGuid.isEmpty && request.fleeFromGuid = context.fleeSourceGuid &&
    (match request.target with
      | none => false
      | some target => target.guid = context.fleeSourceGuid && target.guid = context.targetGuid &&
        target.entry = context.targetEntry) &&
    context.targetResolved && context.targetAlive && context.targetMapId = context.mapId &&
    context.targetWithinAttackRange && context.targetInLineOfSight

/-- The checks of a flight to safety and of an investigation. -/
def validateRoleMove (destination : ActionPosition Float32) : ActionValidationResult :=
  if request.sourceGoal ≠ .seekSafety ∧ request.sourceGoal ≠ .investigateDanger then allow
  else if ¬ context.roleMovementDestination.any (samePoint · destination) then reject .goalMismatch
  else if request.sourceGoal = .seekSafety then
    if ¬ namesThreat request context then reject .noFleeSource else allow
  else if context.livingRole ≠ .guard ∨ ¬ context.freshAllyAlarm then reject .goalMismatch
  else allow

def validateMoveTo : ActionValidationResult :=
  if (request.sourceGoal = .localActivity ∨ request.sourceGoal = .investigateDanger) ∧ context.inCombat then
    reject .actorInCombat
  else match request.destination with
    | none => reject .noDestination
    | some destination =>
      if destination.mapId ≠ context.mapId then reject .destinationMapMismatch
      else if ¬ finite destination then reject .destinationNotFinite
      else if livingGoal request.sourceGoal ∧ leavesScope request context destination then
        reject .goalMismatch
      else
        let roleMove := validateRoleMove request context destination
        if ¬ roleMove.allowed then roleMove
        else
          let huntTarget :=
            if request.sourceGoal = .hunt then validateHuntTarget request context destination else allow
          if ¬ huntTarget.allowed then huntTarget
          else
            let range := maxRangeYards request.sourceGoal
            if range * range < distanceSq destination context.x context.y context.z then
              reject .destinationTooFar
            else if context.hasActiveMovement then reject .actorMovementBusy
            else allow

/-! ### Attacking -/

def invalidChaseAngle : Bool :=
  request.chaseAngleRadians.any fun angle =>
    !usesFormationBearing request.sourceGoal || (!angle.isFinite || angle < 0 || twoPi ≤ angle)

/-- The actor has another victim already. -/
def engagedElsewhere : Bool :=
  !context.actorCurrentVictimGuid.isEmpty && context.actorCurrentVictimGuid ≠ context.targetGuid

def validateDefense : ActionValidationResult :=
  if context.hasActiveMovement then reject .actorMovementBusy
  else match request.target with
    | none => reject .targetIdentityMismatch
    | some target =>
      if ¬ target.guid.isUnit ∨ target.guid ≠ context.defenseThreatGuid ∨
          target.guid ≠ context.targetGuid then reject .targetIdentityMismatch
      else if ¬ context.targetResolved ∨ ¬ context.targetAlive ∨ ¬ context.targetAttackable then
        reject .targetNotAttackable
      else if target.entry ≠ context.targetEntry then reject .targetEntryMismatch
      else if context.targetMapId ≠ context.mapId then reject .targetMapMismatch
      else if ¬ context.targetWithinAttackRange ∨ ¬ context.targetInLineOfSight then
        reject .targetOutOfAttackRange
      else if engagedElsewhere context then reject .actorEngagedWithDifferentTarget
      else allow

def validateHuntAttack (goal : GoalType) : ActionValidationResult :=
  if goal ≠ .hunt ∧ goal ≠ .predatorHunt then reject .goalMismatch
  else if goal = .predatorHunt ∧ ((context.livingRole ≠ .predator ∧ context.livingRole ≠ .hunter) ∨
      ¬ context.targetIsRolePrey ∨ context.hasActiveMovement) then reject .targetNotAttackable
  else match request.target with
    | none => reject .targetMissing
    | some target =>
      if target.guid.isEmpty ∨ target.entry = 0 then reject .targetMissing
      else if ¬ target.guid.isCreature then reject .targetIdentityMismatch
      else if target.guid.getEntry ≠ target.entry then reject .targetEntryMismatch
      else if ¬ context.targetResolved then reject .targetNotResolved
      else if ¬ context.targetAlive then reject .targetDead
      else if ¬ context.targetAttackable then reject .targetNotAttackable
      else if target.guid ≠ context.targetGuid then reject .targetIdentityMismatch
      else if target.entry ≠ context.targetEntry then reject .targetEntryMismatch
      else if context.targetMapId ≠ context.mapId then reject .targetMapMismatch
      else if ¬ context.targetWithinAttackRange then reject .targetOutOfAttackRange
      else if ¬ context.targetInLineOfSight then reject .targetNoLineOfSight
      else if engagedElsewhere context then reject .actorEngagedWithDifferentTarget
      else allow

def validateAttack (goal : GoalType) : ActionValidationResult :=
  if invalidChaseAngle request then reject .invalidChaseAngle
  else if goal = .defend then validateDefense request context
  else validateHuntAttack request context goal

/-! ### Eating -/

def validateFeed : ActionValidationResult :=
  match request.target with
  | none => reject .targetIdentityMismatch
  | some target =>
    if target.guid.isEmpty ∨ ¬ target.guid.isCreature ∨ target.guid.getEntry ≠ target.entry ∨
        target.guid ≠ context.mealTargetGuid ∨ target.guid ≠ context.targetGuid ∨
        target.entry ≠ context.targetEntry then reject .targetIdentityMismatch
    else if ¬ context.targetResolved ∨ context.targetAlive then reject .targetNotResolved
    else if context.targetMapId ≠ context.mapId then reject .targetMapMismatch
    else if ¬ context.targetWithinAttackRange ∨ ¬ context.targetInLineOfSight then
      reject .targetOutOfAttackRange
    else if context.inCombat ∨ context.hasActiveMovement then reject .actorInCombat
    else allow

/-- The request continues the very arrival on record. -/
def continuesArrival (destination : ActionPosition Float32) : Bool :=
  context.arrivedDestination.any (samePoint destination) && request.sourceGoal = context.arrivedSourceGoal &&
    request.goalStartedAtMs = context.arrivedGoalStartedAtMs

def validateEat (goal : GoalType) : ActionValidationResult :=
  if goal = .feed then validateFeed request context
  else if goal ≠ .getFood then reject .goalMismatch
  else match request.destination with
    | none => reject .noDestination
    | some destination =>
      if ¬ continuesArrival request context destination then reject .eatContinuationMismatch
      else if destination.mapId ≠ context.mapId then reject .destinationMapMismatch
      else if ¬ finite destination then reject .destinationNotFinite
      else if ¬ isWithinArrivalTolerance destination context.x context.y context.z then
        reject .destinationTooFar
      else if context.inCombat then reject .actorInCombat
      else allow

/-! ### Working and resting -/

def validateAtRoutineTarget : ActionValidationResult :=
  match request.destination with
  | none => reject .noDestination
  | some destination =>
    if destination.mapId ≠ context.mapId then reject .destinationMapMismatch
    else if ¬ finite destination then reject .destinationNotFinite
    else if ¬ isWithinArrivalTolerance destination context.x context.y context.z then
      reject .destinationTooFar
    else if context.hasActiveMovement then reject .actorMovementBusy
    else allow

/-- The common body of the two below. -/
def validateRoutine (activity : RoutineActivityType) : ActionValidationResult :=
  if context.expectedRoutineActivity ≠ some activity ∨
      request.goalStartedAtMs ≠ context.routineActivityStartedAtMs then reject .routineActivityMismatch
  else validateAtRoutineTarget request context

def validateWork (goal : GoalType) : ActionValidationResult :=
  if goal ≠ .goToWork then reject .goalMismatch else validateRoutine request context .work

def validateRest (goal : GoalType) : ActionValidationResult :=
  if goal = .wildlifeRest then
    if ¬ context.wildlifeRestAllowed then reject .routineActivityMismatch
    else if context.inCombat ∨ context.hasActiveMovement then reject .actorInCombat
    else allow
  else if goal ≠ .goHome then reject .goalMismatch
  else validateRoutine request context .rest

/-! ### Everyday activities -/

/-- A named partner is a live one nearby, and only talk names one. -/
def validPartner : Bool :=
  request.target.all fun target =>
    request.ambientActivity = .talk && context.targetIsSocialPartner && context.targetResolved &&
      context.targetAlive && context.targetMapId = context.mapId && context.targetWithinAttackRange &&
      context.targetInLineOfSight && context.targetGuid = target.guid && context.targetEntry = target.entry

def validateAmbient : ActionValidationResult :=
  if request.sourceGoal ≠ .localActivity ∨ request.ambientActivity ≠ context.expectedAmbientActivity ∨
      request.ambientActivity = .roam ∨ ¬ allows context.livingRole request.ambientActivity then
    reject .goalMismatch
  else if context.inCombat then reject .actorInCombat
  else if context.hasActiveMovement then reject .actorMovementBusy
  else if request.ambientActivity = .rest ∧ ¬ context.wildlifeRestAllowed then reject .goalMismatch
  else if ¬ validPartner request context then reject .goalMismatch
  else allow

/-! ### The gate -/

/-- The recovery that a request carries is the approved one, and leads where the request does. -/
def approvedRecovery (recovery : RecoveryMovement Float32) : Bool :=
  request.type = .moveTo && (request.sourceGoal = .localActivity || request.sourceGoal = .seekSafety) &&
    context.approvedRecovery.any recovery.same && request.destination.any (samePoint recovery.destination)

def validateType (goal : GoalType) : ActionValidationResult :=
  match request.type with
  | .flee => validateFlee request context goal
  | .moveTo => validateMoveTo request context
  | .eat => validateEat request context goal
  | .work => validateWork request context goal
  | .rest => validateRest request context goal
  | .attack => validateAttack request context goal
  | .ambient => validateAmbient request context

def validate : ActionValidationResult :=
  if context.controlMode ≠ .aiWorldControlled then reject .controlModeNotAllowed
  else if ¬ context.materialized then reject .actorNotMaterialized
  else if ¬ context.alive then reject .actorDead
  else match context.activeGoalType with
    | none => reject .noActiveGoal
    | some goal =>
      if request.sourceGoal ≠ goal then reject .goalMismatch
      else if request.goalStartedAtMs ≠ context.activeGoalStartedAtMs then reject .goalMismatch
      else if livingGoal request.sourceGoal ∧ (¬ context.livingRoleAllowed ∨
          ¬ context.scope.contains context.mapId context.livingRoleZoneId context.x context.y context.z ∨
          ¬ knownRole context.livingRole) then reject .goalMismatch
      else if (request.sourceGoal = .seekSafety ∨ request.sourceGoal = .investigateDanger) ∧
          (¬ context.livingRoleExtensionsAllowed ∨ request.type ≠ .moveTo) then reject .goalMismatch
      else if ¬ request.recovery.all (approvedRecovery request context) then reject .goalMismatch
      else validateType request context goal

end AIWorld.Action
