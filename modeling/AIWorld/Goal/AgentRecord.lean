import AIWorld.Action.ActionSystem
import AIWorld.Needs.NeedsSystem

/-! What an agent pursues, and what is done about it. Pressing needs propose goals, the best of them is pursued until
its need is satisfied, its time is over or an emergency takes its place; beside it the hour of the day names a place
to be and, once there, what to do. The record keeps this with the action that runs; the body is the creature as the
engine really moves it. -/

namespace AIWorld.Goal

open AIWorld.Action (ActionType GoalType RoutineActivityType AgentControlMode ActionTargetRef ActionRequest SimulationScope
  isWithinArrivalTolerance)
open AIWorld.Agent (ActionPosition)
open Needs (NeedsState NeedsThresholdState)
open Quest (ObjectGuid)

/-! ### Goals -/

inductive GoalPriority
  | normal | emergency
  deriving DecidableEq

inductive GoalSource
  | needs
  deriving DecidableEq

structure GoalCandidate where
  type : GoalType := .getFood
  priority : GoalPriority := .normal
  source : GoalSource := .needs
  utility : Float32 := 0
  deriving DecidableEq

structure ActiveGoal where
  type : GoalType := .getFood
  priority : GoalPriority := .normal
  source : GoalSource := .needs
  utility : Float32 := 0
  startedAtMs : UInt64 := 0
  timeoutMs : UInt32 := 0
  deriving DecidableEq

inductive GoalStatus
  | succeeded | failed
  deriving DecidableEq

inductive GoalCompletionReason
  | needSatisfied | timeout
  deriving DecidableEq

structure GoalCompletion where
  type : GoalType := .getFood
  status : GoalStatus := .succeeded
  reason : GoalCompletionReason := .needSatisfied
  startedAtMs : UInt64 := 0
  completedAtMs : UInt64 := 0
  deriving DecidableEq

inductive GoalTransition
  | none | activated | interrupted | succeeded | failed | released
  deriving DecidableEq

structure GoalSelectionResult where
  goal : Option ActiveGoal := none
  transition : GoalTransition := .none
  completion : Option GoalCompletion := none
  deriving DecidableEq

namespace GoalSystem

def goalCandidateThreshold : Float32 := 0.80

def goalRetentionThreshold : Float32 := 0.60

def priorityRank : GoalPriority → ℕ
  | .emergency => 2
  | .normal => 1

def needValueFor (type : GoalType) (needs : NeedsState) : Float32 :=
  match type with
  | .getFood => needs.hunger
  | .fleeDanger => needs.safetyPressure
  | _ => 0

/-- The place of a type in its enumeration. -/
def ordinal : GoalType → ℕ
  | .getFood => 0 | .fleeDanger => 1 | .goToWork => 2 | .goHome => 3 | .regroup => 4 | .roam => 5 | .hunt => 6
  | .defend => 7 | .feed => 8 | .wildlifeRest => 9 | .localActivity => 10 | .predatorHunt => 11
  | .seekSafety => 12 | .investigateDanger => 13

def isBetterCandidate (a b : GoalCandidate) : Bool :=
  if priorityRank a.priority ≠ priorityRank b.priority then
    decide (priorityRank b.priority < priorityRank a.priority)
  else if a.utility != b.utility then decide (b.utility < a.utility)
  else decide (ordinal a.type < ordinal b.type)

def timeoutFor : GoalType → UInt32
  | .getFood => 30000
  | .fleeDanger => 30000
  | _ => 30000

def generateCandidates (needs : NeedsState) (hasFleeSource : Bool) : List GoalCandidate :=
  (if goalCandidateThreshold ≤ needs.hunger then [⟨.getFood, .normal, .needs, needs.hunger⟩] else []) ++
    (if goalCandidateThreshold ≤ needs.safetyPressure ∧ hasFleeSource then
      [⟨.fleeDanger, .emergency, .needs, needs.safetyPressure⟩] else [])

def better (best : Option GoalCandidate) (candidate : GoalCandidate) : Option GoalCandidate :=
  match best with
  | none => some candidate
  | some b => if isBetterCandidate candidate b then some candidate else some b

def selectBest (candidates : List GoalCandidate) : Option GoalCandidate := candidates.foldl better none

def makeActiveGoal (candidate : GoalCandidate) (nowMs : UInt64) : ActiveGoal where
  type := candidate.type
  priority := candidate.priority
  source := candidate.source
  utility := candidate.utility
  startedAtMs := nowMs
  timeoutMs := timeoutFor candidate.type

def timedOut (goal : ActiveGoal) (nowMs : UInt64) : Bool :=
  goal.startedAtMs ≤ nowMs && goal.timeoutMs.toUInt64 ≤ nowMs - goal.startedAtMs

/-- What an agent that has a goal makes of its needs, no emergency being in the way. -/
def retain (current : ActiveGoal) (needs : NeedsState) (nowMs : UInt64) : GoalSelectionResult :=
  if needValueFor current.type needs < goalRetentionThreshold then
    ⟨none, .succeeded, some ⟨current.type, .succeeded, .needSatisfied, current.startedAtMs, nowMs⟩⟩
  else if timedOut current nowMs then
    ⟨none, .failed, some ⟨current.type, .failed, .timeout, current.startedAtMs, nowMs⟩⟩
  else ⟨some current, .none, none⟩

def updateActiveGoal (current : Option ActiveGoal) (needs : NeedsState) (candidates : List GoalCandidate)
    (nowMs : UInt64) : GoalSelectionResult :=
  match current, selectBest candidates with
  | none, none => {}
  | none, some best => ⟨some (makeActiveGoal best nowMs), .activated, none⟩
  | some goal, none => retain goal needs nowMs
  | some goal, some best =>
    if priorityRank goal.priority < priorityRank best.priority then
      ⟨some (makeActiveGoal best nowMs), .interrupted, none⟩
    else retain goal needs nowMs

end GoalSystem

/-! ### The day -/

structure AgentLocation where
  mapId : UInt32 := 0
  x : Float32 := 0
  y : Float32 := 0
  z : Float32 := 0
  deriving DecidableEq

structure GoalTarget where
  mapId : UInt32 := 0
  x : Float32 := 0
  y : Float32 := 0
  z : Float32 := 0
  deriving DecidableEq

def GoalTarget.position (target : GoalTarget) : ActionPosition Float32 := ⟨target.mapId, target.x, target.y, target.z⟩

structure RoutineGoal where
  type : GoalType := .goHome
  target : GoalTarget := {}
  deriving DecidableEq

structure RoutineScheduleConfig where
  dayLengthMs : UInt32 := 1200000
  workStartMs : UInt32 := 400000
  workEndMs : UInt32 := 800000

def isWorkHours (config : RoutineScheduleConfig) (nowMs : UInt64) : Bool :=
  let elapsedInDayMs := (nowMs % config.dayLengthMs.toUInt64).toUInt32
  config.workStartMs ≤ elapsedInDayMs && elapsedInDayMs < config.workEndMs

def RoutineSystem.deriveGoal (currentGoal : Option ActiveGoal) (home work : Option AgentLocation) (nowMs : UInt64)
    (config : RoutineScheduleConfig) : Option RoutineGoal :=
  match home, work with
  | some home, some work =>
    if currentGoal.any (·.priority = .emergency) then none
    else
      let atWork := isWorkHours config nowMs
      let source := if atWork then work else home
      some ⟨if atWork then .goToWork else .goHome, ⟨source.mapId, source.x, source.y, source.z⟩⟩
  | _, _ => none

structure RoutineActivity where
  type : RoutineActivityType := .rest
  startedAtMs : UInt64 := 0
  deriving DecidableEq

structure RoutineActivityContext where
  currentRoutineGoal : Option GoalType := none
  materialized : Bool := false
  alive : Bool := false
  hasActiveGoal : Bool := false
  hasActiveAction : Bool := false
  actorMoving : Bool := false
  atRoutineTarget : Bool := false

def RoutineActivitySystem.deriveActivity (context : RoutineActivityContext) : Option RoutineActivityType :=
  if !context.materialized || !context.alive then none
  else if context.hasActiveGoal || context.hasActiveAction then none
  else if context.actorMoving then none
  else if !context.atRoutineTarget then none
  else match context.currentRoutineGoal with
    | some .goToWork => some .work
    | some .goHome => some .rest
    | _ => none

structure FoodTargetConfig where
  enabled : Bool := false
  mapId : UInt32 := 0
  x : Float32 := 0
  y : Float32 := 0
  z : Float32 := 0

def FoodTargetResolver.resolve (config : FoodTargetConfig) : Option GoalTarget :=
  if !config.enabled then none else some ⟨config.mapId, config.x, config.y, config.z⟩

/-! ### The record -/

inductive AgentWorldState
  | dematerialized | materialized
  deriving DecidableEq

structure AgentEconomyState where
  money : UInt64 := 0
  lastRewardedWorkWindowId : UInt64 := 0
  version : UInt64 := 0
  deriving DecidableEq

structure ActiveAction where
  type : ActionType := .moveTo
  sourceGoal : GoalType := .getFood
  goalStartedAtMs : UInt64 := 0
  startedAtMs : UInt64 := 0
  destination : Option (ActionPosition Float32) := none
  target : Option ActionTargetRef := none
  deriving DecidableEq

inductive HuntPhase
  | approaching | atTarget | engaging
  deriving DecidableEq

structure GroupCoordinationGoal where
  type : GoalType := .regroup
  sourceGroup : UInt64 := 0
  startedAtMs : UInt64 := 0
  targetGuid : ObjectGuid := {}
  targetEntry : UInt32 := 0
  targetObservedAtMs : UInt64 := 0
  phase : HuntPhase := .approaching
  deriving DecidableEq

inductive CoordinationStopReason
  | preemptedByGoal | stoppedByLifecycle | stoppedByMembershipAmbiguity | stoppedByTargetInvalid
  | preemptedByRegroup
  deriving DecidableEq

inductive CoordinationPreemptingOwner
  | activeGoal | routineGoal
  deriving DecidableEq

structure CoordinationStopEvent where
  reason : CoordinationStopReason
  sourceGoal : GoalType
  sourceGroup : UInt64
  startedAtMs : UInt64 := 0
  targetGuid : ObjectGuid := {}
  targetEntry : UInt32 := 0
  engineGeneratorWasRunningBeforeStop : Bool := false
  engineGeneratorConfirmedStoppedAfterStop : Bool := false
  preemptingOwner : Option CoordinationPreemptingOwner := none
  preemptingGoal : Option GoalType := none
  stoppedAtMs : UInt64 := 0
  deriving DecidableEq

structure PendingEatContinuation where
  destination : ActionPosition Float32
  sourceGoal : GoalType := .getFood
  goalStartedAtMs : UInt64 := 0
  deriving DecidableEq

structure AgentRecord where
  controlMode : AgentControlMode := .observeOnly
  homeLocation : Option AgentLocation := none
  workLocation : Option AgentLocation := none
  economyState : AgentEconomyState := {}
  runtimeGuid : ObjectGuid := {}
  worldState : AgentWorldState := .dematerialized
  needs : NeedsState := {}
  needsThresholds : NeedsThresholdState := {}
  activeGoalState : Option ActiveGoal := none
  routineGoalState : Option RoutineGoal := none
  groupCoordinationGoalState : Option GroupCoordinationGoal := none
  lastCoordinationStop : Option CoordinationStopEvent := none
  routineActivityState : Option RoutineActivity := none
  activeActionState : Option ActiveAction := none
  pendingEat : Option PendingEatContinuation := none
  deriving DecidableEq

def isRoutineSourceGoal (type : GoalType) : Bool := type = .goToWork || type = .goHome

def isCoordinationSourceGoal (type : GoalType) : Bool := type = .regroup || type = .roam || type = .hunt

/-! ### The creature -/

/-- The creature in the engine. Of its movement generators the agent's own are told apart from all others. -/
structure Body where
  guid : ObjectGuid := {}
  health : UInt32 := 0
  maxHealth : UInt32 := 0
  alive : Bool := false
  inCombat : Bool := false
  victim : Option ObjectGuid := none
  threatVictim : Option ObjectGuid := none
  pveCombatRefs : List ObjectGuid := []
  pvpCombatRefs : List ObjectGuid := []
  mapId : UInt32 := 0
  zoneId : UInt32 := 0
  x : Float32 := 0
  y : Float32 := 0
  z : Float32 := 0
  ownMoveTo : Bool := false
  ownFlee : Bool := false
  chasing : Option ObjectGuid := none
  otherMovement : Bool := false
  deriving DecidableEq

namespace Body

variable (b : Body)

def hasActiveMovement : Bool := b.ownMoveTo || b.ownFlee || b.chasing.isSome || b.otherMovement

def hasOwnAttackEngagement (target : ObjectGuid) : Bool := b.victim = some target

def isAt (p : ActionPosition Float32) : Bool := isWithinArrivalTolerance p b.x b.y b.z

/-! ### What the executor does -/

def stopMoveTo : Body := { b with ownMoveTo := false }

def stopFlee : Body := { b with ownFlee := false }

/-- An ended fight leaves the threat lists, and the creature is in combat as long as another goes on. -/
def endCombat (target : ObjectGuid) : Body :=
  if target ∈ b.pveCombatRefs then
    { b with
      pveCombatRefs := b.pveCombatRefs.erase target
      inCombat := !(b.pveCombatRefs.erase target).isEmpty || !b.pvpCombatRefs.isEmpty
      threatVictim := b.threatVictim.filter (· ≠ target) }
  else b

def stopAttack (target : ObjectGuid) : Body :=
  let stopped := { b with victim := b.victim.filter (· ≠ target) }.endCombat target
  { stopped with chasing := stopped.chasing.filter (· ≠ target) }

/-- Whether the movement starts, and the creature then. -/
def executeMoveTo (request : ActionRequest) : Bool × Body :=
  if request.type ≠ .moveTo ∨ request.destination = none then (false, b)
  else if b.hasActiveMovement then (false, b)
  else (true, { b with ownMoveTo := true })

def executeFlee (request : ActionRequest) (scope : Option SimulationScope) : Bool × Body :=
  if request.type ≠ .flee then (false, b)
  else if scope.any fun s => !s.contains b.mapId b.zoneId b.x b.y b.z then (false, b)
  else (true, { b with ownFlee := true })

/-- Eating, working and resting are gestures. -/
def executeGesture (type : ActionType) (request : ActionRequest) : Bool := request.type = type

/-- `accepts` is the engine's answer to the attack. -/
def executeAttack (request : ActionRequest) (target : ObjectGuid) (accepts : Bool) : Bool × Body :=
  if request.type ≠ .attack then (false, b)
  else if !accepts then (false, b)
  else (true, { b with victim := some target, chasing := some target })

end Body

/-! ### Both together -/

/-- An agent whose creature is there. -/
structure Actor where
  record : AgentRecord
  body : Body

/-- A fight that the agent itself picked for its group, with nobody else in it. -/
def isExclusivelyOwnedHuntCombat (a : Actor) : Bool :=
  a.body.inCombat &&
    match a.record.groupCoordinationGoalState, a.record.activeActionState with
    | some goal, some action =>
      decide (goal.type = .hunt) && decide (goal.phase = .engaging) && decide (action.type = .attack) &&
        decide (action.sourceGoal = .hunt) && action.goalStartedAtMs == goal.startedAtMs &&
        decide (action.target = some ⟨goal.targetGuid, goal.targetEntry⟩) &&
        decide (a.body.victim = some goal.targetGuid) && a.body.pveCombatRefs.all (· = goal.targetGuid) &&
        a.body.pvpCombatRefs.all (· = goal.targetGuid)
    | _, _ => false

/-- The action that runs is the one of this very attempt. -/
def ownsStoppedMovement (goal : GroupCoordinationGoal) (action : Option ActiveAction) : Bool :=
  action.any fun action =>
    (decide (action.type = .moveTo) || decide (action.type = .attack)) && decide (action.sourceGoal = goal.type) &&
      action.goalStartedAtMs == goal.startedAtMs &&
      (decide (goal.type ≠ .hunt) || decide (action.target = some ⟨goal.targetGuid, goal.targetEntry⟩))

/-! ### Completions -/

inductive ActionCompletionStatus
  | succeeded | failed | cancelled
  deriving DecidableEq

inductive ActionCompletionReason
  | arrived | destinationNotReached | goalInterrupted | goalCompleted | actorDematerialized | actorDead
  | engineStopped | consumed | performed | targetDefeated
  deriving DecidableEq

structure ActionCompletion where
  type : ActionType := .moveTo
  sourceGoal : GoalType := .getFood
  goalStartedAtMs : UInt64 := 0
  status : ActionCompletionStatus := .failed
  reason : ActionCompletionReason := .engineStopped
  completedAtMs : UInt64 := 0
  deriving DecidableEq

def ActionCompletion.arrived (completion : ActionCompletion) : Bool :=
  completion.status = .succeeded && completion.reason = .arrived

def handleActionCompletion (record : AgentRecord) (completion : ActionCompletion) : AgentRecord :=
  let completedDestination := record.activeActionState.bind ActiveAction.destination
  let pending : Option PendingEatContinuation :=
    if completion.type = .moveTo ∧ completion.arrived ∧ completion.sourceGoal = .getFood then
      completedDestination.map fun destination =>
        ⟨destination, completion.sourceGoal, completion.goalStartedAtMs⟩
    else none
  -- an arrived hunter keeps what its group wants of it
  let retainHunt := completion.sourceGoal = .hunt && completion.arrived
  { record with
    activeActionState := none
    pendingEat := pending.or record.pendingEat
    groupCoordinationGoalState :=
      if retainHunt then record.groupCoordinationGoalState.map fun goal => { goal with phase := .atTarget }
      else if isCoordinationSourceGoal completion.sourceGoal then none
      else record.groupCoordinationGoalState }

end AIWorld.Goal
