import AIWorld.Goal.Coordination
import AIWorld.Lib.Machine

/-! One pass over an agent that decides for itself, and the agent over time. In a pass what presses the agent is
brought up to date, a goal is chosen, what no longer has a reason is stopped, and what the chosen goal wants is
proposed, judged and begun: first the way of the day and what is done at its end, then a meal that was reached, then
flight, then the way to food. Over time the engine moves the creature and reports the ends of movements to a bounded
queue; every update of the world thread drains that queue, does what the groups ask, then passes over the needs that
are due. What an agent earned is saved behind the world thread's back, in any order, and the world may be restarted
at any moment. -/

namespace AIWorld.Goal

open AIWorld.Action (ActionRequest ActionValidationContext SimulationScope validate)
open AIWorld.Agent (ActionPosition)
open Memory (RetrievedMemory)
open Needs (NeedsUpdateContext NeedsUpdateRates NeedsSystem.update NeedsSystem.evaluateThresholds
  NeedsSystem.evaluateMemorySafety NeedsSystem.satisfyHunger)
open Quest (ObjectGuid)

structure NeedsConfig where
  scope : SimulationScope := {}
  restrictAgentsToSimulationScope : Bool := false
  needsRates : NeedsUpdateRates := {}
  livingNeedEvolutionEnabled : Bool := true
  shortTermMemoryTtlMs : UInt32 := 60000
  routineScheduleConfig : RoutineScheduleConfig := {}
  foodTargetConfig : FoodTargetConfig := {}
  workMoneyReward : UInt32 := 0

/-- When the pass is made, how long after the last one, and all that the agent remembers then. -/
structure NeedsTick where
  nowMs : UInt64
  elapsedMs : UInt32 := 0
  memories : List RetrievedMemory := []

/-- What a pass has to tell. -/
structure NeedsReport where
  transition : GoalTransition := .none
  completion : Option GoalCompletion := none
  wage : Option UInt64 := none
  meal : Option PendingEatContinuation := none
  foodMove : Bool := false
  deriving DecidableEq

variable (c : NeedsConfig) (t : NeedsTick)

/-! ### The creature comes and goes -/

/-- Whatever ran for the agent went away with its creature; what it pursues stays. -/
def dematerialize (record : AgentRecord) : AgentRecord :=
  { record with
    activeActionState := none
    groupCoordinationGoalState := none
    pendingEat := none
    routineActivityState := none
    runtimeGuid := if record.worldState = .materialized then {} else record.runtimeGuid
    worldState := .dematerialized }

def bindCreature (record : AgentRecord) (b : Body) : AgentRecord :=
  if record.worldState = .materialized ∧ record.runtimeGuid = b.guid then record
  else { record with runtimeGuid := b.guid, worldState := .materialized }

/-- The dead want nothing. -/
def bury (record : AgentRecord) : AgentRecord :=
  { record with
    activeActionState := none
    groupCoordinationGoalState := none
    activeGoalState := none
    pendingEat := none
    routineGoalState := none
    routineActivityState := none }

/-! ### Needs -/

def needsContext (a : Actor) : NeedsUpdateContext where
  health := a.body.health
  maxHealth := a.body.maxHealth
  alive := a.body.alive
  inCombat := a.body.inCombat && !isExclusivelyOwnedHuntCombat a
  memorySafetyPressure := NeedsSystem.evaluateMemorySafety t.memories t.nowMs c.shortTermMemoryTtlMs

def ratesNow : NeedsUpdateRates := if c.livingNeedEvolutionEnabled then c.needsRates else ⟨0, 0, 0⟩

def updateNeeds (a : Actor) : Actor :=
  let needs := NeedsSystem.update a.record.needs (needsContext c t a) t.elapsedMs (ratesNow c)
  { a with record := { a.record with
      needs
      needsThresholds := (NeedsSystem.evaluateThresholds needs a.record.needsThresholds).1 } }

/-! ### What became of the last movement -/

/-- A movement that the engine no longer knows is over, with or without an event. -/
def reconcileMovement (a : Actor) : Actor :=
  match a.record.activeActionState with
  | some action =>
    if action.type = .moveTo ∧ ¬ a.body.ownMoveTo then
      let arrived := action.destination.any a.body.isAt
      { a with record := handleActionCompletion a.record {
          type := action.type
          sourceGoal := action.sourceGoal
          goalStartedAtMs := action.goalStartedAtMs
          status := if arrived then .succeeded else .failed
          reason := if arrived then .arrived else .engineStopped
          completedAtMs := t.nowMs } }
    else a
  | none => a

/-! ### The goal -/

def fleeRequest (goal : ActiveGoal) (source : Option Quest.ObjectGuid) : ActionRequest where
  type := .flee
  sourceGoal := goal.type
  goalStartedAtMs := goal.startedAtMs
  fleeFromGuid := source.getD {}

/-- The facts of an agent that is about to act for a goal of its own. -/
def ownContext (a : Actor) (goal : Action.GoalType) (startedAtMs : UInt64) : ActionValidationContext where
  scope := c.scope
  materialized := a.record.worldState = .materialized
  alive := a.body.alive
  controlMode := a.record.controlMode
  activeGoalType := some goal
  activeGoalStartedAtMs := startedAtMs

def fleeContext (a : Actor) (goal : ActiveGoal) (source : Option Quest.ObjectGuid) : ActionValidationContext :=
  { ownContext c a goal.type goal.startedAtMs with fleeSourceGuid := source.getD {} }

def GoalTransition.begins (transition : GoalTransition) : Bool := transition = .activated || transition = .interrupted

/-- A new flight is probed when there is something it would take the place of. -/
def probes (selection : GoalSelectionResult) (a : Actor) : Bool :=
  selection.transition.begins && selection.goal.any (·.type = .fleeDanger) && a.record.activeActionState.isSome

/-- A flight that could not begin must not take the place of what the agent is doing. -/
def selectGoal (a : Actor) : GoalSelectionResult :=
  let candidates := GoalSystem.generateCandidates a.record.needs a.body.threatVictim.isSome
  let selection := GoalSystem.updateActiveGoal a.record.activeGoalState a.record.needs candidates t.nowMs
  match selection.goal with
  | some goal =>
    if probes selection a ∧
        ¬ (validate (fleeRequest goal a.body.threatVictim) (fleeContext c a goal a.body.threatVictim)).allowed then
      ⟨a.record.activeGoalState, .none, none⟩
    else selection
  | none => selection

/-- The source that a probe has captured is the source of the flight, whatever was stopped in between. -/
def capturedFleeSource (selection : GoalSelectionResult) (probed a : Actor) : Option Quest.ObjectGuid :=
  if probes selection probed then probed.body.threatVictim else a.body.threatVictim

def commitGoal (selection : GoalSelectionResult) (a : Actor) : Actor :=
  let record := { a.record with activeGoalState := selection.goal }
  let ended := selection.completion.map GoalCompletion.type
  if selection.transition = .interrupted ∧ selection.goal.any (·.type = .fleeDanger) then
    ⟨{ record with activeActionState := none }, a.body.stopMoveTo⟩
  else if ended = some .fleeDanger then ⟨record, a.body.stopFlee⟩
  else if ended = some .getFood then ⟨{ record with activeActionState := none }, a.body.stopMoveTo⟩
  else ⟨record, a.body⟩

/-! ### Who yields to whom -/

def deriveRoutine (a : Actor) : Actor :=
  { a with record := { a.record with
      routineGoalState := RoutineSystem.deriveGoal a.record.activeGoalState a.record.homeLocation
        a.record.workLocation t.nowMs c.routineScheduleConfig } }

/-- A goal of its own takes the agent off its daily way. -/
def preemptRoutine (a : Actor) : Actor :=
  if a.record.activeGoalState.isSome ∧
      a.record.activeActionState.any fun action => isRoutineSourceGoal action.sourceGoal then
    ⟨{ a.record with activeActionState := none }, a.body.stopMoveTo⟩
  else a

def preemptCoordination (a : Actor) : Actor :=
  let s := preemptInFlightGroupCoordination t.nowMs ⟨a.record, some a.body⟩
  ⟨s.record, s.body.getD a.body⟩

/-! ### The day -/

def moveContext (a : Actor) (goal : Action.GoalType) (startedAtMs : UInt64) : ActionValidationContext :=
  { ownContext c a goal startedAtMs with
    mapId := a.body.mapId
    x := a.body.x
    y := a.body.y
    z := a.body.z
    hasActiveMovement := a.body.hasActiveMovement }

/-- A way of the agent's own, begun if it is allowed and the engine takes it. -/
def startMove (goal : Action.GoalType) (startedAtMs : UInt64) (destination : ActionPosition Float32) (a : Actor) : Actor :=
  let request : ActionRequest := {
    type := .moveTo
    sourceGoal := goal
    goalStartedAtMs := startedAtMs
    destination := some destination }
  let move := a.body.executeMoveTo request
  if (validate request (moveContext c a goal startedAtMs)).allowed ∧ move.1 then
    ⟨{ a.record with activeActionState := some {
        type := request.type
        sourceGoal := request.sourceGoal
        goalStartedAtMs := request.goalStartedAtMs
        startedAtMs := t.nowMs
        destination := request.destination } }, move.2⟩
  else a

/-- The other place of the day is another way: the old one is stopped first. -/
def stopOldRoutine (a : Actor) : Actor :=
  if a.record.activeActionState.any fun action => action.type = .moveTo && isRoutineSourceGoal action.sourceGoal then
    ⟨{ a.record with activeActionState := none }, a.body.stopMoveTo⟩
  else a

def isAtTarget (b : Body) (target : GoalTarget) : Bool := b.mapId == target.mapId && b.isAt target.position

def commute (a : Actor) : Actor :=
  match a.record.routineGoalState with
  | some routine =>
    if a.record.controlMode = .aiWorldControlled ∧ a.record.activeGoalState = none then
      if a.record.activeActionState.any fun action => action.type = .moveTo && action.sourceGoal = routine.type then a
      else
        let idle := stopOldRoutine a
        if isAtTarget idle.body routine.target then idle
        else startMove c t routine.type t.nowMs routine.target.position idle
    else a
  | none => a

/-! ### Working and resting -/

def activityContext (a : Actor) : RoutineActivityContext where
  currentRoutineGoal := a.record.routineGoalState.map RoutineGoal.type
  materialized := a.record.worldState = .materialized
  alive := a.body.alive
  hasActiveGoal := a.record.activeGoalState.isSome
  hasActiveAction := a.record.activeActionState.isSome
  actorMoving := a.body.hasActiveMovement
  atRoutineTarget := a.record.routineGoalState.any fun goal => isAtTarget a.body goal.target

/-- The shift that a moment belongs to. -/
def workWindowId (config : RoutineScheduleConfig) (nowMs : UInt64) : UInt64 :=
  nowMs - nowMs % config.dayLengthMs.toUInt64 + config.workStartMs.toUInt64

/-- Work is paid once a shift; money and mark are saved together, under the next version. -/
def payWork (economy : AgentEconomyState) : Option (UInt64 × AgentEconomyState) :=
  let window := workWindowId c.routineScheduleConfig t.nowMs
  if economy.lastRewardedWorkWindowId ≠ window then
    some (window, ⟨economy.money + c.workMoneyReward.toUInt64, window, economy.version + 1⟩)
  else none

def activityRequest (activity : Action.RoutineActivityType) (routine : RoutineGoal) : ActionRequest where
  type := if activity = .work then .work else .rest
  sourceGoal := routine.type
  goalStartedAtMs := t.nowMs
  destination := some routine.target.position

/-- The end of a gesture, which is over as soon as it is made. -/
def finished (request : ActionRequest) (reason : ActionCompletionReason) : ActionCompletion where
  type := request.type
  sourceGoal := request.sourceGoal
  goalStartedAtMs := request.goalStartedAtMs
  status := .succeeded
  reason
  completedAtMs := t.nowMs

def settleDown (activity : Action.RoutineActivityType) (record : AgentRecord) : AgentRecord :=
  { record with routineActivityState := some ⟨activity, t.nowMs⟩ }

/-- The activity begins: it is proposed once, judged, and work that was done is paid. -/
def beginActivity (activity : Action.RoutineActivityType) (routine : RoutineGoal) (a : Actor) : Option UInt64 × Actor :=
  let request := activityRequest t activity routine
  let context := { moveContext c a routine.type t.nowMs with
    expectedRoutineActivity := some activity
    routineActivityStartedAtMs := t.nowMs }
  if a.record.controlMode = .aiWorldControlled ∧ (validate request context).allowed then
    let done := handleActionCompletion (settleDown t activity a.record) (finished t request .performed)
    match if activity = .work then payWork c t done.economyState else none with
    | some (window, economy) => (some window, ⟨{ done with economyState := economy }, a.body⟩)
    | none => (none, ⟨done, a.body⟩)
  else (none, ⟨settleDown t activity a.record, a.body⟩)

def routineActivity (a : Actor) : Option UInt64 × Actor :=
  let derived := RoutineActivitySystem.deriveActivity (activityContext a)
  if derived = a.record.routineActivityState.map RoutineActivity.type then (none, a)
  else match derived, a.record.routineGoalState with
    | some activity, some routine => beginActivity c t activity routine a
    | _, _ => (none, { a with record := { a.record with routineActivityState := none } })

/-! ### Eating -/

def eatContext (a : Actor) (goal : ActiveGoal) (pending : PendingEatContinuation) : ActionValidationContext :=
  { moveContext c a goal.type goal.startedAtMs with
    hasActiveMovement := false
    inCombat := a.body.inCombat
    arrivedDestination := some pending.destination
    arrivedSourceGoal := pending.sourceGoal
    arrivedGoalStartedAtMs := pending.goalStartedAtMs }

def eatRequest (pending : PendingEatContinuation) : ActionRequest where
  type := .eat
  sourceGoal := pending.sourceGoal
  goalStartedAtMs := pending.goalStartedAtMs
  destination := some pending.destination

def tryEat (goal : ActiveGoal) (pending : PendingEatContinuation) (a : Actor) : Option PendingEatContinuation × Actor :=
  if (validate (eatRequest pending) (eatContext c a goal pending)).allowed then
    let done := handleActionCompletion a.record (finished t (eatRequest pending) .consumed)
    (some pending, { a with record := { done with needs := NeedsSystem.satisfyHunger done.needs } })
  else (none, a)

def forgetArrival (record : AgentRecord) : AgentRecord := { record with pendingEat := none }

/-- An arrival is used up by the next pass, and is a meal only for the attempt that went there. -/
def consumePendingEat (a : Actor) : Option PendingEatContinuation × Actor :=
  match a.record.pendingEat with
  | none => (none, a)
  | some pending =>
    let a' := { a with record := forgetArrival a.record }
    match a.record.activeGoalState with
    | some goal =>
      if goal.type = pending.sourceGoal ∧ goal.startedAtMs = pending.goalStartedAtMs then tryEat c t goal pending a'
      else (none, a')
    | none => (none, a')

/-! ### What a new goal begins -/

def beginFlight (selection : GoalSelectionResult) (source : Option Quest.ObjectGuid) (a : Actor) : Actor :=
  match selection.goal with
  | some goal =>
    if selection.transition.begins ∧ goal.type = .fleeDanger ∧
        (validate (fleeRequest goal source) (fleeContext c a goal source)).allowed then
      { a with body := (a.body.executeFlee (fleeRequest goal source)
        (if c.restrictAgentsToSimulationScope then some c.scope else none)).2 }
    else a
  | none => a

def beginFoodMove (selection : GoalSelectionResult) (a : Actor) : Actor :=
  match selection.goal, FoodTargetResolver.resolve c.foodTargetConfig with
  | some goal, some target =>
    if selection.transition = .activated ∧ goal.type = .getFood then
      startMove c t goal.type goal.startedAtMs target.position a
    else a
  | _, _ => a

/-! ### The pass -/

/-- What the agent does for the goal it has, or has not. -/
def act (selection : GoalSelectionResult) (a : Actor) : NeedsReport × Actor :=
  let settled := commute c t (preemptCoordination t (preemptRoutine (deriveRoutine c t (commitGoal selection a))))
  let worked := routineActivity c t settled
  let fed := consumePendingEat c t worked.2
  let fled := beginFlight c selection (capturedFleeSource selection a fed.2) fed.2
  let done := beginFoodMove c t selection fled
  ({ transition := selection.transition
     completion := selection.completion
     wage := worked.1
     meal := fed.1
     foodMove := done.record.activeActionState.isSome && fled.record.activeActionState.isNone }, done)

def needsPass (s : AgentState) : NeedsReport × AgentState :=
  match s.body with
  | none => ({}, { s with record := dematerialize s.record })
  | some b =>
    let felt := updateNeeds c t ⟨bindCreature s.record b, b⟩
    if b.alive then
      let moved := reconcileMovement t felt
      let done := act c t (selectGoal c t moved) moved
      (done.1, ⟨done.2.record, some done.2.body⟩)
    else ({}, ⟨bury felt.record, some felt.body⟩)

/-! ### Arrivals -/

/-- The end of a movement of the agent's creature, as the engine reports it. -/
structure ActionEngineEvent where
  runtimeGuid : ObjectGuid
  movementType : UInt32
  movementId : UInt32
  x : Float32
  y : Float32
  z : Float32
  deriving DecidableEq

def pointMotionType : UInt32 := 8

def movePointId : UInt32 := 0xA1700000

def ActionEngineEvent.ownMove (event : ActionEngineEvent) : Bool :=
  event.movementType == pointMotionType && event.movementId == movePointId

/-- The action belongs to what its owner pursues right now. -/
def ownedByCurrentAttempt (record : AgentRecord) (action : ActiveAction) : Bool :=
  if isRoutineSourceGoal action.sourceGoal then
    record.routineGoalState.any fun goal => goal.type = action.sourceGoal
  else if isCoordinationSourceGoal action.sourceGoal then
    record.groupCoordinationGoalState.any fun goal =>
      decide (goal.type = action.sourceGoal) && goal.startedAtMs == action.goalStartedAtMs &&
        (decide (action.sourceGoal ≠ .hunt) || decide (action.target = some ⟨goal.targetGuid, goal.targetEntry⟩))
  else record.activeGoalState.any fun goal =>
    decide (goal.type = action.sourceGoal) && goal.startedAtMs == action.goalStartedAtMs

def processActionEngineEvent (nowMs : UInt64) (record : AgentRecord) (event : ActionEngineEvent) : AgentRecord :=
  if !event.ownMove then record
  else if record.runtimeGuid ≠ event.runtimeGuid then record
  else match record.activeActionState with
    | none => record
    | some action =>
      if action.type ≠ .moveTo ∨ ¬ ownedByCurrentAttempt record action then record
      else
        let arrived := action.destination.any fun destination =>
          Action.isWithinArrivalTolerance destination event.x event.y event.z
        handleActionCompletion record {
          type := action.type
          sourceGoal := action.sourceGoal
          goalStartedAtMs := action.goalStartedAtMs
          status := if arrived then .succeeded else .failed
          reason := if arrived then .arrived else .destinationNotReached
          completedAtMs := nowMs }

/-! ### Updates -/

/-- What else an update may do with an agent before its needs are looked at. -/
inductive GroupStep
  | poll
  | leave (group : UInt64) (nowMs : UInt64)
  | stop (reason : CoordinationStopReason) (nowMs : UInt64)
  | reconcile (group : UInt64) (target : Option Prey) (nowMs : UInt64)
  | send (p : GroupMemberActionProposal) (g : GroupStanding) (ground : Ground) (nowMs : UInt64)
  | hunt (p : HuntProposal) (g : GroupStanding) (target : Option Prey) (ground : Ground) (nowMs : UInt64)
  | attack (group : UInt64) (g : GroupStanding) (target : Option Prey) (accepts : Bool) (nowMs : UInt64)

def unbindCreature (record : AgentRecord) : AgentRecord :=
  { record with runtimeGuid := {}, worldState := .dematerialized }

/-- The poll of the decision scheduler notices a creature that came or went. -/
def poll (s : AgentState) : AgentState :=
  match s.body with
  | some b => { s with record := bindCreature s.record b }
  | none => if s.record.worldState = .materialized then { s with record := unbindCreature s.record } else s

def groupStep (scope : SimulationScope) (s : AgentState) : GroupStep → AgentState
  | .poll => poll s
  | .leave group nowMs => stopGroupCoordinationForMember group nowMs s
  | .stop reason nowMs => stopInFlightGroupCoordination reason nowMs s
  | .reconcile group target nowMs => reconcileActiveHuntTarget group target nowMs s
  | .send p g ground nowMs => dispatchGroupMemberActionProposal scope p g ground nowMs s
  | .hunt p g target ground nowMs => dispatchHuntProposal scope p g target ground nowMs s
  | .attack group g target accepts nowMs => dispatchHuntAttack scope group g target accepts nowMs s

structure AgentUpdate where
  nowMs : UInt64
  steps : List GroupStep := []
  tick : Option NeedsTick := none

/-! ### The whole -/

/-- An agent with the events that wait for it, the row that is stored for it and the saves under way. -/
structure AgentWorld where
  agent : AgentState := {}
  events : List ActionEngineEvent := []
  stored : AgentEconomyState := {}
  saves : List AgentEconomyState := []

inductive AgentInput
  | engine (body : Option Body)
  | inform (event : ActionEngineEvent) (taken : Bool)
  | update (u : AgentUpdate)
  | store (i : ℕ)
  | restart

/-- The engine may end any movement; only the executor begins one of the agent's own. The dead do not move. -/
def mayBecome (old new : Option Body) : Bool :=
  new.all fun b =>
    let same := old.filter (·.guid = b.guid)
    (!b.ownMoveTo || same.any (·.ownMoveTo)) && (!b.ownFlee || same.any (·.ownFlee)) &&
      (b.chasing.isNone || same.any (·.chasing = b.chasing)) &&
      (b.alive || (!b.ownMoveTo && !b.ownFlee && b.chasing.isNone))

/-- A movement that ends by itself is reported from where the creature stands. -/
def informed (event : ActionEngineEvent) (body : Option Body) : Option Body :=
  match body with
  | none => none
  | some b =>
    if event.runtimeGuid = b.guid ∧ event.x = b.x ∧ event.y = b.y ∧ event.z = b.z ∧
        (event.ownMove → b.ownMoveTo) then
      some (if event.ownMove then { b with ownMoveTo := false } else b)
    else none

/-- The row takes a save only if it is newer. -/
def AgentEconomyState.write (row save : AgentEconomyState) : AgentEconomyState :=
  if row.version < save.version then save else row

/-- What a restarted world knows of an agent. -/
def loadAgent (record : AgentRecord) (row : AgentEconomyState) : AgentRecord where
  controlMode := record.controlMode
  homeLocation := record.homeLocation
  workLocation := record.workLocation
  economyState := row

def updateAgent (c : NeedsConfig) (w : AgentWorld) (u : AgentUpdate) : NeedsReport × AgentWorld :=
  let drained := { w.agent with record := w.events.foldl (processActionEngineEvent u.nowMs) w.agent.record }
  let led := u.steps.foldl (groupStep c.scope) drained
  match u.tick with
  | none => ({}, { w with agent := led, events := [] })
  | some t =>
    let passed := needsPass c t led
    (passed.1, { w with
      agent := passed.2
      events := []
      saves := if passed.1.wage.isSome then w.saves ++ [passed.2.record.economyState] else w.saves })

def agentStep (c : NeedsConfig) (w : AgentWorld) : AgentInput → Option (NeedsReport × AgentWorld)
  | .engine body => if mayBecome w.agent.body body then some ({}, { w with agent := { w.agent with body } }) else none
  | .inform event taken =>
    (informed event w.agent.body).map fun b =>
      ({}, { w with
        agent := { w.agent with body := some b }
        events := if taken then w.events ++ [event] else w.events })
  | .update u => some (updateAgent c w u)
  | .store i =>
    w.saves[i]?.map fun save => ({}, { w with stored := w.stored.write save, saves := w.saves.eraseIdx i })
  | .restart => some ({}, {
      agent := { record := loadAgent w.agent.record w.stored }
      stored := w.stored })

def agentLoop (c : NeedsConfig) : Lib.Machine AgentWorld AgentInput NeedsReport where
  step := agentStep c

/-- An agent as it was first registered, with the row it was loaded from. -/
def registered (control : Action.AgentControlMode) (home work : Option AgentLocation) (row : AgentEconomyState) :
    AgentWorld where
  agent := { record := {
    controlMode := control
    homeLocation := home
    workLocation := work
    economyState := row } }
  stored := row

end AIWorld.Goal
