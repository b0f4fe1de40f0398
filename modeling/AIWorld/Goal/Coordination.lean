import AIWorld.Agent.HuntIntentSystem
import AIWorld.Goal.AgentRecord

/-! What a group asks of a member. A member that pursues nothing of its own may be sent somewhere, led to a prey
and set upon it; it is called off when it finds something of its own to do, when the group or its membership
changes, or when the prey is no longer one. -/

namespace AIWorld.Goal

open AIWorld.Action (ActionRequest ActionValidationContext SimulationScope maxCoordinationMoveToRangeYards squaredLength
  validate)
open AIWorld.Agent (ActionPosition HuntTargetProvenance)
open Quest (ObjectGuid)

/-- An agent with the creature its spawn has now, if it has one. -/
structure AgentState where
  record : AgentRecord := {}
  body : Option Body := none

/-! ### Calling off -/

/-- The common end of an attempt: what the agent did for it is stopped, and how it ended is written down. -/
def endCoordination (goal : GroupCoordinationGoal) (reason : CoordinationStopReason)
    (preempting : Option (CoordinationPreemptingOwner × Action.GoalType)) (nowMs : UInt64) (s : AgentState) : AgentState :=
  let owns := ownsStoppedMovement goal s.record.activeActionState
  let isAttack := s.record.activeActionState.any (·.type = .attack)
  let running (b : Body) := if isAttack then b.hasOwnAttackEngagement goal.targetGuid else b.ownMoveTo
  let stop (b : Body) := if isAttack then b.stopAttack goal.targetGuid else b.stopMoveTo
  let touches := owns && decide (s.record.worldState = .materialized)
  { record := { s.record with
      groupCoordinationGoalState := none
      activeActionState := if owns then none else s.record.activeActionState
      lastCoordinationStop := some {
        reason
        sourceGoal := goal.type
        sourceGroup := goal.sourceGroup
        startedAtMs := goal.startedAtMs
        targetGuid := goal.targetGuid
        targetEntry := goal.targetEntry
        engineGeneratorWasRunningBeforeStop := touches && s.body.any running
        engineGeneratorConfirmedStoppedAfterStop := touches && s.body.any fun b => !running (stop b)
        preemptingOwner := preempting.map Prod.fst
        preemptingGoal := preempting.map Prod.snd
        stoppedAtMs := nowMs } }
    body := if touches then s.body.map stop else s.body }

def stopInFlightGroupCoordination (reason : CoordinationStopReason) (nowMs : UInt64) (s : AgentState) : AgentState :=
  match s.record.groupCoordinationGoalState with
  | none => s
  | some goal =>
    if isCoordinationSourceGoal goal.type then endCoordination goal reason none nowMs s
    else { s with record := { s.record with groupCoordinationGoalState := none } }

/-- Who takes the agent away from its group. -/
def preemptingOwner (record : AgentRecord) : Option (CoordinationPreemptingOwner × Action.GoalType) :=
  match record.activeGoalState, record.routineGoalState with
  | some goal, _ => some (.activeGoal, goal.type)
  | none, some goal => some (.routineGoal, goal.type)
  | none, none => none

def preemptInFlightGroupCoordination (nowMs : UInt64) (s : AgentState) : AgentState :=
  match s.record.groupCoordinationGoalState with
  | none => s
  | some goal =>
    if (preemptingOwner s.record).isSome && isCoordinationSourceGoal goal.type then
      endCoordination goal .preemptedByGoal (preemptingOwner s.record) nowMs s
    else s

def stopGroupCoordinationForMember (group : UInt64) (nowMs : UInt64) (s : AgentState) : AgentState :=
  if s.record.groupCoordinationGoalState.any (·.sourceGroup = group) then
    stopInFlightGroupCoordination .stoppedByLifecycle nowMs s
  else s

/-! ### Sending -/

inductive AgentGroupIntentType
  | none | regroup | roam
  deriving DecidableEq

def AgentGroupIntentType.sourceGoal : AgentGroupIntentType → Option Action.GoalType
  | .regroup => some .regroup
  | .roam => some .roam
  | .none => Option.none

structure GroupMemberActionProposal where
  sourceGroup : UInt64
  sourceIntent : AgentGroupIntentType := .none
  mapId : UInt32 := 0
  x : Float32 := 0
  y : Float32 := 0
  z : Float32 := 0

structure HuntProposal where
  sourceGroup : UInt64
  target : HuntTargetProvenance
  startedAtMs : UInt64 := 0

/-- What the registries say of the group, the member and the scope at a dispatch. -/
structure GroupStanding where
  inSimulation : Bool := false
  found : Bool := false
  hasPendingOperation : Bool := false
  stillMember : Bool := false
  huntEnabled : Bool := false
  huntAcquisitionRadius : Float32 := 0
  memberFormationRadius : Float32 := 0
  coordinationEnabledMemberships : ℕ := 0
  targetIsGroupMember : Bool := false

/-- What the map and its paths say of a destination. -/
structure Ground where
  groundZ : Float32 := 0
  pathCalculated : Bool := false
  noPath : Bool := false
  incomplete : Bool := false

def invalidHeight : Float32 := -100000

/-- The height at which to arrive. A recorded point of the territory is taken as it is; a computed one must have
ground nearby and a way to it. -/
def destinationZ (p : GroupMemberActionProposal) (g : GroupStanding) (ground : Ground) (b : Body) : Option Float32 :=
  let spaced := decide (0 < g.memberFormationRadius)
  if p.sourceIntent = .roam ∨ spaced then
    if ground.groundZ ≤ invalidHeight then none
    else if 20 < (ground.groundZ - b.z).abs then none
    else if !ground.pathCalculated || ground.noPath || (spaced && ground.incomplete) then none
    else some ground.groundZ
  else some p.z

/-- The facts of a member that is about to act for its group. -/
def coordinationContext (scope : SimulationScope) (record : AgentRecord) (b : Body) (goal : Action.GoalType)
    (startedAtMs : UInt64) : ActionValidationContext where
  scope
  materialized := true
  alive := true
  controlMode := record.controlMode
  activeGoalType := some goal
  activeGoalStartedAtMs := startedAtMs
  mapId := b.mapId
  x := b.x
  y := b.y
  z := b.z
  hasActiveMovement := b.hasActiveMovement

/-- The attempt and its movement begin together, or nothing does. -/
def startCoordination (request : ActionRequest) (context : ActionValidationContext) (goal : GroupCoordinationGoal)
    (previous : Option GroupCoordinationGoal) (nowMs : UInt64) (b : Body) (s : AgentState) : AgentState :=
  if (validate request context).allowed ∧ (b.executeMoveTo request).1 then
    { record := { s.record with
        groupCoordinationGoalState := some goal
        activeActionState := some {
          type := request.type
          sourceGoal := request.sourceGoal
          goalStartedAtMs := request.goalStartedAtMs
          startedAtMs := nowMs
          destination := request.destination
          target := request.target } }
      body := some (b.executeMoveTo request).2 }
  else { s with record := { s.record with groupCoordinationGoalState := previous } }

def dispatchGroupMemberActionProposal (scope : SimulationScope) (p : GroupMemberActionProposal) (g : GroupStanding)
    (ground : Ground) (nowMs : UInt64) (s : AgentState) : AgentState :=
  match p.sourceIntent.sourceGoal, s.body with
  | some sourceGoal, some b =>
    if 1 < g.coordinationEnabledMemberships then s
    else if !g.inSimulation || decide (s.record.controlMode ≠ .aiWorldControlled) || !g.found || !g.stillMember ||
        decide (s.record.worldState ≠ .materialized) || !b.alive then s
    else if s.record.activeGoalState.isSome || s.record.routineGoalState.isSome ||
        s.record.activeActionState.isSome then s
    else if maxCoordinationMoveToRangeYards * maxCoordinationMoveToRangeYards <
        squaredLength (p.x - b.x) (p.y - b.y) (p.z - b.z) then s
    else match destinationZ p g ground b with
      | none => s
      | some z =>
        let request : ActionRequest := {
          type := .moveTo
          sourceGoal
          goalStartedAtMs := nowMs
          destination := some ⟨p.mapId, p.x, p.y, z⟩ }
        startCoordination request (coordinationContext scope s.record b sourceGoal nowMs)
          { type := sourceGoal, sourceGroup := p.sourceGroup, startedAtMs := nowMs } none nowMs b s
  | _, _ => s

/-! ### Hunting -/

/-- A creature as a hunter finds it. -/
structure Prey where
  guid : ObjectGuid
  entry : UInt32
  mapId : UInt32
  x : Float32
  y : Float32
  z : Float32
  alive : Bool
  attackable : Bool
  inSight : Bool

/-- What the engine finds under a guid. -/
def resolve (target : Option Prey) (guid : ObjectGuid) : Option Prey := target.filter (·.guid = guid)

def Prey.position (t : Prey) : ActionPosition Float32 := ⟨t.mapId, t.x, t.y, t.z⟩

/-- The facts of a hunter with its prey before it. -/
def huntContext (scope : SimulationScope) (record : AgentRecord) (b : Body) (t : Prey) (startedAtMs : UInt64) :
    ActionValidationContext :=
  { coordinationContext scope record b .hunt startedAtMs with
    targetResolved := true
    targetAlive := t.alive
    targetAttackable := t.attackable
    targetGuid := t.guid
    targetEntry := t.entry
    targetMapId := t.mapId
    targetX := t.x
    targetY := t.y
    targetZ := t.z }

/-- The attempt that the member already pursues, and has arrived for. -/
def alreadyAtTarget (p : HuntProposal) (goal : GroupCoordinationGoal) : Bool :=
  decide (goal.type = .hunt) && goal.sourceGroup == p.sourceGroup && decide (goal.targetGuid = p.target.targetGuid) &&
    goal.targetEntry == p.target.targetEntry && goal.startedAtMs == p.startedAtMs && decide (goal.phase = .atTarget)

/-- What stands between a hunter and the approach to its prey. -/
def mayApproach (p : HuntProposal) (g : GroupStanding) (ground : Ground) (record : AgentRecord) (b : Body) (t : Prey) :
    Bool :=
  let distanceSq := squaredLength (t.x - b.x) (t.y - b.y) (t.z - b.z)
  t.alive && t.entry == p.target.targetEntry && t.mapId == p.target.mapId && decide (t.guid ≠ b.guid) &&
    t.attackable && (t.x.isFinite && t.y.isFinite && t.z.isFinite) &&
    !(record.groupCoordinationGoalState.isSome && b.isAt t.position) &&
    !decide (g.huntAcquisitionRadius * g.huntAcquisitionRadius < distanceSq) &&
    !decide (maxCoordinationMoveToRangeYards * maxCoordinationMoveToRangeYards < distanceSq) && t.inSight &&
    ground.pathCalculated && !ground.noPath

def dispatchHuntProposal (scope : SimulationScope) (p : HuntProposal) (g : GroupStanding) (target : Option Prey)
    (ground : Ground) (nowMs : UInt64) (s : AgentState) : AgentState :=
  if !g.inSimulation || decide (s.record.controlMode ≠ .aiWorldControlled) || !g.found || g.hasPendingOperation ||
      !g.stillMember || !g.huntEnabled || decide (s.record.worldState ≠ .materialized) then s
  else if s.record.activeGoalState.isSome || s.record.routineGoalState.isSome ||
      s.record.activeActionState.isSome then s
  else if s.record.groupCoordinationGoalState.any fun goal => !alreadyAtTarget p goal then s
  else if 1 < g.coordinationEnabledMemberships then s
  else match s.body, resolve target p.target.targetGuid with
    | some b, some t =>
      if !b.alive || !mayApproach p g ground s.record b t then s
      else
        let request : ActionRequest := {
          type := .moveTo
          sourceGoal := .hunt
          goalStartedAtMs := p.startedAtMs
          destination := some t.position
          target := some ⟨t.guid, t.entry⟩ }
        startCoordination request (huntContext scope s.record b t p.startedAtMs)
          { type := .hunt
            sourceGroup := p.sourceGroup
            startedAtMs := p.startedAtMs
            targetGuid := t.guid
            targetEntry := t.entry
            targetObservedAtMs := p.target.observedAtMs
            phase := .approaching } s.record.groupCoordinationGoalState nowMs b s
    | _, _ => s

/-- A hunter that already fights its prey does not start again; `accepts` is the engine's answer otherwise. -/
def engage (scope : SimulationScope) (goal : GroupCoordinationGoal) (t : Prey) (accepts : Bool) (nowMs : UInt64)
    (b : Body) (s : AgentState) : AgentState :=
  let request : ActionRequest := {
    type := .attack
    sourceGoal := .hunt
    goalStartedAtMs := goal.startedAtMs
    target := some ⟨t.guid, t.entry⟩ }
  let context := { huntContext scope s.record b t goal.startedAtMs with
    hasActiveMovement := false
    actorCurrentVictimGuid := b.victim.getD {}
    targetWithinAttackRange := b.isAt t.position
    targetInLineOfSight := t.inSight }
  let alreadyEngaged := decide (b.victim = some t.guid)
  let attack := b.executeAttack request t.guid accepts
  if !(validate request context).allowed then s
  else if !alreadyEngaged && !attack.1 then s
  else
    { record := { s.record with
        groupCoordinationGoalState := some { goal with phase := .engaging }
        activeActionState := some {
          type := .attack
          sourceGoal := .hunt
          goalStartedAtMs := goal.startedAtMs
          startedAtMs := nowMs
          target := request.target } }
      body := some (if alreadyEngaged then b else attack.2) }

def dispatchHuntAttack (scope : SimulationScope) (group : UInt64) (g : GroupStanding) (target : Option Prey)
    (accepts : Bool) (nowMs : UInt64) (s : AgentState) : AgentState :=
  if decide (s.record.controlMode ≠ .aiWorldControlled) || !g.found || g.hasPendingOperation || !g.stillMember ||
      s.record.activeGoalState.isSome || s.record.routineGoalState.isSome || s.record.activeActionState.isSome then s
  else match s.record.groupCoordinationGoalState, s.body with
    | some goal, some b =>
      if decide (goal.type ≠ .hunt) || goal.sourceGroup != group || decide (goal.phase ≠ .atTarget) ||
          decide (1 < g.coordinationEnabledMemberships) || decide (s.record.worldState ≠ .materialized) ||
          !b.alive then s
      else match resolve target goal.targetGuid with
        | none => s
        | some t =>
          if !t.alive || t.entry != goal.targetEntry || t.mapId != b.mapId || decide (t.guid = b.guid) ||
              g.targetIsGroupMember || !t.attackable then s
          else engage scope goal t accepts nowMs b s
    | _, _ => s

/-- The prey of a hunt is looked at again: a kill ends the hunt well, and a prey that is none ends it. -/
def reconcileActiveHuntTarget (group : UInt64) (target : Option Prey) (nowMs : UInt64) (s : AgentState) : AgentState :=
  match s.record.groupCoordinationGoalState, s.body with
  | some goal, some b =>
    if decide (goal.type ≠ .hunt) || goal.sourceGroup != group || decide (s.record.worldState ≠ .materialized) then s
    else if decide (goal.phase = .engaging) && (resolve target goal.targetGuid).any fun t => !t.alive then
      let owns := s.record.activeActionState.any fun action =>
        decide (action.type = .attack) && decide (action.sourceGoal = .hunt) &&
          action.goalStartedAtMs == goal.startedAtMs && action.target.any fun t => t.guid = goal.targetGuid
      { record := handleActionCompletion s.record {
          type := .attack
          sourceGoal := .hunt
          goalStartedAtMs := goal.startedAtMs
          status := .succeeded
          reason := .targetDefeated
          completedAtMs := nowMs }
        body := some (if owns then b.stopAttack goal.targetGuid else b) }
    else if (resolve target goal.targetGuid).any fun t =>
        t.alive && t.mapId == b.mapId && t.entry == goal.targetEntry && t.attackable then s
    else stopInFlightGroupCoordination .stoppedByTargetInvalid nowMs s
  | _, _ => s

end AIWorld.Goal
