import AIWorld.Quest.PlayerCompletion
import AIWorld.Quest.TaskRequest

/-! The part of the server that keeps dynamic quests: it asks for tasks, turns answers
into offers, lets players accept them and turn them in, counts kills and reclaims what
has run out. Every operation reads the live world anew; what it finds there, and what a
change of a player's money really did, are inputs. -/

namespace AIWorld.Quest

open Std (ExtTreeMap)
open Inference (DynamicTaskResponse QuestProposalDraft)
open Memory (MemoryRecord RetrievedMemory WorldEntityRef)

/-! ### Kill events -/

structure DynamicQuestKillEvent where
  eventId : UInt64 := 0
  killerGuid : ObjectGuid := {}
  victimGuid : ObjectGuid := {}
  victimEntry : UInt32 := 0
  mapId : UInt32 := 0
  deriving DecidableEq

structure DynamicQuestKillEventBus where
  nextEventId : UInt64 := 1
  droppedEvents : UInt64 := 0
  pending : List DynamicQuestKillEvent := []

namespace DynamicQuestKillEventBus

def maxPendingEvents : ℕ := 16384

/-- A dropped event takes no id. -/
def publish (bus : DynamicQuestKillEventBus) (event : DynamicQuestKillEvent) :
    Bool × DynamicQuestKillEventBus :=
  if maxPendingEvents ≤ bus.pending.length then
    (false, { bus with droppedEvents := bus.droppedEvents + 1 })
  else (true, { bus with
    nextEventId := bus.nextEventId + 1
    pending := bus.pending ++ [{ event with eventId := bus.nextEventId }] })

def drain (bus : DynamicQuestKillEventBus) :
    List DynamicQuestKillEvent × DynamicQuestKillEventBus :=
  (bus.pending, { bus with pending := [] })

end DynamicQuestKillEventBus

/-! ### Outcomes -/

structure WorldEvent where
  eventId : UInt64 := 0
  correlationId : UInt64 := 0
  causeEventId : UInt64 := 0
  type : WorldEventType := .creatureKilled
  location : WorldEventLocation := {}
  actor : WorldEntityRef := {}
  target : WorldEntityRef := {}
  deriving DecidableEq

def toOutcomeEventType : DynamicQuestState → Option WorldEventType
  | .completed => some .dynamicQuestCompleted
  | .failed => some .dynamicQuestFailed
  | .expired => some .dynamicQuestExpired
  | .offered | .active => none

/-- Only a completion is something the player did. -/
def buildDynamicQuestOutcomeWorldEvent (q : DynamicQuestInstance) (location : WorldEventLocation) :
    Option WorldEvent :=
  (toOutcomeEventType q.state).map fun type => {
    eventId := 0
    correlationId := q.sourceCorrelationId
    causeEventId := q.sourceEventId
    type
    location
    actor := if q.state = .completed then { guid := q.acceptedByPlayerGuid } else {}
    target := { agent := q.giver, guid := q.giverRuntimeGuid } }

/-- An outcome that was handed to the event bus, with the instance it is about. -/
structure Publication where
  quest : DynamicQuestInstance
  event : WorldEvent
  deriving DecidableEq

def publishDynamicQuestOutcome (q : DynamicQuestInstance) (location : WorldEventLocation) :
    List Publication :=
  match buildDynamicQuestOutcomeWorldEvent q location with
  | none => []
  | some event => [⟨q, event⟩]

/-- Where the giver stands, or stood when it made the offer. -/
def resolveDynamicQuestOutcomeLocation (w : World) (q : DynamicQuestInstance) : WorldEventLocation :=
  match w.record q.giver, w.creature q.giver with
  | some _, some giver =>
    if giver.guid = q.giverRuntimeGuid then giver.location else q.giverLocationAtOffer
  | _, _ => q.giverLocationAtOffer

/-! ### Applicability -/

inductive DynamicQuestCreateReason where
  | notAttempted | none | registryFull | giverMissing | giverChanged | giverUnavailable
  | targetMissing | targetChanged | targetUnavailable | targetOutOfRange | idExhausted | offerRejected
  deriving DecidableEq

structure DynamicQuestGiverFacts where
  recordExists : Bool := false
  materialized : Bool := false
  aiWorldControlled : Bool := false
  alive : Bool := false
  runtimeGuid : ObjectGuid := {}

structure DynamicQuestTargetFacts where
  resolved : Bool := false
  alive : Bool := false
  attackable : Bool := false
  entry : UInt32 := 0
  mapId : UInt32 := 0
  giverToTargetDistanceYards : Float32 := 0

def checkDynamicQuestCreateApplicability (proposal : ValidatedProposal)
    (giver : DynamicQuestGiverFacts) (target : DynamicQuestTargetFacts) : DynamicQuestCreateReason :=
  if !giver.recordExists then .giverMissing
  else if giver.runtimeGuid ≠ proposal.giverRuntimeGuid then .giverChanged
  else if !giver.materialized || !giver.aiWorldControlled || !giver.alive then .giverUnavailable
  else if !target.resolved then .targetMissing
  else if target.entry ≠ proposal.targetEntry ∨ target.mapId ≠ proposal.targetMapId then .targetChanged
  else if !target.alive || !target.attackable then .targetUnavailable
  else if !target.giverToTargetDistanceYards.isFinite || target.giverToTargetDistanceYards < 0 ||
      proposal.maxRangeYards < target.giverToTargetDistanceYards then .targetOutOfRange
  else .none

inductive DynamicQuestPlayerAcceptReason where
  | notAttempted | none | questNotFound | playerInvalid | giverMissing | giverChanged
  | giverUnavailable | outOfRange | interactionRangeInvalid | acceptRejected
  deriving DecidableEq

structure DynamicQuestPlayerFacts where
  isPlayerGuid : Bool := false
  resolved : Bool := false
  alive : Bool := false
  mapId : UInt32 := 0

structure DynamicQuestGiverAcceptFacts where
  recordExists : Bool := false
  materialized : Bool := false
  aiWorldControlled : Bool := false
  alive : Bool := false
  runtimeGuid : ObjectGuid := {}
  mapId : UInt32 := 0

def checkDynamicQuestPlayerAcceptApplicability (q : DynamicQuestInstance)
    (player : DynamicQuestPlayerFacts) (giver : DynamicQuestGiverAcceptFacts)
    (playerToGiverDistanceYards maxInteractionRangeYards : Float32) : DynamicQuestPlayerAcceptReason :=
  if !player.isPlayerGuid || !player.resolved || !player.alive then .playerInvalid
  else if !giver.recordExists then .giverMissing
  else if giver.runtimeGuid ≠ q.giverRuntimeGuid then .giverChanged
  else if !giver.materialized || !giver.aiWorldControlled || !giver.alive then .giverUnavailable
  else if player.mapId ≠ giver.mapId then .outOfRange
  else if !maxInteractionRangeYards.isFinite || maxInteractionRangeYards < 1 then
    .interactionRangeInvalid
  else if !playerToGiverDistanceYards.isFinite || playerToGiverDistanceYards < 0 ||
      maxInteractionRangeYards < playerToGiverDistanceYards then .outOfRange
  else .none

/-! ### The manager -/

structure DynamicQuestManager where
  pending : ExtTreeMap UInt64 PendingDynamicTaskRequest := ∅
  registry : DynamicQuestRegistry := {}
  nextDynamicQuestId : UInt64 := 1
  maintenanceCursor : UInt64 := 0
  maintenanceCycleHighWater : UInt64 := 0
  killEventBus : DynamicQuestKillEventBus := {}
  lastObservedKillDropCount : UInt64 := 0

/-- The next id and the counter after it; an exhausted counter stays at zero. -/
def advanceDynamicQuestIdCounter (counter : UInt64) : UInt64 × UInt64 :=
  if counter = 0 then (0, 0) else if counter = uint64Max then (counter, 0) else (counter, counter + 1)

namespace DynamicQuestManager

variable (c : Settings) (w : World)

/-- `requestId` is what the client answers to a submission: zero when it refuses. -/
def trySubmitDynamicTask (s : DynamicQuestManager) (record : GiverRecord) (creature : LiveCreature)
    (source : MemoryRecord) (retrieved : List RetrievedMemory) (nowMs requestId : UInt64) :
    Bool × DynamicQuestManager :=
  if !c.dynamicTaskEnabled || !c.remoteInferenceEnabled || !c.hasClient || !record.member then (false, s)
  else if s.pending.contains record.id then (false, s)
  else if c.maxInFlight.toNat ≤ s.pending.size then (false, s)
  else match buildDynamicTaskRequest c w record creature source retrieved nowMs with
    | none => (false, s)
    | some (context, provenance) =>
      if requestId = 0 then (false, s)
      else
        let pending : PendingDynamicTaskRequest := { requestId, submittedAtMs := nowMs, context, provenance }
        (true, { s with pending := s.pending.insert record.id pending })

def giverFacts (giver : UInt64) : DynamicQuestGiverFacts :=
  match w.record giver with
  | none => {}
  | some record =>
    let facts : DynamicQuestGiverFacts := {
      recordExists := true
      materialized := record.materialized
      aiWorldControlled := record.controlMode = .aiWorldControlled }
    match w.creature giver with
    | none => facts
    | some creature => { facts with alive := creature.alive, runtimeGuid := creature.guid }

def targetFacts (proposal : ValidatedProposal) : DynamicQuestTargetFacts :=
  match w.record proposal.giver, w.creature proposal.giver with
  | some _, some giver =>
    match w.target proposal.giver proposal.targetGuid with
    | none => {}
    | some target => {
      resolved := true
      alive := target.alive
      attackable := !target.isSelf && target.mapId = giver.mapId && target.attackable
      entry := target.entry
      mapId := target.mapId
      giverToTargetDistanceYards := target.distanceYards }
  | _, _ => {}

/-- The id of the offer that a proposal became. -/
def createDynamicQuestOffer (s : DynamicQuestManager) (proposal : ValidatedProposal) (nowMs : UInt64) :
    (DynamicQuestCreateReason × Option UInt64) × DynamicQuestManager :=
  if c.maxLive ≤ s.registry.getCount then ((.registryFull, none), s)
  else
    let applicability :=
      checkDynamicQuestCreateApplicability proposal (giverFacts w proposal.giver) (targetFacts w proposal)
    if applicability ≠ .none then ((applicability, none), s)
    else
      let location := ((w.creature proposal.giver).map LiveCreature.location).getD {}
      let (id, counter) := advanceDynamicQuestIdCounter s.nextDynamicQuestId
      let s := { s with nextDynamicQuestId := counter }
      if id = 0 then ((.idExhausted, none), s)
      else
        let (result, registry) := s.registry.offer id proposal.toQuestProposal location nowMs
        if !result.isAccepted then ((.offerRejected, none), { s with registry })
        else ((.none, some id), { s with registry })

/-- The first active memory of the event a request was made from. -/
def sourceMemory (memories : List MemoryRecord) (provenance : QuestRequestProvenance) :
    Option MemoryRecord :=
  memories.find? fun memory =>
    memory.owner = provenance.agent ∧ memory.sourceEventId = provenance.sourceEventId ∧
      memory.correlationId = provenance.sourceCorrelationId ∧
      memory.sourceOccurredAtMs = provenance.sourceOccurredAtMs ∧
      memory.sourceEventType = some provenance.sourceEventType

def onDynamicTaskCandidateAccepted (s : DynamicQuestManager) (candidate : DynamicTaskCandidate)
    (facts : DynamicTaskAuthoritativeFacts) (offerMs : UInt64) : Option UInt64 × DynamicQuestManager :=
  match validateDynamicTaskCandidate candidate c.limits facts with
  | (.none, some proposal) =>
    let ((_, id), s) := createDynamicQuestOffer c w s proposal offerMs
    (id, s)
  | _ => (none, s)

/-- The checks of a response whose pending request was consumed, up to the candidate that is
validated. -/
def judgeResponse (pending : PendingDynamicTaskRequest) (requestId agent : UInt64)
    (draft : QuestProposalDraft Float32) (nowMs : UInt64) :
    Option (DynamicTaskCandidate × DynamicTaskAuthoritativeFacts) :=
  match w.record agent with
  | none => none
  | some record =>
    if !c.remoteInferenceEnabled || !record.member || !record.materialized ||
        record.controlMode ≠ .aiWorldControlled then none
    else match w.creature agent with
      | none => none
      | some creature =>
        if record.runtimeGuid.isEmpty || record.runtimeGuid ≠ pending.provenance.runtimeGuid ||
            creature.guid ≠ pending.provenance.runtimeGuid then none
        else
          let source := sourceMemory (w.memories agent) pending.provenance
          let state : DynamicTaskAcceptanceState := {
            currentSnapshotSequence := record.snapshotSequence
            currentRuntimeGuid := creature.guid
            currentGoal := record.activeGoal.map Prod.fst
            currentGoalStartedAtMs := (record.activeGoal.map Prod.snd).getD 0
            sourceEventStillActive := source.isSome
            sourceEventMaxAgeMs := c.sourceMaxAgeMs
            nowMs
            responseMaxAgeMs := c.responseMaxAgeMs }
          if checkDynamicTaskResponseAcceptance pending draft state ≠ .none then none
          else match firstBinding pending.provenance.targetBindings draft.targetToken, source with
            | some binding, some source =>
              match w.target agent binding.guid, source.sourceEventType with
              | some target, some type =>
                if !target.alive || target.entry ≠ binding.entry || target.mapId ≠ binding.mapId ||
                    target.mapId ≠ creature.mapId || target.isSelf || !target.attackable then none
                else some ({
                    requestId
                    acceptedAtMs := nowMs
                    requestContext := pending.context
                    provenance := pending.provenance
                    draft }, {
                    source := {
                      type
                      actorEntry := source.actor.entry
                      targetEntry := source.target.entry
                      mapId := source.location.mapId }
                    target := {
                      entry := target.entry
                      mapId := target.mapId
                      giverToTargetDistanceYards := target.distanceYards } })
              | _, _ => none
            | _, _ => none

/-- A response consumes the pending request that it names, whatever becomes of it. -/
def handleDynamicTaskResponse (s : DynamicQuestManager) (requestId agent : UInt64) (success : Bool)
    (response : Option (DynamicTaskResponse Float32)) (nowMs offerMs : UInt64) :
    Option UInt64 × DynamicQuestManager :=
  match s.pending[agent]? with
  | none => (none, s)
  | some pending =>
    if pending.requestId ≠ requestId then (none, s)
    else
      let s := { s with pending := s.pending.erase agent }
      if !success then (none, s)
      else match response with
        | none => (none, s)
        | some response =>
          match judgeResponse c w pending requestId agent response.proposal nowMs with
          | none => (none, s)
          | some (candidate, facts) => onDynamicTaskCandidateAccepted c w s candidate facts offerMs

/-! ### Players -/

/-- `FindPlayer`: who is in the world under a player's identity. -/
def online (playerGuid : ObjectGuid) : Option LivePlayer :=
  if playerGuid.isPlayer then w.player playerGuid else none

/-- What a player has on hand. -/
def balance (playerGuid : ObjectGuid) : UInt32 := ((online w playerGuid).map LivePlayer.money).getD 0

/-- The live creature of a registered giver. -/
def giverCreature (giver : UInt64) : Option LiveCreature :=
  (w.record giver).bind fun _ => w.creature giver

/-- The distance of a player from a giver on the same map; infinite when there is none. -/
def playerToGiverDistance (playerGuid : ObjectGuid) (giver : UInt64) : Float32 :=
  match online w playerGuid, giverCreature w giver with
  | some player, some creature =>
    if player.mapId = creature.mapId then w.distance playerGuid giver else 1 / 0
  | _, _ => 1 / 0

def playerFacts (playerGuid : ObjectGuid) : DynamicQuestPlayerFacts :=
  match online w playerGuid with
  | none => { isPlayerGuid := playerGuid.isPlayer }
  | some player => {
    isPlayerGuid := playerGuid.isPlayer
    resolved := true
    alive := player.alive
    mapId := player.mapId }

def giverAcceptFacts (giver : UInt64) : DynamicQuestGiverAcceptFacts :=
  let facts := giverFacts w giver
  { recordExists := facts.recordExists
    materialized := facts.materialized
    aiWorldControlled := facts.aiWorldControlled
    alive := facts.alive
    runtimeGuid := facts.runtimeGuid
    mapId := ((giverCreature w giver).map LiveCreature.mapId).getD 0 }

def acceptDynamicQuestForPlayer (s : DynamicQuestManager) (id : UInt64) (playerGuid : ObjectGuid)
    (nowMs : UInt64) : DynamicQuestPlayerAcceptReason × DynamicQuestManager :=
  match s.registry.find id with
  | none => (.questNotFound, s)
  | some q =>
    let applicability := checkDynamicQuestPlayerAcceptApplicability q (playerFacts w playerGuid)
      (giverAcceptFacts w q.giver) (playerToGiverDistance w playerGuid q.giver)
      c.playerAcceptMaxRangeYards
    if applicability ≠ .none then (applicability, s)
    else
      let (result, registry) := s.registry.accept id playerGuid nowMs
      if !result.isAccepted then (.acceptRejected, { s with registry })
      else (.none, { s with registry })

/-- What a call that changes a player's money answers, and the balance it leaves: scripts may
change the amount. -/
abbrev MoneyChange := UInt32 → ℤ → Bool × UInt32

/-- The narrowing of a 64-bit difference. -/
def toInt32 (x : ℤ) : ℤ := x.bmod (2 ^ 32)

/-- Put the balance back; if that cannot be shown, the quest is never paid again. -/
def compensateDynamicQuestReward (s : DynamicQuestManager) (id nowMs : UInt64)
    (moneyNow moneyBeforeReward : UInt32) (modifyMoney : MoneyChange) :
    Bool × UInt32 × List Publication × DynamicQuestManager :=
  let actualDelta : ℤ := moneyNow.toNat - moneyBeforeReward.toNat
  let (compensated, money) :=
    if actualDelta = 0 then (true, moneyNow) else modifyMoney moneyNow (toInt32 (-actualDelta))
  if compensated && money = moneyBeforeReward then (true, money, [], s)
  else
    let (termination, registry) := s.registry.terminateForReplayContainment id nowMs
    let published :=
      match termination.failedInstance with
      | none => []
      | some q => publishDynamicQuestOutcome q (resolveDynamicQuestOutcomeLocation w q)
    (false, money, published, { s with registry })

def maxMoneyAmount : UInt32 := 0x7FFFFFFF

/-- The answer, the player's balance, what was published and the state after a turn-in. -/
structure TurnIn where
  reason : DynamicQuestPlayerCompleteReason
  money : UInt32
  published : List Publication := []
  manager : DynamicQuestManager

def playerCompleteFacts (playerGuid : ObjectGuid) : DynamicQuestPlayerCompleteFacts :=
  match online w playerGuid with
  | none => { isPlayerGuid := playerGuid.isPlayer }
  | some player => {
    isPlayerGuid := playerGuid.isPlayer
    resolved := true
    alive := player.alive
    mapId := player.mapId
    money := player.money }

def giverCompleteFacts (giver : UInt64) : DynamicQuestGiverCompleteFacts :=
  let facts := giverFacts w giver
  { recordExists := facts.recordExists
    materialized := facts.materialized
    aiWorldControlled := facts.aiWorldControlled
    alive := facts.alive
    runtimeGuid := facts.runtimeGuid
    mapId := ((giverCreature w giver).map LiveCreature.mapId).getD 0 }

/-- The part of a turn-in that moves money: the reward is paid before the registry completes the
quest, and taken back when it was not paid exactly. -/
def payReward (s : DynamicQuestManager) (id : UInt64) (q : DynamicQuestInstance) (money : UInt32)
    (completionLocation : WorldEventLocation) (grant revert : MoneyChange) (nowMs : UInt64) : TurnIn :=
  let reward := q.rewardMoneyCopper
  let (rewardGranted, paid) := if reward = 0 then (true, money) else grant money reward.toNat
  if !rewardGranted || paid.toNat ≠ money.toNat + reward.toNat then
    match compensateDynamicQuestReward w s id nowMs paid money revert with
    | (false, money, published, s) => ⟨.rewardApplicationFailed, money, published, s⟩
    | (true, money, published, s) =>
      ⟨if rewardGranted then .rewardApplicationFailed else .rewardMoneyLimit, money, published, s⟩
  else
    let (result, registry) := s.registry.complete id nowMs
    match result.isAccepted, result.result with
    | true, some completed =>
      ⟨.none, paid, publishDynamicQuestOutcome completed completionLocation,
        { s with registry := (registry.remove id).2 }⟩
    | _, _ =>
      match compensateDynamicQuestReward w { s with registry } id nowMs paid money revert with
      | (false, money, published, s) => ⟨.rewardApplicationFailed, money, published, s⟩
      | (true, money, published, s) => ⟨.completeRejected, money, published, s⟩

def completeDynamicQuestForPlayer (s : DynamicQuestManager) (id : UInt64) (playerGuid : ObjectGuid)
    (grant revert : MoneyChange) (nowMs : UInt64) : TurnIn :=
  match s.registry.find id with
  | none => ⟨.questNotFound, balance w playerGuid, [], s⟩
  | some q =>
    let applicability := checkDynamicQuestPlayerCompleteApplicability q playerGuid
      (playerCompleteFacts w playerGuid) (giverCompleteFacts w q.giver)
      (playerToGiverDistance w playerGuid q.giver) c.playerAcceptMaxRangeYards maxMoneyAmount nowMs
    if applicability ≠ .none then ⟨applicability, balance w playerGuid, [], s⟩
    else if !(completeDynamicQuest q nowMs).isAccepted then
      ⟨.completeRejected, balance w playerGuid, [], s⟩
    else
      payReward w s id q (balance w playerGuid)
        (((giverCreature w q.giver).map LiveCreature.location).getD {}) grant revert nowMs

/-! ### Maintenance -/

/-- The body of the loop over the discovered ids. -/
def expireOne (nowMs : UInt64) (s : List Publication × DynamicQuestRegistry) (id : UInt64) :
    List Publication × DynamicQuestRegistry :=
  match s.2.find id with
  | none => s
  | some q =>
    if q.state ≠ .offered ∧ q.state ≠ .active then s
    else if !isDynamicQuestExpired q nowMs then s
    else
      let (result, registry) := s.2.expire id nowMs
      match result.isAccepted, result.result with
      | true, some expired =>
        (s.1 ++ publishDynamicQuestOutcome expired (resolveDynamicQuestOutcomeLocation w expired),
          (registry.remove id).2)
      | _, _ => (s.1, registry)

/-- The ids of one pass, with the cursor and the end of the cycle that they belong to. -/
def discover (s : DynamicQuestManager) : List UInt64 × DynamicQuestManager :=
  let s := if s.maintenanceCursor = 0 then
    { s with maintenanceCycleHighWater := s.registry.getHighestId } else s
  let discovered := s.registry.getIdsAfterUntil s.maintenanceCursor s.maintenanceCycleHighWater
    c.maintenanceScanMaxPerPass
  if discovered = [] ∧ s.maintenanceCursor ≠ 0 then
    let s := { s with maintenanceCursor := 0, maintenanceCycleHighWater := s.registry.getHighestId }
    (s.registry.getIdsAfterUntil s.maintenanceCursor s.maintenanceCycleHighWater
      c.maintenanceScanMaxPerPass, s)
  else (discovered, s)

def runDynamicQuestMaintenance (s : DynamicQuestManager) (nowMs : UInt64) :
    List Publication × DynamicQuestManager :=
  let (discovered, s) := discover c s
  let s := { s with maintenanceCursor := discovered.getLast?.getD s.maintenanceCursor }
  let (published, registry) := discovered.foldl (expireOne w nowMs) ([], s.registry)
  (published, { s with registry })

/-! ### Kills -/

def processDynamicQuestKillProgress (nowMs : UInt64) (registry : DynamicQuestRegistry)
    (event : DynamicQuestKillEvent) : DynamicQuestRegistry :=
  if !event.killerGuid.isPlayer then registry
  else (registry.findActiveByPlayerAndVictimEntry event.killerGuid event.victimEntry event.mapId).foldl
    (fun registry id => (registry.applyProgress id event.killerGuid event.eventId nowMs).2) registry

/-- The loop of an update over the drained events. -/
def drainKillEvents (s : DynamicQuestManager) (nowMs : DynamicQuestKillEvent → UInt64) :
    DynamicQuestManager :=
  let (events, killEventBus) := s.killEventBus.drain
  { s with
    killEventBus
    registry := events.foldl
      (fun registry event => processDynamicQuestKillProgress (nowMs event) registry event) s.registry }

/-- The loop over the failed instances: publish, then remove. -/
def removeFailed (s : List Publication × DynamicQuestRegistry) (q : DynamicQuestInstance) :
    List Publication × DynamicQuestRegistry :=
  (s.1 ++ publishDynamicQuestOutcome q (resolveDynamicQuestOutcomeLocation w q), (s.2.remove q.id).2)

def forceFailAllActiveDynamicQuests (s : DynamicQuestManager) (nowMs : UInt64) :
    List Publication × DynamicQuestManager :=
  let (failed, registry) := s.registry.failAllActiveInstances nowMs
  let (published, registry) := failed.foldl (removeFailed w) ([], registry)
  (published, { s with registry })

/-- A kill that was dropped fails every active quest: its credit cannot be told. -/
def reclaimDynamicQuestsAfterKillCreditLoss (s : DynamicQuestManager) (nowMs : UInt64) :
    List Publication × DynamicQuestManager :=
  let droppedCount := s.killEventBus.droppedEvents
  if droppedCount ≤ s.lastObservedKillDropCount then ([], s)
  else forceFailAllActiveDynamicQuests w { s with lastObservedKillDropCount := droppedCount } nowMs

end DynamicQuestManager

/-! ### The manager as a machine -/

inductive ManagerInput where
  | submit (w : World) (record : GiverRecord) (creature : LiveCreature) (source : MemoryRecord)
      (retrieved : List RetrievedMemory) (nowMs requestId : UInt64)
  | respond (w : World) (requestId agent : UInt64) (success : Bool)
      (response : Option (DynamicTaskResponse Float32)) (nowMs offerMs : UInt64)
  | accept (w : World) (id : UInt64) (playerGuid : ObjectGuid) (nowMs : UInt64)
  | complete (w : World) (id : UInt64) (playerGuid : ObjectGuid)
      (grant revert : DynamicQuestManager.MoneyChange) (nowMs : UInt64)
  | maintain (w : World) (nowMs : UInt64)
  | kill (event : DynamicQuestKillEvent)
  | drain (nowMs : DynamicQuestKillEvent → UInt64)
  | reclaim (w : World) (nowMs : UInt64)

/-- What a call answers, and the outcomes it published. -/
structure ManagerOutput where
  submitted : Bool := false
  created : Option UInt64 := none
  accepted : DynamicQuestPlayerAcceptReason := .notAttempted
  completed : DynamicQuestPlayerCompleteReason := .notAttempted
  money : UInt32 := 0
  published : List Publication := []

def managerStep (c : Settings) (s : DynamicQuestManager) :
    ManagerInput → ManagerOutput × DynamicQuestManager
  | .submit w record creature source retrieved nowMs requestId =>
    let (submitted, s) := s.trySubmitDynamicTask c w record creature source retrieved nowMs requestId
    ({ submitted }, s)
  | .respond w requestId agent success response nowMs offerMs =>
    let (created, s) := s.handleDynamicTaskResponse c w requestId agent success response nowMs offerMs
    ({ created }, s)
  | .accept w quest playerGuid nowMs =>
    let (accepted, s) := s.acceptDynamicQuestForPlayer c w quest playerGuid nowMs
    ({ accepted }, s)
  | .complete w quest playerGuid grant revert nowMs =>
    let turnIn := s.completeDynamicQuestForPlayer c w quest playerGuid grant revert nowMs
    ({ completed := turnIn.reason, money := turnIn.money, published := turnIn.published }, turnIn.manager)
  | .maintain w nowMs =>
    let (published, s) := s.runDynamicQuestMaintenance c w nowMs
    ({ published }, s)
  | .kill event => ({}, { s with killEventBus := (s.killEventBus.publish event).2 })
  | .drain nowMs => ({}, s.drainKillEvents nowMs)
  | .reclaim w nowMs =>
    let (published, s) := s.reclaimDynamicQuestsAfterKillCreditLoss w nowMs
    ({ published }, s)

/-- Runs of the manager. -/
def manager (c : Settings) : Lib.Machine DynamicQuestManager ManagerInput ManagerOutput :=
  ⟨fun s i => some (managerStep c s i)⟩

abbrev Trace := List (Lib.Event DynamicQuestManager ManagerInput ManagerOutput)

/-- The event that a call makes in a run. -/
abbrev callEvent (c : Settings) (s : DynamicQuestManager) (i : ManagerInput) :
    Lib.Event DynamicQuestManager ManagerInput ManagerOutput :=
  ⟨s, i, (managerStep c s i).1, (managerStep c s i).2⟩

end AIWorld.Quest
