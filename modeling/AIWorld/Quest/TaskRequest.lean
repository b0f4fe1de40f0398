import AIWorld.Action.ActionRequest
import AIWorld.Inference.DynamicTaskRequest
import AIWorld.Inference.DynamicTaskResponse
import AIWorld.Memory.MemoryRecord

/-! From a remembered event to a proposal. A request names its targets by tokens that
only the server can resolve, a response is judged against what was asked, and a draft
becomes a proposal only under the limits of the day it is answered. What is read of the
live world is passed in. -/

namespace AIWorld.Quest

open Lib.Json (Bytes)
open Inference (QuestContext QuestProblemContext QuestProposalDraft QuestProposalLimits
  QuestRelevantEvent QuestTargetCandidate questContractMaxDescriptionLength questContractMaxTitleLength)
open Memory (MemoryRecord RetrievedMemory)
open AIWorld.Action (AgentControlMode GoalType)

/-! ### What is read of the world -/

/-- The record of an agent that gives quests. -/
structure GiverRecord where
  id : UInt64
  member : Bool
  materialized : Bool
  controlMode : AgentControlMode
  runtimeGuid : ObjectGuid
  snapshotSequence : UInt64
  activeGoal : Option (GoalType × UInt64)

/-- The live creature of an agent. -/
structure LiveCreature where
  guid : ObjectGuid
  alive : Bool
  location : WorldEventLocation

def LiveCreature.mapId (creature : LiveCreature) : UInt32 := creature.location.mapId

/-- Another creature, as one agent's creature finds it. -/
structure LiveTarget where
  guid : ObjectGuid
  entry : UInt32
  mapId : UInt32
  alive : Bool
  isSelf : Bool
  attackable : Bool
  distanceYards : Float32
  name : Bytes

structure LivePlayer where
  alive : Bool
  mapId : UInt32
  money : UInt32

/-- One reading of the live world: the record, the creature and the active short-term
memories of an agent, what its creature finds under an identity, who is online, and how
far a player is from an agent's creature. -/
structure World where
  record : UInt64 → Option GiverRecord
  creature : UInt64 → Option LiveCreature
  memories : UInt64 → List MemoryRecord
  target : UInt64 → ObjectGuid → Option LiveTarget
  player : ObjectGuid → Option LivePlayer
  distance : ObjectGuid → UInt64 → Float32

/-! ### Requests -/

def questContractMaxRelevantEvents : ℕ := 8

def questContractMaxCandidateTargets : ℕ := 16

def questContractMaxDisplayNameLength : ℕ := 64

def uint32Max : UInt64 := 0xFFFFFFFF

structure QuestTargetBinding where
  token : UInt32
  guid : ObjectGuid
  entry : UInt32
  mapId : UInt32
  deriving DecidableEq

structure QuestRequestProvenance where
  agent : UInt64
  snapshotSequence : UInt64
  runtimeGuid : ObjectGuid
  goal : Option GoalType
  goalStartedAtMs : UInt64
  sourceEventId : UInt64
  sourceCorrelationId : UInt64
  sourceEventType : WorldEventType
  sourceOccurredAtMs : UInt64
  targetBindings : List QuestTargetBinding

structure PendingDynamicTaskRequest where
  requestId : UInt64
  submittedAtMs : UInt64
  context : QuestContext Float32
  provenance : QuestRequestProvenance

/-- The server's own limits; a request carries a copy of them as `QuestProposalLimits`. -/
structure DynamicTaskAuthoritativeLimits where
  maxRequiredCount : UInt32
  maxRangeYards : Float32
  maxExpiryMs : UInt32
  maxRewardMoneyCopper : UInt32

/-- What the configuration sets for dynamic tasks and dynamic quests. -/
structure Settings where
  dynamicTaskEnabled : Bool
  remoteInferenceEnabled : Bool
  hasClient : Bool
  maxInFlight : UInt32
  responseMaxAgeMs : UInt64
  sourceMaxAgeMs : UInt64
  limits : DynamicTaskAuthoritativeLimits
  maxLive : UInt32
  playerAcceptMaxRangeYards : Float32
  maintenanceScanMaxPerPass : UInt32

/-- A creature that was seen, if it can be named in a request now, with how long ago it was seen. -/
def candidateTarget (w : World) (agent : UInt64) (creature : LiveCreature) (nowMs : UInt64)
    (memory : MemoryRecord) : Option (LiveTarget × UInt32) :=
  if memory.type ≠ .creatureSeen then none
  else if memory.target.guid.isEmpty then none
  else match w.target agent memory.target.guid with
    | none => none
    | some target =>
      let observationAgeMs :=
        if memory.lastObservedAtMs ≤ nowMs then nowMs - memory.lastObservedAtMs else 0
      if !target.alive then none
      else if target.isSelf then none
      else if target.mapId ≠ creature.mapId then none
      else if target.entry ≠ memory.target.entry then none
      else if !target.attackable then none
      else if !target.distanceYards.isFinite then none
      else if questContractMaxDisplayNameLength < target.name.length then none
      else if uint32Max < observationAgeMs then none
      else some (target, observationAgeMs.toUInt32)

/-- The loop over the memories: each target found takes the next token. -/
def collectTargets (fits : MemoryRecord → Option (LiveTarget × UInt32)) :
    List MemoryRecord → List (QuestTargetCandidate Float32) → List QuestTargetBinding → UInt32 →
      List (QuestTargetCandidate Float32) × List QuestTargetBinding
  | [], candidates, bindings, _ => (candidates, bindings)
  | memory :: memories, candidates, bindings, nextToken =>
    if questContractMaxCandidateTargets ≤ candidates.length then (candidates, bindings)
    else match fits memory with
      | none => collectTargets fits memories candidates bindings nextToken
      | some (target, observationAgeMs) =>
        collectTargets fits memories
          (candidates ++ [{
            token := nextToken
            entry := target.entry
            displayName := target.name
            mapId := target.mapId
            distanceYards := target.distanceYards
            observationAgeMs }])
          (bindings ++ [⟨nextToken, target.guid, target.entry, target.mapId⟩]) (nextToken + 1)

/-- An event that is shown to the model, if its memory is backed by one. -/
def relevantEvent (nowMs : UInt64) (memory : RetrievedMemory) : Option (QuestRelevantEvent Float32) :=
  match memory.sourceEventType with
  | none => none
  | some type =>
    if !memory.importance.isFinite || !memory.relevance.isFinite then none
    else if memory.sourceOccurredAtMs = 0 ∨ nowMs < memory.sourceOccurredAtMs then none
    else if uint32Max < nowMs - memory.sourceOccurredAtMs then none
    else some {
      type
      actorEntry := memory.actor.entry
      targetEntry := memory.target.entry
      importance := memory.importance
      relevance := memory.relevance
      ageMs := (nowMs - memory.sourceOccurredAtMs).toUInt32 }

def buildDynamicTaskRequest (c : Settings) (w : World) (record : GiverRecord) (creature : LiveCreature)
    (source : MemoryRecord) (retrieved : List RetrievedMemory) (nowMs : UInt64) :
    Option (QuestContext Float32 × QuestRequestProvenance) :=
  match source.sourceEventType with
  | none => none
  | some sourceEventType =>
    if !record.member then none
    else if source.owner ≠ record.id then none
    else if source.type ≠ .worldEvent then none
    else if source.sourceEventId = 0 then none
    else if source.sourceOccurredAtMs = 0 ∨ nowMs < source.sourceOccurredAtMs then none
    else if c.sourceMaxAgeMs < nowMs - source.sourceOccurredAtMs then none
    else if record.controlMode ≠ .aiWorldControlled then none
    else if !creature.alive then none
    else if uint32Max < nowMs - source.sourceOccurredAtMs then none
    else
      let (candidateTargets, targetBindings) :=
        collectTargets (candidateTarget w record.id creature nowMs) (w.memories record.id) [] [] 1
      if candidateTargets.length = 0 then none
      else
        let snapshotSequence := record.snapshotSequence + 1
        some ({
          agent := record.id
          snapshotSequence
          problem := {
            type := sourceEventType
            actorEntry := source.actor.entry
            targetEntry := source.target.entry
            mapId := source.location.mapId
            ageMs := (nowMs - source.sourceOccurredAtMs).toUInt32 }
          relevantEvents := (retrieved.filterMap (relevantEvent nowMs)).take questContractMaxRelevantEvents
          candidateTargets
          limits := {
            maxRequiredCount := c.limits.maxRequiredCount
            maxRangeYards := c.limits.maxRangeYards
            maxExpiryMs := c.limits.maxExpiryMs
            maxRewardMoneyCopper := c.limits.maxRewardMoneyCopper } }, {
          agent := record.id
          snapshotSequence
          runtimeGuid := creature.guid
          goal := record.activeGoal.map Prod.fst
          goalStartedAtMs := (record.activeGoal.map Prod.snd).getD 0
          sourceEventId := source.sourceEventId
          sourceCorrelationId := source.correlationId
          sourceEventType
          sourceOccurredAtMs := source.sourceOccurredAtMs
          targetBindings })

/-! ### Acceptance -/

inductive DynamicTaskDiscardReason where
  | none | staleSnapshot | staleRuntime | staleGoal | staleSourceEvent | staleRequest
  | targetTokenUnbound | targetBindingMismatch | policyWindowMismatch | staleTarget
  deriving DecidableEq

structure DynamicTaskAcceptanceState where
  currentSnapshotSequence : UInt64
  currentRuntimeGuid : ObjectGuid
  currentGoal : Option GoalType
  currentGoalStartedAtMs : UInt64
  sourceEventStillActive : Bool
  sourceEventMaxAgeMs : UInt64
  nowMs : UInt64
  responseMaxAgeMs : UInt64

def findCandidate (candidates : List (QuestTargetCandidate Float32)) (token : UInt32) :
    Option (QuestTargetCandidate Float32) :=
  candidates.find? fun candidate => candidate.token = token

/-- The first binding of a token. -/
def firstBinding (bindings : List QuestTargetBinding) (token : UInt32) : Option QuestTargetBinding :=
  bindings.find? fun binding => binding.token = token

/-- A request made for a goal outlives neither the goal nor its start. -/
def goalIsStale (provenance : QuestRequestProvenance) (state : DynamicTaskAcceptanceState) : Bool :=
  match provenance.goal with
  | .none => false
  | some goal =>
    state.currentGoal ≠ some goal || provenance.goalStartedAtMs ≠ state.currentGoalStartedAtMs

def checkDynamicTaskResponseAcceptance (pending : PendingDynamicTaskRequest)
    (draft : QuestProposalDraft Float32) (state : DynamicTaskAcceptanceState) :
    DynamicTaskDiscardReason :=
  if pending.provenance.snapshotSequence ≠ state.currentSnapshotSequence then .staleSnapshot
  else if pending.provenance.runtimeGuid.isEmpty ||
      pending.provenance.runtimeGuid ≠ state.currentRuntimeGuid then .staleRuntime
  else if goalIsStale pending.provenance state then .staleGoal
  else if !state.sourceEventStillActive || state.nowMs < pending.provenance.sourceOccurredAtMs ||
      state.sourceEventMaxAgeMs < state.nowMs - pending.provenance.sourceOccurredAtMs then
    .staleSourceEvent
  else if state.nowMs < pending.submittedAtMs ||
      state.responseMaxAgeMs < state.nowMs - pending.submittedAtMs then .staleRequest
  else match findCandidate pending.context.candidateTargets draft.targetToken,
      firstBinding pending.provenance.targetBindings draft.targetToken with
    | some candidate, some binding =>
      if candidate.entry ≠ binding.entry ∨ candidate.mapId ≠ binding.mapId then .targetBindingMismatch
      else if pending.context.limits.maxRequiredCount < draft.requiredCount ||
          pending.context.limits.maxRangeYards < draft.maxRangeYards ||
          pending.context.limits.maxExpiryMs < draft.expiryMs ||
          pending.context.limits.maxRewardMoneyCopper < draft.rewardMoneyCopper then
        .policyWindowMismatch
      else .none
    | _, _ => .targetTokenUnbound

/-! ### Validation -/

inductive DynamicTaskValidationReason where
  | notValidated | none | unsupportedObjective | sourceProblemMismatch | targetBindingMissing
  | targetBindingAmbiguous | targetBindingMismatch | requiredCountInvalid | rangeInvalid
  | expiryInvalid | rewardInvalid | textInvalid | liveTargetOutOfRange
  deriving DecidableEq

structure DynamicTaskSourceFacts where
  type : WorldEventType
  actorEntry : UInt32
  targetEntry : UInt32
  mapId : UInt32

structure DynamicTaskTargetFacts where
  entry : UInt32
  mapId : UInt32
  giverToTargetDistanceYards : Float32

structure DynamicTaskAuthoritativeFacts where
  source : DynamicTaskSourceFacts
  target : DynamicTaskTargetFacts

structure DynamicTaskCandidate where
  requestId : UInt64
  acceptedAtMs : UInt64
  requestContext : QuestContext Float32
  provenance : QuestRequestProvenance
  draft : QuestProposalDraft Float32

/-- The proposal with the fields that only its creation reads. -/
structure ValidatedProposal extends QuestProposal where
  targetToken : UInt32
  maxRangeYards : Float32

/-- The bytes of a text, each as the character of its value. -/
def textOf (bytes : Bytes) : String := String.ofList (bytes.map fun b => Char.ofNat b.toNat)

/-- The one binding of a token, and whether there are several. -/
def findBinding (token : UInt32) : List QuestTargetBinding → Option QuestTargetBinding →
    Option QuestTargetBinding × Bool
  | [], found => (found, false)
  | binding :: bindings, found =>
    if binding.token ≠ token then findBinding token bindings found
    else if found.isSome then (none, true)
    else findBinding token bindings (some binding)

/-- Text that is sent to a player: no control character, and no pipe, which opens every escape
sequence of the client. -/
def isValidProposalText (text : Bytes) (maxLength : ℕ) : Bool :=
  if text.isEmpty || maxLength < text.length then false
  else text.all fun ch => !(ch < 0x20 || ch = 0x7F || ch = 0x7C)

def validateDynamicTaskCandidate (candidate : DynamicTaskCandidate)
    (limits : DynamicTaskAuthoritativeLimits) (facts : DynamicTaskAuthoritativeFacts) :
    DynamicTaskValidationReason × Option ValidatedProposal :=
  let draft := candidate.draft
  let problem := candidate.requestContext.problem
  if draft.objective ≠ .killCreature then (.unsupportedObjective, none)
  else if facts.source.type ≠ problem.type ∨ facts.source.actorEntry ≠ problem.actorEntry ∨
      facts.source.targetEntry ≠ problem.targetEntry ∨ facts.source.mapId ≠ problem.mapId then
    (.sourceProblemMismatch, none)
  else match findBinding draft.targetToken candidate.provenance.targetBindings none with
    | (.none, ambiguous) =>
      (if ambiguous then .targetBindingAmbiguous else .targetBindingMissing, none)
    | (some binding, _) =>
      if binding.entry ≠ facts.target.entry ∨ binding.mapId ≠ facts.target.mapId then
        (.targetBindingMismatch, none)
      else if draft.requiredCount = 0 ∨ limits.maxRequiredCount < draft.requiredCount then
        (.requiredCountInvalid, none)
      else if !limits.maxRangeYards.isFinite || limits.maxRangeYards ≤ 0 ||
          !draft.maxRangeYards.isFinite || draft.maxRangeYards ≤ 0 ||
          limits.maxRangeYards < draft.maxRangeYards then (.rangeInvalid, none)
      else if draft.expiryMs = 0 ∨ limits.maxExpiryMs < draft.expiryMs then (.expiryInvalid, none)
      else if limits.maxRewardMoneyCopper < draft.rewardMoneyCopper then (.rewardInvalid, none)
      else if !isValidProposalText draft.title questContractMaxTitleLength ||
          !isValidProposalText draft.description questContractMaxDescriptionLength then
        (.textInvalid, none)
      else if !facts.target.giverToTargetDistanceYards.isFinite ||
          facts.target.giverToTargetDistanceYards < 0 ||
          draft.maxRangeYards < facts.target.giverToTargetDistanceYards then
        (.liveTargetOutOfRange, none)
      else (.none, some {
        giver := candidate.provenance.agent
        giverRuntimeGuid := candidate.provenance.runtimeGuid
        sourceEventId := candidate.provenance.sourceEventId
        sourceCorrelationId := candidate.provenance.sourceCorrelationId
        sourceEventType := candidate.provenance.sourceEventType
        objective := draft.objective
        targetToken := draft.targetToken
        targetGuid := binding.guid
        targetEntry := facts.target.entry
        targetMapId := facts.target.mapId
        requiredCount := draft.requiredCount
        maxRangeYards := draft.maxRangeYards
        expiryMs := draft.expiryMs
        rewardMoneyCopper := draft.rewardMoneyCopper
        title := textOf draft.title
        description := textOf draft.description })

end AIWorld.Quest
