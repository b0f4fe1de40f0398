import AIWorld.AiServer.ModelProvider
import AIWorld.Inference.DynamicTaskRoundTrip

/-! Dynamic tasks as the AI server reads and answers them. The fields of requests and drafts carry their bounds,
so that only validated ones exist; texts are measured in characters. -/

namespace AIWorld.AiServer

open Lib.Json (Bytes Field writeObject ascii)
open Lib.Python
open Inference (integerMember wordMember numberMember objectMember)

/-! ### The contract -/

abbrev uint32Max : ℕ := 2 ^ 32 - 1

abbrev uint64Max : ℕ := 2 ^ 64 - 1

abbrev UInt32Field := Ranged 0 uint32Max

abbrev UInt64Field := Ranged 0 uint64Max

def currentDynamicTaskProtocolVersion : ℕ := 1

namespace DynamicTask

abbrev questContractMaxRelevantEvents : ℕ := 8

abbrev questContractMaxCandidateTargets : ℕ := 16

abbrev questContractMaxDisplayNameLength : ℕ := 64

abbrev questContractMaxTitleLength : ℕ := 80

abbrev questContractMaxDescriptionLength : ℕ := 400

inductive WorldEventType
  | creatureKilled | npcInjured | playerSeen | itemStolen | tradeCompleted | livestockKilled | wolfPackMoved
  | foodShortage | npcDied
  deriving DecidableEq

def worldEventTypes : List (String × WorldEventType) :=
  [("CREATURE_KILLED", .creatureKilled), ("NPC_INJURED", .npcInjured), ("PLAYER_SEEN", .playerSeen),
    ("ITEM_STOLEN", .itemStolen), ("TRADE_COMPLETED", .tradeCompleted), ("LIVESTOCK_KILLED", .livestockKilled),
    ("WOLF_PACK_MOVED", .wolfPackMoved), ("FOOD_SHORTAGE", .foodShortage), ("NPC_DIED", .npcDied)]

inductive QuestObjectiveType
  | killCreature
  deriving DecidableEq

def questObjectiveTypes : List (String × QuestObjectiveType) := [("KILL_CREATURE", .killCreature)]

structure QuestProblemContext where
  type : WorldEventType
  actorEntry : UInt32Field
  targetEntry : UInt32Field
  mapId : UInt32Field
  ageMs : UInt32Field

section Models
variable {D : Type} (ops : FloatOps D)

/-- A finite float. -/
abbrev AnyFloat := Finite ops fun _ => true

/-- A finite float from zero on. -/
abbrev FloatFromZero := Finite ops fun d => ops.le ops.zero d

/-- A finite float above zero. -/
abbrev PositiveFloat := Finite ops fun d => ops.lt ops.zero d

structure QuestRelevantEvent where
  type : WorldEventType
  actorEntry : UInt32Field
  targetEntry : UInt32Field
  importance : AnyFloat ops
  relevance : AnyFloat ops
  ageMs : UInt32Field

structure QuestTargetCandidate where
  token : UInt32Field
  entry : UInt32Field
  displayName : Text 0 questContractMaxDisplayNameLength
  mapId : UInt32Field
  distanceYards : FloatFromZero ops
  observationAgeMs : UInt32Field

structure QuestProposalLimits where
  maxRequiredCount : UInt32Field
  maxRangeYards : FloatFromZero ops
  maxExpiryMs : UInt32Field
  maxRewardMoneyCopper : UInt32Field

structure QuestContext where
  agentId : UInt64Field
  snapshotSequence : UInt64Field
  problem : QuestProblemContext
  relevantEvents : List (QuestRelevantEvent ops)
  candidateTargets : List (QuestTargetCandidate ops)
  limits : QuestProposalLimits ops

structure DynamicTaskRequest where
  protocolVersion : UInt32Field
  requestId : UInt64Field
  context : QuestContext ops

/-- What the model may say. Whether it says so within the limits of a request is checked apart. -/
structure QuestProposalDraft where
  objective : QuestObjectiveType
  targetToken : UInt32Field
  requiredCount : Ranged 1 uint32Max
  maxRangeYards : PositiveFloat ops
  expiryMs : Ranged 1 uint32Max
  rewardMoneyCopper : UInt32Field
  title : Text 0 questContractMaxTitleLength
  description : Text 0 questContractMaxDescriptionLength

structure DynamicTaskResponse where
  protocolVersion : ℕ
  requestId : UInt64Field
  agentId : UInt64Field
  snapshotSequence : UInt64Field
  proposal : QuestProposalDraft ops

/-! ### Validation -/

def QuestProblemContext.modelValidate (v : Value D) : Option QuestProblemContext := do
  let members ← model ["type", "actor_entry", "target_entry", "map_id", "age_ms"] v
  let type ← field members "type" (oneOf worldEventTypes)
  let actorEntry ← field members "actor_entry" (strictInt 0 uint32Max)
  let targetEntry ← field members "target_entry" (strictInt 0 uint32Max)
  let mapId ← field members "map_id" (strictInt 0 uint32Max)
  let ageMs ← field members "age_ms" (strictInt 0 uint32Max)
  some { type, actorEntry, targetEntry, mapId, ageMs }

def QuestRelevantEvent.modelValidate (v : Value D) : Option (QuestRelevantEvent ops) := do
  let members ← model ["type", "actor_entry", "target_entry", "importance", "relevance", "age_ms"] v
  let type ← field members "type" (oneOf worldEventTypes)
  let actorEntry ← field members "actor_entry" (strictInt 0 uint32Max)
  let targetEntry ← field members "target_entry" (strictInt 0 uint32Max)
  let importance ← field members "importance" (strictFloat ops _)
  let relevance ← field members "relevance" (strictFloat ops _)
  let ageMs ← field members "age_ms" (strictInt 0 uint32Max)
  some { type, actorEntry, targetEntry, importance, relevance, ageMs }

def QuestTargetCandidate.modelValidate (v : Value D) : Option (QuestTargetCandidate ops) := do
  let members ← model ["token", "entry", "display_name", "map_id", "distance_yards", "observation_age_ms"] v
  let token ← field members "token" (strictInt 0 uint32Max)
  let entry ← field members "entry" (strictInt 0 uint32Max)
  let displayName ← field members "display_name" (strictText 0 questContractMaxDisplayNameLength)
  let mapId ← field members "map_id" (strictInt 0 uint32Max)
  let distanceYards ← field members "distance_yards" (strictFloat ops _)
  let observationAgeMs ← field members "observation_age_ms" (strictInt 0 uint32Max)
  some { token, entry, displayName, mapId, distanceYards, observationAgeMs }

def QuestProposalLimits.modelValidate (v : Value D) : Option (QuestProposalLimits ops) := do
  let members ← model ["max_required_count", "max_range_yards", "max_expiry_ms", "max_reward_money_copper"] v
  let maxRequiredCount ← field members "max_required_count" (strictInt 0 uint32Max)
  let maxRangeYards ← field members "max_range_yards" (strictFloat ops _)
  let maxExpiryMs ← field members "max_expiry_ms" (strictInt 0 uint32Max)
  let maxRewardMoneyCopper ← field members "max_reward_money_copper" (strictInt 0 uint32Max)
  some { maxRequiredCount, maxRangeYards, maxExpiryMs, maxRewardMoneyCopper }

def QuestContext.modelValidate (v : Value D) : Option (QuestContext ops) := do
  let members ← model
    ["agent_id", "snapshot_sequence", "problem", "relevant_events", "candidate_targets", "limits"] v
  let agentId ← field members "agent_id" (strictInt 0 uint64Max)
  let snapshotSequence ← field members "snapshot_sequence" (strictInt 0 uint64Max)
  let problem ← field members "problem" QuestProblemContext.modelValidate
  let relevantEvents ← fieldOr members "relevant_events" []
    (listOf 0 questContractMaxRelevantEvents (QuestRelevantEvent.modelValidate ops))
  let candidateTargets ← fieldOr members "candidate_targets" []
    (listOf 0 questContractMaxCandidateTargets (QuestTargetCandidate.modelValidate ops))
  let limits ← field members "limits" (QuestProposalLimits.modelValidate ops)
  some { agentId, snapshotSequence, problem, relevantEvents, candidateTargets, limits }

def DynamicTaskRequest.modelValidate (v : Value D) : Option (DynamicTaskRequest ops) := do
  let members ← model ["protocol_version", "request_id", "context"] v
  let protocolVersion ← field members "protocol_version" (strictInt 0 uint32Max)
  let requestId ← field members "request_id" (strictInt 0 uint64Max)
  let context ← field members "context" (QuestContext.modelValidate ops)
  some { protocolVersion, requestId, context }

def QuestProposalDraft.modelValidate (v : Value D) : Option (QuestProposalDraft ops) := do
  let members ← model
    ["objective", "target_token", "required_count", "max_range_yards", "expiry_ms", "reward_money_copper", "title",
      "description"] v
  let objective ← field members "objective" (oneOf questObjectiveTypes)
  let targetToken ← field members "target_token" (strictInt 0 uint32Max)
  let requiredCount ← field members "required_count" (strictInt 1 uint32Max)
  let maxRangeYards ← field members "max_range_yards" (strictFloat ops _)
  let expiryMs ← field members "expiry_ms" (strictInt 1 uint32Max)
  let rewardMoneyCopper ← field members "reward_money_copper" (strictInt 0 uint32Max)
  let title ← field members "title" (strictText 0 questContractMaxTitleLength)
  let description ← field members "description" (strictText 0 questContractMaxDescriptionLength)
  some { objective, targetToken, requiredCount, maxRangeYards, expiryMs, rewardMoneyCopper, title, description }

/-- Why a draft is not within the limits of a request. -/
def validateDraftAgainstContext (draft : QuestProposalDraft ops) (context : QuestContext ops) : Except String Unit :=
  let knownTokens := context.candidateTargets.map fun candidate => candidate.token.1
  let limits := context.limits
  if draft.targetToken.1 ∉ knownTokens then
    .error s!"target_token {draft.targetToken.1} is not one of this request's candidate_targets"
  else if draft.requiredCount.1 > limits.maxRequiredCount.1 then
    .error "required_count exceeds this request's max_required_count"
  else if ops.lt limits.maxRangeYards.1 draft.maxRangeYards.1 then
    .error "max_range_yards exceeds this request's max_range_yards limit"
  else if draft.expiryMs.1 > limits.maxExpiryMs.1 then
    .error "expiry_ms exceeds this request's max_expiry_ms limit"
  else if draft.rewardMoneyCopper.1 > limits.maxRewardMoneyCopper.1 then
    .error "reward_money_copper exceeds this request's max_reward_money_copper limit"
  else .ok ()

end Models
end DynamicTask

open DynamicTask

/-! ### The endpoint -/

section Endpoint
variable {D : Type} (runtime : Runtime D) (config : ModelProviderConfig)

/-- Python compares numbers and booleans by value. -/
def isCurrentVersion (ops : FloatOps D) : Value D → Bool
  | .int n => n = currentDynamicTaskProtocolVersion
  | .bool b => b
  | .float d => ops.le d ops.one && ops.le ops.one d
  | _ => false

/-- The request that a body holds: its size, its JSON and its version come before its fields. -/
def receiveTask (chunks : List Bytes) : Except HttpException (DynamicTaskRequest runtime.floats) :=
  match readBounded config.maxRequestBytes [] chunks with
  | none => .error ⟨413, s!"request body exceeded {config.maxRequestBytes} bytes"⟩
  | some body =>
    match runtime.loadsBytes body with
    | .error .jsonDecodeError => .error ⟨400, "request body was not valid JSON"⟩
    | .error _ => .error internalServerError
    | .ok payload =>
      if !(member "protocol_version" payload).any (isCurrentVersion runtime.floats) then
        .error ⟨400, s!"unsupported protocol_version, expected {currentDynamicTaskProtocolVersion}"⟩
      else
        match DynamicTaskRequest.modelValidate runtime.floats payload with
        | none => .error ⟨422, runtime.report payload⟩
        | some request => .ok request

/-- The draft that the provider makes for an answer of its backend. -/
def generate (answer : Except HttpxError ProviderAnswer) : Except Raised (QuestProposalDraft runtime.floats) := do
  let content ← complete runtime config answer
  match runtime.loadsText content with
  | .error .jsonDecodeError => .error (.provider (.malformedContent "model output was not valid JSON"))
  | .error error => .error (.loads error)
  | .ok payload =>
    match QuestProposalDraft.modelValidate runtime.floats payload with
    | none => .error (.provider (.malformedContent "model output failed draft schema validation"))
    | some draft => .ok draft

/-- What is answered for a provider that raises. -/
def Raised.answered : Raised → HttpException
  | .provider .timeout => ⟨504, ModelProviderError.timeout.message⟩
  | .provider error => ⟨502, error.message⟩
  | .loads _ => internalServerError

/-- The backend is asked with the context of the request. -/
def dynamicTask (backend : QuestContext runtime.floats → Except HttpxError ProviderAnswer) (chunks : List Bytes) :
    Except HttpException (DynamicTaskResponse runtime.floats) := do
  let request ← receiveTask runtime config chunks
  if !config.enabled then .error ⟨503, "dynamic-task model generation is disabled"⟩
  else if !config.configured then .error ⟨503, "dynamic-task model provider is not configured"⟩
  else
    match generate runtime config (backend request.context) with
    | .error raised => .error raised.answered
    | .ok draft =>
      match validateDraftAgainstContext runtime.floats draft request.context with
      | .error detail => .error ⟨502, detail⟩
      | .ok () =>
        .ok {
          protocolVersion := currentDynamicTaskProtocolVersion
          requestId := request.requestId
          agentId := request.context.agentId
          snapshotSequence := request.context.snapshotSequence
          proposal := draft }

/-! ### The body of a response -/

/-- A member that is a dumped string. -/
def dumpedMember (key : String) (text : List ℕ) : Field := ⟨ascii key, dumps text, .string (Lib.Utf8.encodeAll text)⟩

def DynamicTask.QuestObjectiveType.name : QuestObjectiveType → String
  | .killCreature => "KILL_CREATURE"

def draftFields (draft : QuestProposalDraft runtime.floats) : List Field :=
  [wordMember "objective" (ascii draft.objective.name), integerMember "target_token" draft.targetToken.1,
    integerMember "required_count" draft.requiredCount.1,
    numberMember "max_range_yards" (runtime.repr draft.maxRangeYards.1), integerMember "expiry_ms" draft.expiryMs.1,
    integerMember "reward_money_copper" draft.rewardMoneyCopper.1, dumpedMember "title" draft.title.1,
    dumpedMember "description" draft.description.1]

def taskFields (response : DynamicTaskResponse runtime.floats) : List Field :=
  [integerMember "protocol_version" response.protocolVersion, integerMember "request_id" response.requestId.1,
    integerMember "agent_id" response.agentId.1, integerMember "snapshot_sequence" response.snapshotSequence.1,
    objectMember "proposal" (draftFields runtime response.proposal)]

/-- The body of a response: compact JSON in UTF-8, with its members in the order of the contract. -/
def DynamicTask.DynamicTaskResponse.body (response : DynamicTaskResponse runtime.floats) : Bytes :=
  writeObject (taskFields runtime response)

end Endpoint

end AIWorld.AiServer
