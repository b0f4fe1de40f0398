import AIWorld.Inference.JsonFields
import AIWorld.Lib.Json.Render
import AIWorld.Quest.Instance

/-! The request for a dynamic task, as it is written. Floats are written by the stream, which is left
open; integers are written in decimal. -/

namespace AIWorld.Inference

open Lib.Json
open Quest (WorldEventType)

/-! ### Strings -/

def hexChar (d : ℕ) : UInt8 := if d < 10 then (0x30 + d).toUInt8 else (0x61 + (d - 10)).toUInt8

/-- One byte of an escaped string. -/
def escapeByte (c : UInt8) : Bytes :=
  if c = quote then [backslash, quote]
  else if c = backslash then [backslash, backslash]
  else if c = 0x08 then [backslash, 'b'.toUInt8]
  else if c = 0x0C then [backslash, 'f'.toUInt8]
  else if c = 0x0A then [backslash, 'n'.toUInt8]
  else if c = 0x0D then [backslash, 'r'.toUInt8]
  else if c = 0x09 then [backslash, 't'.toUInt8]
  else if c < 0x20 then backslash :: (ascii "u00" ++ [hexChar (c.toNat / 16), hexChar (c.toNat % 16)])
  else [c]

def appendEscapedJsonString (out value : Bytes) : Bytes :=
  out ++ quote :: (value.flatMap escapeByte ++ [quote])

/-! ### The request -/

structure QuestProblemContext where
  type : WorldEventType
  actorEntry : UInt32
  targetEntry : UInt32
  mapId : UInt32
  ageMs : UInt32

structure QuestRelevantEvent (F : Type) where
  type : WorldEventType
  actorEntry : UInt32
  targetEntry : UInt32
  importance : F
  relevance : F
  ageMs : UInt32

structure QuestTargetCandidate (F : Type) where
  token : UInt32
  entry : UInt32
  displayName : Bytes
  mapId : UInt32
  distanceYards : F
  observationAgeMs : UInt32

structure QuestProposalLimits (F : Type) where
  maxRequiredCount : UInt32
  maxRangeYards : F
  maxExpiryMs : UInt32
  maxRewardMoneyCopper : UInt32

structure QuestContext (F : Type) where
  agent : UInt64
  snapshotSequence : UInt64
  problem : QuestProblemContext
  relevantEvents : List (QuestRelevantEvent F)
  candidateTargets : List (QuestTargetCandidate F)
  limits : QuestProposalLimits F

structure DynamicTaskRequest (F : Type) where
  version : UInt32
  requestId : UInt64
  context : QuestContext F

def eventTypeName : WorldEventType → Bytes
  | .creatureKilled => ascii "CREATURE_KILLED"
  | .npcInjured => ascii "NPC_INJURED"
  | .playerSeen => ascii "PLAYER_SEEN"
  | .itemStolen => ascii "ITEM_STOLEN"
  | .tradeCompleted => ascii "TRADE_COMPLETED"
  | .livestockKilled => ascii "LIVESTOCK_KILLED"
  | .wolfPackMoved => ascii "WOLF_PACK_MOVED"
  | .foodShortage => ascii "FOOD_SHORTAGE"
  | .npcDied => ascii "NPC_DIED"
  | .dynamicQuestCompleted => ascii "DYNAMIC_QUEST_COMPLETED"
  | .dynamicQuestFailed => ascii "DYNAMIC_QUEST_FAILED"
  | .dynamicQuestExpired => ascii "DYNAMIC_QUEST_EXPIRED"

def serializeQuestProblemContext (problem : QuestProblemContext) : Bytes :=
  ascii "\x7b\"type\":\"" ++ eventTypeName problem.type ++ ascii "\"" ++
    ascii ",\"actor_entry\":" ++ decimal problem.actorEntry.toNat ++
    ascii ",\"target_entry\":" ++ decimal problem.targetEntry.toNat ++
    ascii ",\"map_id\":" ++ decimal problem.mapId.toNat ++
    ascii ",\"age_ms\":" ++ decimal problem.ageMs.toNat ++ ascii "\x7d"

section Floats
variable {F : Type} (format : F → Bytes)

def serializeQuestRelevantEvent (event : QuestRelevantEvent F) : Bytes :=
  ascii "\x7b\"type\":\"" ++ eventTypeName event.type ++ ascii "\"" ++
    ascii ",\"actor_entry\":" ++ decimal event.actorEntry.toNat ++
    ascii ",\"target_entry\":" ++ decimal event.targetEntry.toNat ++
    ascii ",\"importance\":" ++ format event.importance ++
    ascii ",\"relevance\":" ++ format event.relevance ++
    ascii ",\"age_ms\":" ++ decimal event.ageMs.toNat ++ ascii "\x7d"

def serializeQuestTargetCandidate (candidate : QuestTargetCandidate F) : Bytes :=
  let body := ascii "\x7b\"token\":" ++ decimal candidate.token.toNat ++
    ascii ",\"entry\":" ++ decimal candidate.entry.toNat ++ ascii ",\"display_name\":"
  appendEscapedJsonString body candidate.displayName ++
    ascii ",\"map_id\":" ++ decimal candidate.mapId.toNat ++
    ascii ",\"distance_yards\":" ++ format candidate.distanceYards ++
    ascii ",\"observation_age_ms\":" ++ decimal candidate.observationAgeMs.toNat ++ ascii "\x7d"

def serializeQuestProposalLimits (limits : QuestProposalLimits F) : Bytes :=
  ascii "\x7b\"max_required_count\":" ++ decimal limits.maxRequiredCount.toNat ++
    ascii ",\"max_range_yards\":" ++ format limits.maxRangeYards ++
    ascii ",\"max_expiry_ms\":" ++ decimal limits.maxExpiryMs.toNat ++
    ascii ",\"max_reward_money_copper\":" ++ decimal limits.maxRewardMoneyCopper.toNat ++ ascii "\x7d"

def serializeQuestContext (context : QuestContext F) : Bytes :=
  ascii "\x7b\"agent_id\":" ++ decimal context.agent.toNat ++
    ascii ",\"snapshot_sequence\":" ++ decimal context.snapshotSequence.toNat ++
    ascii ",\"problem\":" ++ serializeQuestProblemContext context.problem ++
    ascii ",\"relevant_events\":[" ++ joined (serializeQuestRelevantEvent format) context.relevantEvents ++
    ascii "],\"candidate_targets\":[" ++ joined (serializeQuestTargetCandidate format) context.candidateTargets ++
    ascii "],\"limits\":" ++ serializeQuestProposalLimits format context.limits ++ ascii "\x7d"

def serializeDynamicTaskRequest (request : DynamicTaskRequest F) : Bytes :=
  ascii "\x7b\"protocol_version\":" ++ decimal request.version.toNat ++
    ascii ",\"request_id\":" ++ decimal request.requestId.toNat ++
    ascii ",\"context\":" ++ serializeQuestContext format request.context ++ ascii "\x7d"

end Floats

end AIWorld.Inference
