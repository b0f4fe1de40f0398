import AIWorld.Lib.Merging
import AIWorld.Lib.Ranking
import AIWorld.Memory.MemoryRecord

/-! What an agent recalls in a situation. All that it remembers, for the short and for the long term, is
scored for the situation, duplicates are merged, and the best of the rest are returned in order. -/

namespace AIWorld.Memory

open Lib.Binary32 Lib.Merging Lib.Ranking

structure MemoryQueryContext where
  agent : UInt64 := 0
  nowMs : UInt64 := 0
  mapId : UInt32 := 0
  x : Float32 := 0
  y : Float32 := 0
  z : Float32 := 0

namespace MemoryRetrieval

/-! ### Scores -/

def clamp (x lo hi : Float32) : Float32 := if x < lo then lo else if hi < x then hi else x

def scoreLocality (context : MemoryQueryContext) (location : WorldEventLocation) : Float32 :=
  if location.mapId ≠ context.mapId then 0
  else
    let dx := location.x - context.x
    let dy := location.y - context.y
    let dz := location.z - context.z
    let distance := (dx * dx + dy * dy + dz * dz).sqrt
    1 - clamp (distance / 200) 0 1

def score (importance freshness locality : Float32) : Float32 :=
  0.55 * importance + 0.25 * freshness + 0.20 * locality

def scoreShortTerm (context : MemoryQueryContext) (memory : MemoryRecord) : Float32 :=
  let lifetime := memory.expiresAtMs - memory.lastObservedAtMs
  let remaining :=
    if memory.expiresAtMs > context.nowMs then memory.expiresAtMs - context.nowMs else 0
  let freshness :=
    if lifetime ≠ 0 then clamp (remaining.toFloat32 / lifetime.toFloat32) 0 1 else 0
  score memory.importance freshness (scoreLocality context memory.location)

def dayMs : Float := 24 * 60 * 60 * 1000

def scoreLongTerm (context : MemoryQueryContext) (memory : LongTermMemoryRecord) : Float32 :=
  let ageMs : Float :=
    if context.nowMs > memory.lastObservedAtMs then
      (context.nowMs - memory.lastObservedAtMs).toFloat
    else 0
  let freshness := narrow (1 / (1 + ageMs / dayMs))
  score memory.importance freshness (scoreLocality context memory.location)

def retrievedShortTerm (context : MemoryQueryContext) (memory : MemoryRecord) : RetrievedMemory where
  tier := .shortTerm
  memoryId := memory.id
  type := memory.type
  importance := memory.importance
  relevance := scoreShortTerm context memory
  sourceEventId := memory.sourceEventId
  sourceOccurredAtMs := memory.sourceOccurredAtMs
  sourceEventType := memory.sourceEventType
  firstObservedAtMs := memory.firstObservedAtMs
  lastObservedAtMs := memory.lastObservedAtMs
  location := memory.location
  actor := memory.actor
  target := memory.target
  owner := memory.owner
  raid := memory.raid

def retrievedLongTerm (context : MemoryQueryContext) (memory : LongTermMemoryRecord) :
    RetrievedMemory where
  tier := .longTerm
  memoryId := memory.persistentId
  type := memory.type
  importance := memory.importance
  relevance := scoreLongTerm context memory
  sourceEventId := memory.sourceEventId
  sourceOccurredAtMs := memory.sourceOccurredAtMs
  sourceEventType := memory.sourceEventType
  firstObservedAtMs := memory.firstObservedAtMs
  lastObservedAtMs := memory.lastObservedAtMs
  location := memory.location
  actor := memory.actor
  target := memory.target
  owner := memory.owner

/-- All memories, scored. -/
def combined (context : MemoryQueryContext) (shortTerm : List MemoryRecord)
    (longTerm : List LongTermMemoryRecord) : List RetrievedMemory :=
  shortTerm.map (retrievedShortTerm context) ++ longTerm.map (retrievedLongTerm context)

/-! ### Duplicates -/

def sameRaid (a b : RetrievedMemory) : Bool :=
  match a.raid, b.raid with
  | some raid, some other =>
    a.owner == b.owner && a.location.mapId == b.location.mapId && sameRaidExperience raid other &&
      ((decide (raid.kind ≠ .guardEncounter) && decide (raid.kind ≠ .guardPositionChecked)) ||
        a.target.spawnId == b.target.spawnId) &&
      (decide (raid.kind ≠ .guardPositionChecked) ||
        (a.target.spawnId != 0 && sameCheckedGuardLocation a.location b.location))
  | _, _ => false

def isSameMemory (a b : RetrievedMemory) : Bool :=
  if a.type ≠ b.type then false
  else
    match a.type with
    | .raidExperience => sameRaid a b
    | .worldEvent => a.sourceEventId == b.sourceEventId && a.sourceOccurredAtMs == b.sourceOccurredAtMs
    | .playerSeen => decide (a.target.guid = b.target.guid)
    | .creatureSeen =>
      if a.target.agent ≠ 0 ∨ b.target.agent ≠ 0 then a.target.agent == b.target.agent
      else if a.target.spawnId ≠ 0 ∨ b.target.spawnId ≠ 0 then
        a.location.mapId == b.location.mapId && a.target.spawnId == b.target.spawnId
      else decide (a.target.guid = b.target.guid)

def candidateWins (candidate existing : RetrievedMemory) : Bool :=
  decide (candidate.relevance > existing.relevance) ||
    (candidate.relevance == existing.relevance && decide (candidate.tier = .longTerm) &&
      decide (existing.tier ≠ .longTerm))

def deduped (context : MemoryQueryContext) (shortTerm : List MemoryRecord)
    (longTerm : List LongTermMemoryRecord) : List RetrievedMemory :=
  merge isSameMemory candidateWins (combined context shortTerm longTerm)

/-! ### Retrieval -/

/-- The order of what is returned. -/
def precedes (a b : RetrievedMemory) : Bool :=
  if a.relevance != b.relevance then decide (a.relevance > b.relevance)
  else if a.importance != b.importance then decide (a.importance > b.importance)
  else if a.lastObservedAtMs ≠ b.lastObservedAtMs then
    decide (a.lastObservedAtMs > b.lastObservedAtMs)
  else if a.tier ≠ b.tier then decide (a.tier = .longTerm)
  else decide (a.memoryId < b.memoryId)

def retrieve (context : MemoryQueryContext) (shortTerm : List MemoryRecord)
    (longTerm : List LongTermMemoryRecord) (maxResults : ℕ) : List RetrievedMemory :=
  (ranked precedes (deduped context shortTerm longTerm)).take maxResults

end MemoryRetrieval

end AIWorld.Memory
