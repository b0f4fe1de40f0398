import AIWorld.Lib.OrdMap
import AIWorld.Memory.MemoryRecord

/-! The short-term memories of the agents. An observation of what an agent already remembers
refreshes the memory; a new one is added, and the oldest memory of a full store makes room. -/

namespace AIWorld.Memory

open Std (ExtTreeMap)

structure ShortTermMemory where
  nextMemoryId : UInt64 := 1
  records : ExtTreeMap UInt64 (List MemoryRecord) := ∅

namespace ShortTermMemory

def maxEntriesPerAgent : ℕ := 128

def isGuard (kind : RaidExperienceKind) : Bool :=
  decide (kind = .guardEncounter) || decide (kind = .guardPositionChecked)

/-- A guard is told by its spawn, and a check of its position by the place as well. -/
def sameRaid (observation : Observation) (record : MemoryRecord) : Bool :=
  match record.raid, observation.raid with
  | some raid, some observed =>
    sameRaidExperience raid observed && record.location.mapId == observation.location.mapId &&
      (!isGuard observed.kind || record.target.spawnId == observation.target.spawnId) &&
      (decide (observed.kind ≠ .guardPositionChecked) ||
        (observation.target.spawnId != 0 &&
          sameCheckedGuardLocation record.location observation.location))
  | _, _ => false

def isEquivalent (observation : Observation) (record : MemoryRecord) : Bool :=
  if record.type ≠ observation.type then false
  else
    match observation.type with
    | .raidExperience => sameRaid observation record
    | .worldEvent => record.sourceEventId == observation.sourceEventId
    | .playerSeen => decide (record.target.guid = observation.target.guid)
    | .creatureSeen =>
      if observation.target.agent ≠ 0 then record.target.agent == observation.target.agent
      else if observation.target.spawnId ≠ 0 then
        record.location.mapId == observation.location.mapId &&
          record.target.spawnId == observation.target.spawnId
      else decide (record.target.guid = observation.target.guid)

def findEquivalent (records : List MemoryRecord) (observation : Observation) : Option ℕ :=
  records.findIdx? (isEquivalent observation)

def refresh (observation : Observation) (ttlMs : UInt64) (importance : Float32)
    (existing : MemoryRecord) : MemoryRecord :=
  { existing with
    lastObservedAtMs := observation.observedAtMs
    expiresAtMs := observation.observedAtMs + ttlMs
    observationCount := existing.observationCount + 1
    importance := maxImportance existing.importance importance
    location := observation.location
    actor := observation.actor
    target := observation.target
    lastDistance := observation.distance
    lastLineOfSight := observation.lineOfSight
    raid := observation.raid }

def create (id : UInt64) (observation : Observation) (ttlMs : UInt64) (importance : Float32) :
    MemoryRecord where
  id := id
  owner := observation.observer
  type := observation.type
  importance := importance
  sourceEventId := observation.sourceEventId
  correlationId := observation.correlationId
  sourceOccurredAtMs := observation.sourceOccurredAtMs
  sourceEventType := observation.sourceEventType
  firstObservedAtMs := observation.observedAtMs
  lastObservedAtMs := observation.observedAtMs
  expiresAtMs := observation.observedAtMs + ttlMs
  observationCount := 1
  location := observation.location
  actor := observation.actor
  target := observation.target
  channel := observation.channel
  lastDistance := observation.distance
  lastLineOfSight := observation.lineOfSight
  raid := observation.raid

/-- The place of the oldest record, the first of several, where the best so far is at `best`. -/
def oldestFrom (lastObservedAtMs : UInt64) (best i : ℕ) : List MemoryRecord → ℕ
  | [] => best
  | record :: records =>
    if record.lastObservedAtMs < lastObservedAtMs then
      oldestFrom record.lastObservedAtMs i (i + 1) records
    else oldestFrom lastObservedAtMs best (i + 1) records

def oldest : List MemoryRecord → ℕ
  | [] => 0
  | record :: records => oldestFrom record.lastObservedAtMs 0 1 records

def evict (records : List MemoryRecord) : List MemoryRecord :=
  if records.length ≥ maxEntriesPerAgent then records.eraseIdx (oldest records) else records

def getForAgent (memory : ShortTermMemory) (agent : UInt64) : List MemoryRecord :=
  memory.records[agent]?.getD []

inductive RememberResult
  | added
  | refreshed
  deriving DecidableEq

def remember (memory : ShortTermMemory) (observation : Observation) (ttlMs : UInt64)
    (importance : Float32) : ShortTermMemory × RememberResult :=
  let records := memory.getForAgent observation.observer
  match findEquivalent records observation with
  | some i =>
    ({ memory with
        records := memory.records.insert observation.observer
          (records.modify i (refresh observation ttlMs importance)) }, .refreshed)
  | none =>
    let record := create memory.nextMemoryId observation ttlMs importance
    ({ nextMemoryId := memory.nextMemoryId + 1
       records := memory.records.insert observation.observer (evict records ++ [record]) }, .added)

def expire (memory : ShortTermMemory) (nowMs : UInt64) : ShortTermMemory :=
  { memory with
    records := memory.records.map fun _ records =>
      records.filter fun record => !decide (record.expiresAtMs ≤ nowMs) }

def getActiveForAgent (memory : ShortTermMemory) (agent nowMs : UInt64) : List MemoryRecord :=
  (memory.getForAgent agent).filter fun record => decide (record.expiresAtMs > nowMs)

end ShortTermMemory

end AIWorld.Memory
