import AIWorld.Lib.OrdMap
import AIWorld.Memory.MemoryRecord

/-! The long-term memories of the agents, each agent's in the order of their insertion, and the
pages in which they are read, newest first. -/

namespace AIWorld.Memory

open Std (ExtTreeMap)

/-- The records of each agent. -/
structure LongTermMemory where
  records : ExtTreeMap UInt64 (List LongTermMemoryRecord) := ∅

namespace LongTermMemory

/-- The record is of what was observed. -/
def isEquivalent (observation : Observation) (record : LongTermMemoryRecord) : Bool :=
  if record.type ≠ observation.type then false
  else
    match observation.type with
    | .raidExperience => false
    | .worldEvent => record.sourceEventId == observation.sourceEventId &&
        record.sourceOccurredAtMs == observation.sourceOccurredAtMs
    | .playerSeen => decide (record.target.guid = observation.target.guid)
    | .creatureSeen =>
      if observation.target.agent ≠ 0 then record.target.agent == observation.target.agent
      else if observation.target.spawnId ≠ 0 then
        record.location.mapId == observation.location.mapId &&
          record.target.spawnId == observation.target.spawnId
      else decide (record.target.guid = observation.target.guid)

def findEquivalent (records : List LongTermMemoryRecord) (observation : Observation) : Option ℕ :=
  records.findIdx? (isEquivalent observation)

def refresh (observation : Observation) (importance : Float32) (existing : LongTermMemoryRecord) :
    LongTermMemoryRecord :=
  { existing with
    lastObservedAtMs := observation.observedAtMs
    observationCount := existing.observationCount + 1
    importance := maxImportance existing.importance importance
    location := observation.location
    actor := observation.actor
    target := observation.target }

def create (observation : Observation) (importance : Float32) : LongTermMemoryRecord where
  owner := observation.observer
  type := observation.type
  importance := importance
  sourceEventId := observation.sourceEventId
  correlationId := observation.correlationId
  sourceOccurredAtMs := observation.sourceOccurredAtMs
  sourceEventType := observation.sourceEventType
  firstObservedAtMs := observation.observedAtMs
  lastObservedAtMs := observation.observedAtMs
  observationCount := 1
  location := observation.location
  actor := observation.actor
  target := observation.target
  channel := observation.channel

def getForAgent (memory : LongTermMemory) (agent : UInt64) : List LongTermMemoryRecord :=
  memory.records[agent]?.getD []

/-- A new record is handed out, for it has to be persisted. -/
def remember (memory : LongTermMemory) (observation : Observation) (importance : Float32) :
    LongTermMemory × Option LongTermMemoryRecord :=
  if observation.type = .raidExperience then (memory, none)
  else
    let records := memory.getForAgent observation.observer
    match findEquivalent records observation with
    | some i =>
      ({ records := memory.records.insert observation.observer
          (records.modify i (refresh observation importance)) }, none)
    | none =>
      let record := create observation importance
      ({ records := memory.records.insert observation.observer (records ++ [record]) }, some record)

structure Page where
  total : ℕ := 0
  anchor : ℕ := 0
  records : List LongTermMemoryRecord := []
  deriving DecidableEq

/-- Newest first, from the anchor back. An anchor of zero stands for the end of the list. -/
def getPage (memory : LongTermMemory) (agent : UInt64) (offset limit anchor : UInt32) : Page :=
  match memory.records[agent]? with
  | none => {}
  | some records =>
    let total := records.length
    let anchor := if anchor ≠ 0 then min anchor.toNat total else total
    if offset.toNat ≥ anchor then { total, anchor }
    else
      let count := min limit.toNat (anchor - offset.toNat)
      { total, anchor
        records := (List.range count).filterMap fun i => records[anchor - offset.toNat - i - 1]? }

end LongTermMemory

end AIWorld.Memory
