import AIWorld.Lib.Binary32
import AIWorld.Quest.Instance

/-! What an agent perceived and what it remembers of it, in the short and in the long term. These
are values; no live object of the world is behind them. -/

namespace AIWorld.Memory

open Lib.Binary32
open Quest (ObjectGuid WorldEventType)

structure WorldEventLocation where
  mapId : UInt32 := 0
  x : Float32 := 0
  y : Float32 := 0
  z : Float32 := 0
  deriving DecidableEq

structure WorldEntityRef where
  guid : ObjectGuid := {}
  spawnId : UInt64 := 0
  entry : UInt32 := 0
  agent : UInt64 := 0
  deriving DecidableEq

inductive ObservationType
  | worldEvent
  | playerSeen
  | creatureSeen
  | raidExperience
  deriving DecidableEq

inductive PerceptionChannel
  | sight
  | hearing
  | rumor
  deriving DecidableEq

/-! ### Raids -/

inductive RaidExperienceKind
  | stockObserved
  | guardEncounter
  | routeBlocked
  | sourceEmpty
  | theft
  | delivered
  | guardPositionChecked
  deriving DecidableEq

structure RaidExperience where
  kind : RaidExperienceKind := .stockObserved
  depotId : UInt32 := 0
  routeId : UInt32 := 0
  quantity : UInt32 := 0
  attemptId : UInt64 := 0
  deriving DecidableEq

/-- Outcomes belong to one attempt each; all else that is observed repeatedly is the same. -/
def sameRaidExperience (a b : RaidExperience) : Bool :=
  decide (a.kind = b.kind) && a.depotId == b.depotId && a.routeId == b.routeId &&
    ((decide (a.kind ≠ .theft) && decide (a.kind ≠ .delivered)) || a.attemptId == b.attemptId)

/-- Within a yard of one another. -/
def sameCheckedGuardLocation (a b : WorldEventLocation) : Bool :=
  if a.mapId ≠ b.mapId || !a.x.isFinite || !a.y.isFinite || !a.z.isFinite ||
      !b.x.isFinite || !b.y.isFinite || !b.z.isFinite then false
  else
    let dx := widen a.x - widen b.x
    let dy := widen a.y - widen b.y
    let dz := widen a.z - widen b.z
    decide (dx * dx + dy * dy + dz * dz ≤ 1)

/-! ### Observations -/

structure Observation where
  observer : UInt64 := 0
  type : ObservationType := .worldEvent
  sourceEventId : UInt64 := 0
  correlationId : UInt64 := 0
  sourceOccurredAtMs : UInt64 := 0
  observedAtMs : UInt64 := 0
  sourceEventType : Option WorldEventType := none
  location : WorldEventLocation := {}
  actor : WorldEntityRef := {}
  target : WorldEntityRef := {}
  channel : PerceptionChannel := .sight
  distance : Float32 := 0
  lineOfSight : Bool := false
  raid : Option RaidExperience := none
  deriving DecidableEq

/-! ### Records -/

structure MemoryRecord where
  id : UInt64 := 0
  owner : UInt64 := 0
  type : ObservationType := .worldEvent
  importance : Float32 := 0
  sourceEventId : UInt64 := 0
  correlationId : UInt64 := 0
  sourceOccurredAtMs : UInt64 := 0
  sourceEventType : Option WorldEventType := none
  firstObservedAtMs : UInt64 := 0
  lastObservedAtMs : UInt64 := 0
  expiresAtMs : UInt64 := 0
  observationCount : UInt32 := 0
  location : WorldEventLocation := {}
  actor : WorldEntityRef := {}
  target : WorldEntityRef := {}
  channel : PerceptionChannel := .sight
  lastDistance : Float32 := 0
  lastLineOfSight : Bool := false
  raid : Option RaidExperience := none
  deriving DecidableEq

structure LongTermMemoryRecord where
  persistentId : UInt64 := 0
  owner : UInt64 := 0
  type : ObservationType := .worldEvent
  importance : Float32 := 0
  sourceEventId : UInt64 := 0
  correlationId : UInt64 := 0
  sourceOccurredAtMs : UInt64 := 0
  sourceEventType : Option WorldEventType := none
  firstObservedAtMs : UInt64 := 0
  lastObservedAtMs : UInt64 := 0
  observationCount : UInt32 := 1
  location : WorldEventLocation := {}
  actor : WorldEntityRef := {}
  target : WorldEntityRef := {}
  channel : PerceptionChannel := .sight
  deriving DecidableEq

inductive MemoryTier
  | shortTerm
  | longTerm
  deriving DecidableEq

structure RetrievedMemory where
  tier : MemoryTier := .shortTerm
  memoryId : UInt64 := 0
  type : ObservationType := .worldEvent
  importance : Float32 := 0
  relevance : Float32 := 0
  sourceEventId : UInt64 := 0
  sourceOccurredAtMs : UInt64 := 0
  sourceEventType : Option WorldEventType := none
  firstObservedAtMs : UInt64 := 0
  lastObservedAtMs : UInt64 := 0
  location : WorldEventLocation := {}
  actor : WorldEntityRef := {}
  target : WorldEntityRef := {}
  owner : UInt64 := 0
  raid : Option RaidExperience := none
  deriving DecidableEq

/-- The larger of two importances, as the standard library compares them. -/
def maxImportance (a b : Float32) : Float32 := if a < b then b else a

end AIWorld.Memory
