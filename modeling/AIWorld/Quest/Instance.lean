import Mathlib.Tactic.Common

/-! The values of a dynamic quest. A proposal is what validation hands over, an
instance is one quest from its offer to its end. Integers have the source's
widths; the coordinates of a location are the bits of the source's floats, which
are only ever copied. -/

namespace AIWorld.Quest

/-- A raw object identity; zero is the empty one. -/
structure ObjectGuid where
  raw : UInt64 := 0
  deriving DecidableEq

namespace ObjectGuid

def highGuidPlayer : UInt64 := 0

def getHigh (g : ObjectGuid) : UInt64 := (g.raw >>> 48) &&& 0xFFFF

def isEmpty (g : ObjectGuid) : Bool := g.raw = 0

def isPlayer (g : ObjectGuid) : Bool := !g.isEmpty && g.getHigh = highGuidPlayer

def highGuidUnit : UInt64 := 0xF130

def isCreature (g : ObjectGuid) : Bool := g.getHigh = highGuidUnit

theorem ne_empty_of_isPlayer {g : ObjectGuid} (h : g.isPlayer = true) : g ≠ {} := by
  rintro rfl
  contradiction

end ObjectGuid

inductive WorldEventType where
  | creatureKilled | npcInjured | playerSeen | itemStolen | tradeCompleted | livestockKilled
  | wolfPackMoved | foodShortage | npcDied
  | dynamicQuestCompleted | dynamicQuestFailed | dynamicQuestExpired
  deriving DecidableEq

structure WorldEventLocation where
  mapId : UInt32 := 0
  x : UInt32 := 0
  y : UInt32 := 0
  z : UInt32 := 0
  deriving DecidableEq

inductive QuestObjectiveType where
  | invalid | killCreature
  deriving DecidableEq

inductive DynamicQuestState where
  | offered | active | completed | failed | expired
  deriving DecidableEq

structure QuestProposal where
  giver : UInt64 := 0
  giverRuntimeGuid : ObjectGuid := {}
  sourceEventId : UInt64 := 0
  sourceCorrelationId : UInt64 := 0
  sourceEventType : WorldEventType := .creatureKilled
  objective : QuestObjectiveType := .invalid
  targetGuid : ObjectGuid := {}
  targetEntry : UInt32 := 0
  targetMapId : UInt32 := 0
  requiredCount : UInt32 := 0
  expiryMs : UInt32 := 0
  rewardMoneyCopper : UInt32 := 0
  title : String := ""
  description : String := ""
  deriving DecidableEq

structure DynamicQuestInstance where
  id : UInt64 := 0
  state : DynamicQuestState := .offered
  title : String := ""
  description : String := ""
  giver : UInt64 := 0
  giverRuntimeGuid : ObjectGuid := {}
  giverLocationAtOffer : WorldEventLocation := {}
  sourceEventId : UInt64 := 0
  sourceCorrelationId : UInt64 := 0
  sourceEventType : WorldEventType := .creatureKilled
  objective : QuestObjectiveType := .invalid
  targetGuid : ObjectGuid := {}
  targetEntry : UInt32 := 0
  targetMapId : UInt32 := 0
  rewardMoneyCopper : UInt32 := 0
  requiredCount : UInt32 := 0
  progress : UInt32 := 0
  createdAtMs : UInt64 := 0
  expiresAtMs : UInt64 := 0
  acceptedByPlayerGuid : ObjectGuid := {}
  consumedProgressEventIds : List UInt64 := []
  deriving DecidableEq

/-- An instance without what transitions write to it: the fields it was offered with. -/
def DynamicQuestInstance.asOffered (q : DynamicQuestInstance) : DynamicQuestInstance :=
  { q with
    state := .offered
    progress := 0
    acceptedByPlayerGuid := {}
    consumedProgressEventIds := [] }

end AIWorld.Quest
