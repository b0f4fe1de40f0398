import AIWorld.Agent.LivingRaidMemory
import AIWorld.Agent.LivingRaidParty
import AIWorld.Reconciliation.SpawnReconciliationPlan

/-! The raiders' records: the sources they steal from with the routes there, what is stored of a raider, and the
parties they go in. Diagnostic texts that nothing reads, the memory of travels and the guard's cursor on its way
to the post are left out. -/

namespace AIWorld.Raid

open Agent (ActionPosition)
open Agent.LivingRaidParty (Party)
open Reconciliation (AgentType)

/-! ### Places -/

def raiderSpawn : UInt64 := 901055
def guardSpawn : UInt64 := 901039
def firstRaider : UInt64 := 901050
def lastRaider : UInt64 := 901059
def sourceDepot : UInt32 := 1
def campDepot : UInt32 := 3
def portions : UInt32 := 2
def startStock : ℕ := 6
def cooldownMs : UInt64 := 120000
def dutyMs : UInt64 := 240000

abbrev Position := ActionPosition Float32

def camp : Position := ⟨725, 58.6867446881, 971.2687759381, 0.15⟩
def villageDepot : Position := ⟨725, -372.4611532703, 492.6821677284, 0.15⟩
def guardPost : Position := villageDepot

/-- The depots of the three fields. -/
def topDepot : Position := ⟨725, 378.03635207966687, 626.4014701827371, 0.15⟩
def leftDepot : Position := ⟨725, 44.97056274847714, 859.9705627484772, 0.15⟩
def rightDepot : Position := ⟨725, 151.18440237676216, 282.17310878027087, 0.15⟩

/-- A depot to steal from, behind the points of a route that ends there. -/
structure SourceSpec where
  depot : UInt32
  route : List Position
  routeId : UInt32 := 1

def SourceSpec.count (s : SourceSpec) : UInt32 := UInt32.ofNat s.route.length

def SourceSpec.anchor (s : SourceSpec) (i : UInt32) : Position := s.route.getD i.toNat camp

def SourceSpec.point (s : SourceSpec) : Position := s.anchor (s.count - 1)

def toSource : List Position :=
  [⟨725, -80, 840, 0.15⟩, ⟨725, -160, 860, 0.15⟩, ⟨725, -201.6000671387, 861.0665283203, -2.2201099396⟩,
    ⟨725, -214, 861.0665283203, 0.15⟩, ⟨725, -235, 790, -0.62⟩, ⟨725, -235, 725, 0.15⟩,
    ⟨725, -264, 680, 0.15⟩, ⟨725, -340, 580, 0.15⟩, villageDepot]

def sources : List SourceSpec :=
  [{ depot := 1, route := toSource },
    { depot := 4
      route := [⟨725, 61.066650390625, 969.0665283203125, 0.15⟩, ⟨725, 160, 868, 0.15⟩, ⟨725, 260, 766, 2⟩,
        ⟨725, 362.66656494140625, 661.333251953125, 0.15⟩, topDepot] },
    { depot := 5, route := [⟨725, 53.599983215332031, 964.2664794921875, 0.15⟩, leftDepot] },
    { depot := 6
      route := [⟨725, 53.599983215332031, 964.2664794921875, 0.15⟩, ⟨725, 58, 820, 0.15⟩,
        ⟨725, 63.999980926513672, 661.333251953125, 0.15⟩, ⟨725, 85.33331298828125, 597.33331298828125, 0.15⟩,
        ⟨725, 95.999969482421875, 539.73333740234375, 0.48⟩,
        ⟨725, 106.66663360595703, 426.66653442382812, 0.15⟩, rightDepot] }]

/-- Another way to the right village. -/
def rightBypass : SourceSpec where
  depot := 6
  route := [⟨725, 120, 930, 0.15⟩, ⟨725, 120, 820, 0.15⟩, ⟨725, 63.999980926513672, 661.333251953125, 0.15⟩,
    ⟨725, 85.33331298828125, 597.33331298828125, 0.15⟩, ⟨725, 95.999969482421875, 539.73333740234375, 0.48⟩,
    ⟨725, 106.66663360595703, 426.66653442382812, 0.15⟩, rightDepot]
  routeId := 2

def sourceFor (depot : UInt32) (fieldsEnabled : Bool) (routeId : UInt32) : Option SourceSpec :=
  if fieldsEnabled && depot == rightBypass.depot && routeId == rightBypass.routeId then some rightBypass
  else sources.find? fun spec =>
    spec.depot == depot && spec.routeId == routeId && (fieldsEnabled || depot == sourceDepot)

/-- The next source after the previous one, in turn, that has enough in stock. -/
def selectSource (previousDepot : UInt32) (fieldsEnabled : Bool) (stocks : List ℕ) : Option UInt32 :=
  let count := if fieldsEnabled then sources.length else 1
  let depots := (sources.take count).map (·.depot)
  let start := if depots.contains previousDepot then (depots.idxOf previousDepot + 1) % count else 0
  ((List.range count).map fun offset => (start + offset) % count).findSome? fun index =>
    if startStock ≤ stocks.getD index 0 then depots[index]? else none

/-! ### States -/

inductive RaidPhase
  | idle | actorDead | unloaded | intercepting | guardPost | guardHome | assembling | toSource | stealing
  | waitingParty | toCamp | returningEmpty | delivering | eatingCamp | cooldown | waitingSupply
  | waitingMemory | fleeing
  deriving DecidableEq

/-- What is stored of a raider, and of the guard. -/
structure State where
  guid : ℕ := 0
  partyId : UInt64 := 0
  targetSpawnId : UInt64 := 0
  campReadyAtMs : UInt64 := 0
  attemptId : UInt64 := 0
  nextAtMs : UInt64 := 0
  startedAtMs : UInt64 := 0
  noticed : ℕ := 0
  thefts : ℕ := 0
  delivered : ℕ := 0
  prevented : ℕ := 0
  stolenAtStart : ℕ := 0
  lastNoticedAttempt : UInt64 := 0
  lastInterceptionAttempt : UInt64 := 0
  leg : UInt32 := 0
  selectedSourceDepot : UInt32 := sourceDepot
  previousSourceDepot : UInt32 := 0
  selectedRouteId : UInt32 := 1
  memoryRisk : ℚ := 0
  planningReason : String := "NOT_EVALUATED"
  active : Bool := false
  returning : Bool := false
  dutyAtPost : Bool := false
  combatNoted : Bool := false
  phase : RaidPhase := .idle
  outcome : String := "MATERIALIZED"

/-- What the supply keeps of an actor. -/
structure ActorRuntime where
  guid : ℕ := 0
  eventSerial : UInt64 := 0
  nextAtMs : UInt64 := 0
  delivered : ℕ := 0
  consumed : ℕ := 0
  lost : ℕ := 0
  stolen : ℕ := 0
  live : Bool := false
  phase : RaidPhase := .idle

structure PartyRuntime where
  coordination : Party
  lives : List (UInt64 × ℕ) := []
  rallyReadyAtMs : UInt64 := 0

/-! ### Capabilities -/

/-- Which parts of the simulation run. -/
structure Profile where
  supply : Bool
  consumers : Bool
  raids : Bool
  fields : Bool
  defias : Bool

def Profile.enabled (p : Profile) : Bool := p.supply && p.consumers && p.raids

def raiderCapability (spawn : UInt64) (map : UInt32) (type : AgentType) (controlled enabled allDefias : Bool) :
    Bool :=
  enabled && (spawn == raiderSpawn || (allDefias && decide (firstRaider ≤ spawn) && decide (spawn ≤ lastRaider))) &&
    map == 725 && type == .combatant && controlled

def guardCapability (spawn : UInt64) (map : UInt32) (type : AgentType) (controlled enabled : Bool) : Bool :=
  enabled && spawn == guardSpawn && map == 725 && type == .guard && controlled

end AIWorld.Raid
