import AIWorld.Lib.Machine
import AIWorld.Lib.OrdMap

/-! The food ledger's records: depots, crop fields, carcasses, the actors that
carry and eat, the claims they hold on carcasses, and the cumulative counters.
Identities, portions and times are natural numbers. A 32-bit or 64-bit
subtraction is `usub`, which is undefined where the machine word would wrap; the
additions stay inside their words, except for the cumulative counters, which are
read as unbounded. -/

namespace AIWorld.LivingSupply

open Std

def carcassPortions : ℕ := 6
def predatorMealPortions : ℕ := 3
def hunterCargoCapacity : ℕ := 6
def raiderCargoCapacity : ℕ := 2
def farmerCargoCapacity : ℕ := 2
def carrierCargoCapacity : ℕ := 6
def cityDepotId : ℕ := 7
def fieldCapacity : ℕ := 24
def fieldRegrowMs : ℕ := 30000
def depotCapacity : ℕ := 30
def depotTarget : ℕ := 12
def depotLow : ℕ := 4

/-- The largest 64-bit value. -/
def uint64Max : ℕ := 2 ^ 64 - 1

/-- Unsigned subtraction, undefined where it would wrap. -/
def usub (a b : ℕ) : Option ℕ := if b ≤ a then some (a - b) else none

theorem usub_of_le {a b : ℕ} (h : b ≤ a) : usub a b = some (a - b) := if_pos h

structure CarcassKey where
  source : ℕ := 0
  life : ℕ := 0
  deriving DecidableEq

inductive ClaimKind where
  | harvest | predatorMeal
  deriving DecidableEq

structure Token where
  actor : ℕ := 0
  serial : ℕ := 0
  deriving DecidableEq

structure Result where
  success : Bool := false
  duplicate : Bool := false
  portions : ℕ := 0
  reason : String := "REJECTED"
  deriving DecidableEq

structure Depot where
  id : ℕ := 0
  stock : ℕ := 0
  capacity : ℕ := 0
  target : ℕ := 0
  low : ℕ := 0
  stolen : ℕ := 0
  exported : ℕ := 0
  delivered : ℕ := 0
  consumed : ℕ := 0
  deriving DecidableEq

structure Carcass where
  key : CarcassKey := {}
  remaining : ℕ := 0
  reserved : ℕ := 0
  expiresAtMs : ℕ := 0
  active : Bool := false
  deriving DecidableEq

@[ext]
structure Field where
  id : ℕ := 0
  depotId : ℕ := 0
  remaining : ℕ := 0
  capacity : ℕ := 0
  regrowMs : ℕ := 0
  lastGrowthAtMs : ℕ := 0
  harvestedTotal : ℕ := 0
  regrownTotal : ℕ := 0
  deriving DecidableEq

/-- `harvestedTotal` includes the meat predators eat at a carcass: potential
becomes accounted food only at a completed extraction. -/
structure Counters where
  initialFood : ℕ := 0
  harvestedTotal : ℕ := 0
  consumedTotal : ℕ := 0
  lostTotal : ℕ := 0
  deliveredTotal : ℕ := 0
  stolenTotal : ℕ := 0
  loadedTotal : ℕ := 0
  predatorConsumed : ℕ := 0
  depotConsumed : ℕ := 0
  potentialCreated : ℕ := 0
  potentialLost : ℕ := 0
  deriving DecidableEq

structure Claim where
  id : Token
  key : CarcassKey
  kind : ClaimKind
  requested : ℕ
  amount : ℕ
  expiresAtMs : ℕ
  deriving DecidableEq

inductive EventKind where
  | delivery | meal | theft | fieldHarvest | loading
  deriving DecidableEq

/-- An actor's last completed flow and its receipt. -/
structure FlowEvent where
  serial : ℕ
  kind : EventKind
  depotId : ℕ
  requested : ℕ
  receipt : Result
  deriving DecidableEq

structure Actor where
  depotId : ℕ
  capacity : ℕ
  predator : Bool
  consumer : Bool
  raidSourceDepotId : ℕ := 0
  fieldId : ℕ := 0
  cargo : ℕ := 0
  pending : Option Claim := none
  lastCommitted : Option (Token × Result) := none
  lastEventSerial : ℕ := 0
  lastEvent : Option FlowEvent := none
  allVillageRaidSources : Bool := false
  carrier : Bool := false
  deriving DecidableEq

/-- The most an actor may ask of a carcass. -/
def Actor.claimLimit (a : Actor) : ℕ := if a.predator then predatorMealPortions else a.capacity

/-- The ledger; a default one is empty. -/
structure Ledger where
  depots : ExtTreeMap ℕ Depot := ∅
  initialDepotStock : ExtTreeMap ℕ ℕ := ∅
  fields : ExtTreeMap ℕ Field := ∅
  initialFieldCrops : ExtTreeMap ℕ ℕ := ∅
  actors : ExtTreeMap ℕ Actor := ∅
  carcasses : ExtTreeMap ℕ Carcass := ∅
  nextClaimSerial : ℕ := 0
  counters : Counters := {}
  residentsV11 : Bool := false

/-! ### Receipts -/

def rejected (reason : String) : Result := ⟨false, false, 0, reason⟩

def replayed (receipt : Result) : Result := { receipt with duplicate := true }

/-- The answer to a flow whose serial is not above the actor's last one: the
stored receipt for an exact repeat, a rejection otherwise. -/
def replayEvent (actor : Actor) (serial : ℕ) (kind : EventKind) (depotId requested : ℕ) :
    Option Result :=
  if actor.lastEventSerial < serial then none
  else match actor.lastEvent with
    | some e =>
      if e.serial = serial ∧ e.kind = kind ∧ e.depotId = depotId ∧ e.requested = requested then
        some (replayed e.receipt)
      else some (rejected "STALE_OR_CHANGED_EVENT")
    | none => some (rejected "STALE_OR_CHANGED_EVENT")

def flowReceipt (amount : ℕ) : Result := ⟨true, false, amount, "COMPLETED"⟩

def saveEvent (actor : Actor) (serial : ℕ) (kind : EventKind) (depotId requested amount : ℕ) :
    Actor :=
  { actor with
    lastEventSerial := serial
    lastEvent := some ⟨serial, kind, depotId, requested, flowReceipt amount⟩ }

namespace Ledger

/-! ### Readings -/

def getDepot (l : Ledger) (id : ℕ) : Option Depot := l.depots[id]?

def getField (l : Ledger) (id : ℕ) : Option Field := l.fields[id]?

def findCarcass (l : Ledger) (key : CarcassKey) : Option Carcass :=
  match l.carcasses[key.source]? with
  | some c => if c.key = key then some c else none
  | none => none

theorem findCarcass_eq_some {l : Ledger} {key : CarcassKey} {c : Carcass} :
    l.findCarcass key = some c ↔ l.carcasses[key.source]? = some c ∧ c.key = key := by
  unfold findCarcass
  constructor
  · intro hf
    split at hf
    next x hx =>
      split_ifs at hf with hk
      cases hf
      exact ⟨hx, hk⟩
    next => contradiction
  · rintro ⟨hx, hk⟩
    simp only [hx, if_pos hk]

def depotFood (l : Ledger) : ℕ := Lib.OrdMap.total (fun _ d => d.stock) l.depots

def cargoFood (l : Ledger) : ℕ := Lib.OrdMap.total (fun _ a => a.cargo) l.actors

def carcassPotential (l : Ledger) : ℕ := Lib.OrdMap.total (fun _ c => c.remaining) l.carcasses

def fieldPotential (l : Ledger) : ℕ := Lib.OrdMap.total (fun _ f => f.remaining) l.fields

def remainingPotential (l : Ledger) : ℕ := l.carcassPotential + l.fieldPotential

/-- `Conserved`: all food that ever entered the ledger is stored, carried, eaten
or lost. -/
def Conserved (l : Ledger) : Prop :=
  l.counters.initialFood + l.counters.harvestedTotal =
    l.depotFood + l.cargoFood + l.counters.consumedTotal + l.counters.lostTotal

/-- `PotentialConserved`: all potential is still in the world, harvested or lost. -/
def PotentialConserved (l : Ledger) : Prop :=
  l.counters.potentialCreated =
    l.remainingPotential + l.counters.harvestedTotal + l.counters.potentialLost

end Ledger

end AIWorld.LivingSupply
