import AIWorld.LivingSupply.Ledger

/-! What registration fixes of an actor. The source keeps a role as a mixture of
flags and identities in the actor's record; here it is one value, read back from
the record, and a registration call asks for one. -/

namespace AIWorld.LivingSupply

inductive Role where
  | hunter (depotId capacity : ℕ)
  | predator (depotId capacity : ℕ)
  | consumer (depotId capacity : ℕ)
  | farmer (depotId fieldId capacity : ℕ)
  | raider (depotId sourceDepotId capacity : ℕ) (allVillageSources : Bool)
  | carrier (depotId capacity : ℕ)
  deriving DecidableEq

/-- The record a registration inserts. -/
def Role.actor : Role → Actor
  | .hunter depotId capacity => { depotId, capacity, predator := false, consumer := false }
  | .predator depotId capacity => { depotId, capacity, predator := true, consumer := false }
  | .consumer depotId capacity => { depotId, capacity, predator := false, consumer := true }
  | .farmer depotId fieldId capacity =>
    { depotId, capacity, predator := false, consumer := false, fieldId }
  | .raider depotId sourceDepotId capacity allVillageSources =>
    { depotId, capacity, predator := false, consumer := false, raidSourceDepotId := sourceDepotId,
      allVillageRaidSources := allVillageSources }
  | .carrier depotId capacity =>
    { depotId, capacity, predator := false, consumer := false, carrier := true }

/-- The role a record stands for. -/
def Actor.role (a : Actor) : Role :=
  if a.predator then .predator a.depotId a.capacity
  else if a.consumer then .consumer a.depotId a.capacity
  else if a.carrier then .carrier a.depotId a.capacity
  else if a.raidSourceDepotId ≠ 0 then
    .raider a.depotId a.raidSourceDepotId a.capacity a.allVillageRaidSources
  else if a.fieldId ≠ 0 then .farmer a.depotId a.fieldId a.capacity
  else .hunter a.depotId a.capacity

/-- A record without what flows and claims have written to it. -/
def Actor.asNew (a : Actor) : Actor :=
  { a with
    cargo := 0
    pending := none
    lastCommitted := none
    lastEventSerial := 0
    lastEvent := none }

theorem Actor.role_asNew (a : Actor) : a.asNew.role = a.role := rfl

@[simp] theorem Role.asNew_actor (r : Role) : r.actor.asNew = r.actor := by cases r <;> rfl

/-- The actor that a registration call names and the role it asks for. A call
for a predator that is also a consumer asks for no role. -/
def Op.Asks (actor : ℕ) (r : Role) : Op → Prop
  | .registerActor id depotId cargoCapacity predator consumer => id.toNat = actor ∧
    match predator, consumer with
    | false, false => r = .hunter depotId.toNat cargoCapacity.toNat
    | true, false => r = .predator depotId.toNat cargoCapacity.toNat
    | false, true => r = .consumer depotId.toNat cargoCapacity.toNat
    | true, true => False
  | .registerFarmer id depotId fieldId cargoCapacity =>
    id.toNat = actor ∧ r = .farmer depotId.toNat fieldId.toNat cargoCapacity.toNat
  | .registerRaider id ownDepotId sourceDepotId cargoCapacity allVillageSources =>
    id.toNat = actor ∧
      r = .raider ownDepotId.toNat sourceDepotId.toNat cargoCapacity.toNat allVillageSources
  | .registerCarrier id ownDepotId cargoCapacity =>
    id.toNat = actor ∧ r = .carrier ownDepotId.toNat cargoCapacity.toNat
  | _ => False

/-- The actor that a registration call names. -/
def Op.registrant? : Op → Option ℕ
  | .registerActor id .. | .registerFarmer id .. | .registerRaider id ..
  | .registerCarrier id .. => some id.toNat
  | _ => none

namespace Ledger

/-- The roles that the ledger's depots, fields and layout have room for. -/
inductive Enrols (l : Ledger) : Role → Prop
  | hunter {depotId capacity : ℕ} (hdepot : (l.getDepot depotId).isSome) (hpos : 0 < capacity)
      (hle : capacity ≤ hunterCargoCapacity) : Enrols l (.hunter depotId capacity)
  | predator : Enrols l (.predator 0 0)
  | consumer {depotId : ℕ} (hdepot : (l.getDepot depotId).isSome) : Enrols l (.consumer depotId 0)
  | farmer {fieldId capacity : ℕ} {field : Field} (hfield : l.getField fieldId = some field)
      (hdepot : (l.getDepot field.depotId).isSome) (hpos : 0 < capacity)
      (hle : capacity ≤ farmerCargoCapacity) : Enrols l (.farmer field.depotId fieldId capacity)
  | raider {all : Bool} (hown : (l.getDepot l.raiderHome).isSome) (hfirst : (l.getDepot 1).isSome)
      (hall : ¬ (all = true ∧ l.villageMissing = true)) :
      Enrols l (.raider l.raiderHome 1 raiderCargoCapacity all)
  | carrier (hown : (l.getDepot l.carrierHome).isSome) (hfirst : (l.getDepot 1).isSome)
      (hall : l.villageMissing = false) :
      Enrols l (.carrier l.carrierHome carrierCargoCapacity)

end Ledger

end AIWorld.LivingSupply
