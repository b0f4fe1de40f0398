import AIWorld.LivingSupply.State

/-! The operations of the food ledger, and the ledger as a machine whose inputs
are the calls. A call is undefined only where an unsigned subtraction would wrap
or a map entry the code takes for granted is missing. A function that the source
overloads on an iterator rereads the map here. -/

namespace AIWorld.LivingSupply

open Std

namespace Ledger

/-! ### Layout -/

/-- The ids that are not crop fields of the layout. -/
def outsideFields (l : Ledger) (id : ℕ) : Bool :=
  if l.residentsV11 then id < 1 || 3 < id else id < 4 || 6 < id

def raiderHome (l : Ledger) : ℕ := if l.residentsV11 then 6 else 3

def carrierHome (l : Ledger) : ℕ := if l.residentsV11 then 5 else cityDepotId

/-- Whether a village beyond the first has no depot. -/
def villageMissing (l : Ledger) : Bool :=
  if l.residentsV11 then
    (l.getDepot 2).isNone || (l.getDepot 3).isNone || (l.getDepot 4).isNone
  else (l.getDepot 4).isNone || (l.getDepot 5).isNone || (l.getDepot 6).isNone

/-- The depots that a raider with all villages as sources may steal from. -/
def raidVillage (l : Ledger) (id : ℕ) : Bool :=
  if l.residentsV11 then 1 ≤ id && id ≤ 4 else 4 ≤ id && id ≤ 6

/-- The ids that are not sources of the layout's carriers. -/
def outsideRoutes (l : Ledger) (id : ℕ) : Bool :=
  if l.residentsV11 then id < 1 || 3 < id else id ≠ 1 && id ≠ 4 && id ≠ 5 && id ≠ 6

def configureDepot (l : Ledger) (id : ℕ) (initial : ℕ := 0) (capacity : ℕ := depotCapacity)
    (target : ℕ := depotTarget) (low : ℕ := depotLow) : Option (Bool × Ledger) :=
  if id = 0 ∨ capacity = 0 ∨ target < low ∨ capacity < target ∨ capacity < initial then
    some (false, l)
  else match l.getDepot id with
    | some current =>
      if current.capacity = capacity ∧ current.target = target ∧ current.low = low then do
        let first ← l.initialDepotStock[id]?
        return (decide (first = initial), l)
      else some (false, l)
    | none =>
      if 7 ≤ l.depots.size then some (false, l)
      else some (true, { l with
        depots := l.depots.insert id { id, stock := initial, capacity, target, low }
        initialDepotStock := l.initialDepotStock.insert id initial
        counters := { l.counters with initialFood := l.counters.initialFood + initial } })

/-- The second layout is selected only on an empty ledger with the six village
and city depots. -/
def configureResidentsV11 (l : Ledger) : Bool × Ledger :=
  if ¬ l.actors.isEmpty ∨ ¬ l.fields.isEmpty ∨ ¬ l.carcasses.isEmpty ∨ l.depots.size ≠ 6 ∨
      l.counters.initialFood ≠ 0 ∨ l.residentsV11 then (false, l)
  else if [1, 2, 3, 4, 5, 6].any fun id => (l.getDepot id).isNone then (false, l)
  else (true, { l with residentsV11 := true })

def configureField (l : Ledger) (id nowMs : ℕ) (initial : ℕ := fieldCapacity)
    (capacity : ℕ := fieldCapacity) (regrowMs : ℕ := fieldRegrowMs) : Option (Bool × Ledger) :=
  if l.outsideFields id ∨ l.getDepot id = none ∨ capacity = 0 ∨ fieldCapacity < capacity ∨
      capacity < initial ∨ regrowMs < fieldRegrowMs then
    some (false, l)
  else match l.getField id with
    | some current =>
      if current.capacity = capacity ∧ current.regrowMs = regrowMs then do
        let first ← l.initialFieldCrops[id]?
        return (decide (first = initial), l)
      else some (false, l)
    | none =>
      if 3 ≤ l.fields.size then some (false, l)
      else some (true, { l with
        fields := l.fields.insert id
          { id, depotId := id, remaining := initial, capacity, regrowMs, lastGrowthAtMs := nowMs }
        initialFieldCrops := l.initialFieldCrops.insert id initial
        counters := { l.counters with potentialCreated := l.counters.potentialCreated + initial } })

/-! ### Registration -/

def registerActor (l : Ledger) (actor : ℕ) (depotId : ℕ := 0)
    (cargoCapacity : ℕ := hunterCargoCapacity) (predator : Bool := false)
    (consumer : Bool := false) : Bool × Ledger :=
  if actor = 0 ∨ (predator ∧ consumer) ∨
      (if consumer then l.getDepot depotId = none ∨ cargoCapacity ≠ 0
       else if predator then depotId ≠ 0 ∨ cargoCapacity ≠ 0
       else l.getDepot depotId = none ∨ cargoCapacity = 0 ∨ hunterCargoCapacity < cargoCapacity) then
    (false, l)
  else match l.actors[actor]? with
    | some current =>
      (decide (current.depotId = depotId ∧ current.capacity = cargoCapacity ∧
        current.predator = predator ∧ current.consumer = consumer ∧
        current.raidSourceDepotId = 0 ∧ current.fieldId = 0 ∧ current.carrier = false), l)
    | none =>
      if 128 ≤ l.actors.size then (false, l)
      else (true, { l with
        actors := l.actors.insert actor { depotId, capacity := cargoCapacity, predator, consumer } })

def registerFarmer (l : Ledger) (actor depotId fieldId : ℕ)
    (cargoCapacity : ℕ := farmerCargoCapacity) : Bool × Ledger :=
  match l.getField fieldId with
  | none => (false, l)
  | some field =>
    if actor = 0 ∨ field.depotId ≠ depotId ∨ l.getDepot depotId = none ∨ cargoCapacity = 0 ∨
        farmerCargoCapacity < cargoCapacity then (false, l)
    else match l.actors[actor]? with
      | some current =>
        (decide (current.depotId = depotId ∧ current.capacity = cargoCapacity ∧
          current.fieldId = fieldId ∧ current.raidSourceDepotId = 0 ∧ current.predator = false ∧
          current.consumer = false ∧ current.carrier = false), l)
      | none =>
        if 128 ≤ l.actors.size then (false, l)
        else (true, { l with
          actors := l.actors.insert actor
            { depotId, capacity := cargoCapacity, predator := false, consumer := false, fieldId } })

/-- Theft is a capability of its own: a fixed own depot, the first source, and
with `allVillageSources` the other villages of the layout. -/
def registerRaider (l : Ledger) (actor : ℕ) (ownDepotId : ℕ := 3) (sourceDepotId : ℕ := 1)
    (cargoCapacity : ℕ := raiderCargoCapacity) (allVillageSources : Bool := false) :
    Bool × Ledger :=
  if actor = 0 ∨ ownDepotId ≠ l.raiderHome ∨ sourceDepotId ≠ 1 ∨
      cargoCapacity ≠ raiderCargoCapacity ∨ l.getDepot ownDepotId = none ∨
      l.getDepot sourceDepotId = none then (false, l)
  else if allVillageSources ∧ l.villageMissing then (false, l)
  else match l.actors[actor]? with
    | some current =>
      (decide (current.depotId = ownDepotId ∧ current.capacity = cargoCapacity ∧
        current.raidSourceDepotId = sourceDepotId ∧ current.predator = false ∧
        current.consumer = false ∧ current.fieldId = 0 ∧
        current.allVillageRaidSources = allVillageSources ∧ current.carrier = false), l)
    | none =>
      if 128 ≤ l.actors.size then (false, l)
      else (true, { l with
        actors := l.actors.insert actor
          { depotId := ownDepotId, capacity := cargoCapacity, predator := false, consumer := false,
            raidSourceDepotId := sourceDepotId, allVillageRaidSources := allVillageSources } })

def registerCarrier (l : Ledger) (actor : ℕ) (ownDepotId : ℕ := cityDepotId)
    (cargoCapacity : ℕ := carrierCargoCapacity) : Bool × Ledger :=
  if actor = 0 ∨ ownDepotId ≠ l.carrierHome ∨ cargoCapacity ≠ carrierCargoCapacity ∨
      l.getDepot ownDepotId = none ∨ l.getDepot 1 = none ∨ l.villageMissing then (false, l)
  else match l.actors[actor]? with
    | some current =>
      (decide (current.carrier = true ∧ current.depotId = ownDepotId ∧
        current.capacity = cargoCapacity ∧ current.predator = false ∧ current.consumer = false ∧
        current.raidSourceDepotId = 0 ∧ current.fieldId = 0), l)
    | none =>
      if 128 ≤ l.actors.size then (false, l)
      else (true, { l with
        actors := l.actors.insert actor
          { depotId := ownDepotId, capacity := cargoCapacity, predator := false, consumer := false,
            carrier := true } })

/-! ### Claims, carcasses and growth -/

/-- Give a claim's portions back to its carcass. -/
def release (l : Ledger) (claim : Claim) : Option Ledger :=
  match l.findCarcass claim.key with
  | none => some l
  | some carcass => do
    let reserved ← usub carcass.reserved claim.amount
    return { l with carcasses := l.carcasses.insert claim.key.source { carcass with reserved } }

/-- Release and drop the pending claim of an actor. -/
def dropPending (l : Ledger) (id : ℕ) (actor : Actor) (claim : Claim) : Option Ledger := do
  let l ← l.release claim
  return { l with actors := l.actors.insert id { actor with pending := none } }

/-- The body of the loops over the actors in `CloseCarcass` and `Expire`. -/
def dropPendingIf (p : Claim → Bool) (l : Ledger) (id : ℕ) : Option Ledger :=
  match l.actors[id]? with
  | none => some l
  | some actor =>
    match actor.pending with
    | none => some l
    | some claim => if p claim then l.dropPending id actor claim else some l

def closeCarcass (l : Ledger) (key : CarcassKey) : Option Ledger :=
  match l.findCarcass key with
  | none => some l
  | some carcass =>
    if carcass.active = false then some l
    else do
      let l ← l.actors.keys.foldlM (dropPendingIf fun claim => claim.key = key) l
      let carcass ← l.findCarcass key
      return { l with
        carcasses := l.carcasses.insert key.source { carcass with remaining := 0, active := false }
        counters := { l.counters with
          potentialLost := l.counters.potentialLost + carcass.remaining } }

/-- A backwards clock never rewinds the growth anchor, time spent full is not
banked, and a partial growth keeps the remainder of its interval. -/
def regrow (nowMs : ℕ) (l : Ledger) (id : ℕ) : Option Ledger :=
  match l.fields[id]? with
  | none => some l
  | some field =>
    if nowMs ≤ field.lastGrowthAtMs then some l
    else if field.remaining = field.capacity then
      some { l with fields := l.fields.insert id { field with lastGrowthAtMs := nowMs } }
    else do
      let elapsed ← usub nowMs field.lastGrowthAtMs
      let room ← usub field.capacity field.remaining
      let growth := min (elapsed / field.regrowMs) room
      if growth = 0 then return l
      else
        return { l with
          fields := l.fields.insert id { field with
            remaining := field.remaining + growth
            regrownTotal := field.regrownTotal + growth
            lastGrowthAtMs :=
              if field.remaining + growth = field.capacity then nowMs
              else field.lastGrowthAtMs + growth * field.regrowMs }
          counters := { l.counters with
            potentialCreated := l.counters.potentialCreated + growth } }

def closeIfExpired (nowMs : ℕ) (l : Ledger) (source : ℕ) : Option Ledger :=
  match l.carcasses[source]? with
  | none => some l
  | some carcass =>
    if carcass.active = true ∧ carcass.expiresAtMs ≤ nowMs then l.closeCarcass carcass.key
    else some l

def expire (l : Ledger) (nowMs : ℕ) : Option Ledger := do
  let l ← l.fields.keys.foldlM (regrow nowMs) l
  let l ← l.actors.keys.foldlM (dropPendingIf fun claim => claim.expiresAtMs ≤ nowMs) l
  l.carcasses.keys.foldlM (closeIfExpired nowMs) l

/-- A source's lives strictly increase; a closed life stays as a tombstone. -/
def registerCarcass (l : Ledger) (key : CarcassKey) (nowMs expiresAtMs : ℕ)
    (portions : ℕ := carcassPortions) : Option (Bool × Ledger) :=
  if key.source = 0 ∨ key.life = 0 ∨ expiresAtMs ≤ nowMs ∨ portions = 0 ∨
      carcassPortions < portions then some (false, l)
  else
    let added (l : Ledger) : Ledger := { l with
      carcasses := l.carcasses.insert key.source ⟨key, portions, 0, expiresAtMs, true⟩
      counters := { l.counters with potentialCreated := l.counters.potentialCreated + portions } }
    match l.carcasses[key.source]? with
    | some current =>
      if key.life ≤ current.key.life then some (false, l)
      else do
        let l ← l.closeCarcass current.key
        return (true, added l)
    | none => if 256 ≤ l.carcasses.size then some (false, l) else some (true, added l)

/-- The portions a new claim gets: unreserved ones and, for a hunter, with room for them. -/
def claimAmount (owner : Actor) (carcass : Carcass) (requested : ℕ) : Option ℕ := do
  let unreserved ← usub carcass.remaining carcass.reserved
  if owner.predator then return min requested unreserved
  else
    let room ← usub owner.capacity owner.cargo
    return min (min requested unreserved) room

def reserve (l : Ledger) (actorId : ℕ) (key : CarcassKey) (kind : ClaimKind)
    (requested nowMs : ℕ) (claimTtlMs : ℕ := 15000) : Option (Option Token × Ledger) := do
  let l ← l.expire nowMs
  match l.actors[actorId]?, l.findCarcass key with
  | some owner, some carcass =>
    if carcass.active = false ∨ requested = 0 ∨ claimTtlMs = 0 ∨
        (kind ≠ .harvest ∧ kind ≠ .predatorMeal) then return (none, l)
    else if owner.consumer = true ∨ owner.carrier = true ∨ owner.raidSourceDepotId ≠ 0 ∨
        owner.fieldId ≠ 0 ∨ owner.predator ≠ decide (kind = .predatorMeal) ∨
        owner.claimLimit < requested then
      return (none, l)
    else match owner.pending with
      | some pending =>
        if pending.key = key ∧ pending.kind = kind ∧ pending.requested = requested then
          return (some pending.id, l)
        else return (none, l)
      | none =>
        let amount ← claimAmount owner carcass requested
        if amount = 0 ∨ l.nextClaimSerial = uint64Max then return (none, l)
        else
          let untilMax ← usub uint64Max nowMs
          let expires := if untilMax < claimTtlMs then uint64Max else nowMs + claimTtlMs
          let token : Token := ⟨actorId, l.nextClaimSerial + 1⟩
          let claim : Claim :=
            ⟨token, key, kind, requested, amount, min expires carcass.expiresAtMs⟩
          return (some token, { l with
            actors := l.actors.insert actorId { owner with pending := some claim }
            carcasses := l.carcasses.insert key.source
              { carcass with reserved := carcass.reserved + amount }
            nextClaimSerial := l.nextClaimSerial + 1 })
  | _, _ => return (none, l)

def cancel (l : Ledger) (token : Token) : Option (Bool × Ledger) :=
  match l.actors[token.actor]? with
  | none => some (false, l)
  | some actor =>
    match actor.pending with
    | none => some (false, l)
    | some claim =>
      if claim.id = token then do
        let l ← l.dropPending token.actor actor claim
        return (true, l)
      else some (false, l)

def cancelActor (l : Ledger) (actor : ℕ) : Option (Bool × Ledger) :=
  match l.actors[actor]? with
  | none => some (false, l)
  | some found =>
    match found.pending with
    | none => some (false, l)
    | some claim => l.cancel claim.id

/-- Cancel a claim whose carcass or room is gone. -/
def invalidate (l : Ledger) (token : Token) : Option (Result × Ledger) := do
  let (_, l) ← l.cancel token
  return (rejected "CLAIM_INVALIDATED", l)

/-- Whether a hunter's cargo has no room left for its claim. -/
def overfull (actor : Actor) (claim : Claim) : Option Bool :=
  if claim.kind = .harvest then do
    let room ← usub actor.capacity claim.amount
    return room < actor.cargo
  else some false

def commit (l : Ledger) (token : Token) (nowMs : ℕ) : Option (Result × Ledger) := do
  let l ← l.expire nowMs
  match l.actors[token.actor]? with
  | none => return (rejected "UNKNOWN_CLAIM", l)
  | some actor =>
    if token.serial = 0 then return (rejected "UNKNOWN_CLAIM", l)
    else match actor.lastCommitted.filter (·.1 = token) with
      | some (_, receipt) => return (replayed receipt, l)
      | none =>
        match actor.pending.filter (·.id = token) with
        | none => return (rejected "UNKNOWN_CLAIM", l)
        | some claim =>
          match l.findCarcass claim.key with
          | none => l.invalidate token
          | some carcass =>
            if carcass.active = false ∨ claim.expiresAtMs ≤ nowMs ∨
                carcass.reserved < claim.amount ∨ carcass.remaining < claim.amount then
              l.invalidate token
            else do
              let full ← overfull actor claim
              if full then l.invalidate token
              else
                let remaining ← usub carcass.remaining claim.amount
                let reserved ← usub carcass.reserved claim.amount
                let meal := decide (claim.kind = .predatorMeal)
                let result : Result := ⟨true, false, claim.amount, "COMMITTED"⟩
                return (result, { l with
                  carcasses := l.carcasses.insert claim.key.source
                    { carcass with remaining, reserved }
                  actors := l.actors.insert token.actor { actor with
                    pending := none
                    cargo := if meal then actor.cargo else actor.cargo + claim.amount
                    lastCommitted := some (token, result) }
                  counters := { l.counters with
                    harvestedTotal := l.counters.harvestedTotal + claim.amount
                    consumedTotal :=
                      l.counters.consumedTotal + if meal then claim.amount else 0
                    predatorConsumed :=
                      l.counters.predatorConsumed + if meal then claim.amount else 0 } })

/-! ### Flows -/

/-- Only a completed work action turns a farmer's own crop into cargo. -/
def harvestField (l : Ledger) (actorId eventSerial fieldId requested nowMs : ℕ)
    (physicallyCompleted : Bool) : Option (Result × Ledger) := do
  let l ← l.expire nowMs
  match l.actors[actorId]? with
  | none => return (rejected "UNKNOWN_ACTOR", l)
  | some owner =>
    match replayEvent owner eventSerial .fieldHarvest fieldId requested, l.fields[fieldId]? with
    | some replay, _ => return (replay, l)
    | none, none => return (rejected "FIELD_HARVEST_NOT_AUTHORIZED", l)
    | none, some field =>
      if physicallyCompleted = false ∨ eventSerial = 0 ∨ requested = 0 ∨
          owner.capacity < requested ∨ owner.fieldId = 0 ∨ owner.fieldId ≠ fieldId ∨
          field.depotId ≠ owner.depotId ∨ owner.predator = true ∨ owner.consumer = true ∨
          owner.carrier = true ∨ owner.raidSourceDepotId ≠ 0 then
        return (rejected "FIELD_HARVEST_NOT_AUTHORIZED", l)
      else
        let room ← usub owner.capacity owner.cargo
        let amount := min requested (min room field.remaining)
        if amount = 0 then
          return (rejected (if owner.cargo = owner.capacity then "CARGO_FULL" else "FIELD_EMPTY"), l)
        else
          let remaining ← usub field.remaining amount
          return (flowReceipt amount, { l with
            fields := l.fields.insert fieldId
              { field with remaining, harvestedTotal := field.harvestedTotal + amount }
            actors := l.actors.insert actorId
              (saveEvent { owner with cargo := owner.cargo + amount }
                eventSerial .fieldHarvest fieldId requested amount)
            counters := { l.counters with
              harvestedTotal := l.counters.harvestedTotal + amount } })

def steal (l : Ledger) (actorId eventSerial sourceDepotId requested : ℕ)
    (physicallyCompleted : Bool) : Option (Result × Ledger) :=
  match l.actors[actorId]? with
  | none => some (rejected "UNKNOWN_ACTOR", l)
  | some owner =>
    match replayEvent owner eventSerial .theft sourceDepotId requested, l.depots[sourceDepotId]? with
    | some replay, _ => some (replay, l)
    | none, none => some (rejected "THEFT_NOT_AUTHORIZED", l)
    | none, some source =>
      if physicallyCompleted = false ∨ eventSerial = 0 ∨ requested = 0 ∨
          raiderCargoCapacity < requested ∨ owner.predator = true ∨ owner.consumer = true ∨
          owner.carrier = true ∨ owner.raidSourceDepotId = 0 ∨
          (owner.raidSourceDepotId ≠ sourceDepotId ∧
            ¬ (owner.allVillageRaidSources = true ∧ l.raidVillage sourceDepotId)) then
        some (rejected "THEFT_NOT_AUTHORIZED", l)
      else do
        let room ← usub owner.capacity owner.cargo
        let amount := min requested room
        if amount = 0 then return (rejected "CARGO_FULL", l)
        else if source.stock < amount then return (rejected "NO_FOOD", l)
        else
          let stock ← usub source.stock amount
          return (flowReceipt amount, { l with
            depots := l.depots.insert sourceDepotId
              { source with stock, stolen := source.stolen + amount }
            actors := l.actors.insert actorId
              (saveEvent { owner with cargo := owner.cargo + amount }
                eventSerial .theft sourceDepotId requested amount)
            counters := { l.counters with stolenTotal := l.counters.stolenTotal + amount } })

/-- The stock of a depot above its low-water mark. -/
def aboveLow (source : Depot) : Option ℕ :=
  if source.low < source.stock then usub source.stock source.low else some 0

/-- A load never takes a village below its low-water mark. -/
def load (l : Ledger) (actorId eventSerial sourceDepotId requested : ℕ)
    (physicallyCompleted : Bool) : Option (Result × Ledger) :=
  match l.actors[actorId]? with
  | none => some (rejected "UNKNOWN_ACTOR", l)
  | some owner =>
    match replayEvent owner eventSerial .loading sourceDepotId requested,
      l.depots[sourceDepotId]? with
    | some replay, _ => some (replay, l)
    | none, none => some (rejected "LOAD_NOT_AUTHORIZED", l)
    | none, some source =>
      if physicallyCompleted = false ∨ eventSerial = 0 ∨ requested = 0 ∨
          carrierCargoCapacity < requested ∨ owner.carrier = false ∨
          owner.depotId ≠ l.carrierHome ∨ owner.predator = true ∨ owner.consumer = true ∨
          owner.raidSourceDepotId ≠ 0 ∨ owner.fieldId ≠ 0 ∨ l.outsideRoutes sourceDepotId then
        some (rejected "LOAD_NOT_AUTHORIZED", l)
      else if owner.capacity ≤ owner.cargo then some (rejected "CARGO_FULL", l)
      else do
        let available ← aboveLow source
        let room ← usub owner.capacity owner.cargo
        let amount := min requested (min room available)
        if amount = 0 then return (rejected "VILLAGE_RESERVE", l)
        else
          let stock ← usub source.stock amount
          return (flowReceipt amount, { l with
            depots := l.depots.insert sourceDepotId
              { source with stock, exported := source.exported + amount }
            actors := l.actors.insert actorId
              (saveEvent { owner with cargo := owner.cargo + amount }
                eventSerial .loading sourceDepotId requested amount)
            counters := { l.counters with loadedTotal := l.counters.loadedTotal + amount } })

def deliver (l : Ledger) (actorId eventSerial depotId requested : ℕ)
    (physicallyCompleted : Bool) : Option (Result × Ledger) :=
  match l.actors[actorId]? with
  | none => some (rejected "UNKNOWN_ACTOR", l)
  | some owner =>
    match replayEvent owner eventSerial .delivery depotId requested, l.depots[depotId]? with
    | some replay, _ => some (replay, l)
    | none, none => some (rejected "DELIVERY_NOT_AUTHORIZED", l)
    | none, some depot =>
      if physicallyCompleted = false ∨ eventSerial = 0 ∨ requested = 0 ∨ owner.predator = true ∨
          owner.consumer = true ∨
          (owner.depotId ≠ depotId ∧
            ¬ (l.residentsV11 = true ∧ owner.carrier = true ∧ (depotId = 4 ∨ depotId = 5))) then
        some (rejected "DELIVERY_NOT_AUTHORIZED", l)
      else do
        let room ← usub depot.capacity depot.stock
        let amount := min requested (min owner.cargo room)
        if amount = 0 then
          return (rejected (if owner.cargo ≠ 0 then "DEPOT_FULL" else "NO_CARGO"), l)
        else
          let cargo ← usub owner.cargo amount
          return (flowReceipt amount, { l with
            depots := l.depots.insert depotId
              { depot with stock := depot.stock + amount, delivered := depot.delivered + amount }
            actors := l.actors.insert actorId
              (saveEvent { owner with cargo } eventSerial .delivery depotId requested amount)
            counters := { l.counters with deliveredTotal := l.counters.deliveredTotal + amount } })

def eatDepot (l : Ledger) (actorId eventSerial depotId portions : ℕ)
    (physicallyCompleted : Bool) : Option (Result × Ledger) :=
  match l.actors[actorId]? with
  | none => some (rejected "UNKNOWN_ACTOR", l)
  | some owner =>
    match replayEvent owner eventSerial .meal depotId portions, l.depots[depotId]? with
    | some replay, _ => some (replay, l)
    | none, none => some (rejected "MEAL_NOT_AUTHORIZED", l)
    | none, some depot =>
      if physicallyCompleted = false ∨ eventSerial = 0 ∨ portions = 0 ∨ owner.predator = true ∨
          (owner.depotId ≠ depotId ∧
            ¬ (l.residentsV11 = true ∧ owner.carrier = true ∧ (depotId = 4 ∨ depotId = 5))) then
        some (rejected "MEAL_NOT_AUTHORIZED", l)
      else if depot.stock < portions then some (rejected "NO_FOOD", l)
      else do
        let stock ← usub depot.stock portions
        return (flowReceipt portions, { l with
          depots := l.depots.insert depotId
            { depot with stock, consumed := depot.consumed + portions }
          actors := l.actors.insert actorId
            (saveEvent owner eventSerial .meal depotId portions portions)
          counters := { l.counters with
            consumedTotal := l.counters.consumedTotal + portions
            depotConsumed := l.counters.depotConsumed + portions } })

/-- A new materialization keeps the last event serial but no receipt of the
life before it. -/
def dropCargo (l : Ledger) (actorId : ℕ) : Option (ℕ × Ledger) :=
  match l.actors[actorId]? with
  | none => some (0, l)
  | some _ => do
    let (_, l) ← l.cancelActor actorId
    let owner ← l.actors[actorId]?
    return (owner.cargo, { l with
      actors := l.actors.insert actorId
        { owner with cargo := 0, lastCommitted := none, lastEvent := none }
      counters := { l.counters with lostTotal := l.counters.lostTotal + owner.cargo } })

end Ledger

/-! ### The ledger as a machine -/

/-- A call, with arguments of the source's widths. -/
inductive Op where
  | configureDepot (depotId initial capacity target low : UInt32)
  | configureResidentsV11
  | configureField (fieldId : UInt32) (nowMs : UInt64) (initial capacity : UInt32) (regrowMs : UInt64)
  | registerActor (actor : UInt64) (depotId cargoCapacity : UInt32) (predator consumer : Bool)
  | registerFarmer (actor : UInt64) (depotId fieldId cargoCapacity : UInt32)
  | registerRaider (actor : UInt64) (ownDepotId sourceDepotId cargoCapacity : UInt32)
      (allVillageSources : Bool)
  | registerCarrier (actor : UInt64) (ownDepotId cargoCapacity : UInt32)
  | registerCarcass (source life nowMs expiresAtMs : UInt64) (portions : UInt32)
  | reserve (actor source life : UInt64) (kind : ClaimKind) (requested : UInt32)
      (nowMs claimTtlMs : UInt64)
  | commit (actor serial nowMs : UInt64)
  | cancel (actor serial : UInt64)
  | cancelActor (actor : UInt64)
  | closeCarcass (source life : UInt64)
  | expire (nowMs : UInt64)
  | harvestField (actor eventSerial : UInt64) (fieldId requested : UInt32) (nowMs : UInt64)
      (physicallyCompleted : Bool)
  | steal (actor eventSerial : UInt64) (sourceDepotId requested : UInt32)
      (physicallyCompleted : Bool)
  | load (actor eventSerial : UInt64) (sourceDepotId requested : UInt32)
      (physicallyCompleted : Bool)
  | deliver (actor eventSerial : UInt64) (depotId requested : UInt32) (physicallyCompleted : Bool)
  | eatDepot (actor eventSerial : UInt64) (depotId portions : UInt32) (physicallyCompleted : Bool)
  | dropCargo (actor : UInt64)

/-- What a call returns. -/
inductive Outcome where
  | done
  | flag (b : Bool)
  | token (t : Option Token)
  | result (r : Result)
  | portions (n : ℕ)
  deriving DecidableEq

/-- One call on the ledger. -/
def step (l : Ledger) : Op → Option (Outcome × Ledger)
  | .configureDepot depotId initial capacity target low =>
    (l.configureDepot depotId.toNat initial.toNat capacity.toNat target.toNat low.toNat).map
      (Prod.map .flag id)
  | .configureResidentsV11 => some (Prod.map .flag id l.configureResidentsV11)
  | .configureField fieldId nowMs initial capacity regrowMs =>
    (l.configureField fieldId.toNat nowMs.toNat initial.toNat capacity.toNat regrowMs.toNat).map
      (Prod.map .flag id)
  | .registerActor actor depotId cargoCapacity predator consumer =>
    some (Prod.map .flag id
      (l.registerActor actor.toNat depotId.toNat cargoCapacity.toNat predator consumer))
  | .registerFarmer actor depotId fieldId cargoCapacity =>
    some (Prod.map .flag id
      (l.registerFarmer actor.toNat depotId.toNat fieldId.toNat cargoCapacity.toNat))
  | .registerRaider actor ownDepotId sourceDepotId cargoCapacity allVillageSources =>
    some (Prod.map .flag id (l.registerRaider actor.toNat ownDepotId.toNat sourceDepotId.toNat
      cargoCapacity.toNat allVillageSources))
  | .registerCarrier actor ownDepotId cargoCapacity =>
    some (Prod.map .flag id
      (l.registerCarrier actor.toNat ownDepotId.toNat cargoCapacity.toNat))
  | .registerCarcass source life nowMs expiresAtMs portions =>
    (l.registerCarcass ⟨source.toNat, life.toNat⟩ nowMs.toNat expiresAtMs.toNat
      portions.toNat).map (Prod.map .flag id)
  | .reserve actor source life kind requested nowMs claimTtlMs =>
    (l.reserve actor.toNat ⟨source.toNat, life.toNat⟩ kind requested.toNat nowMs.toNat
      claimTtlMs.toNat).map (Prod.map .token id)
  | .commit actor serial nowMs =>
    (l.commit ⟨actor.toNat, serial.toNat⟩ nowMs.toNat).map (Prod.map .result id)
  | .cancel actor serial => (l.cancel ⟨actor.toNat, serial.toNat⟩).map (Prod.map .flag id)
  | .cancelActor actor => (l.cancelActor actor.toNat).map (Prod.map .flag id)
  | .closeCarcass source life =>
    (l.closeCarcass ⟨source.toNat, life.toNat⟩).map (Prod.mk .done)
  | .expire nowMs => (l.expire nowMs.toNat).map (Prod.mk .done)
  | .harvestField actor eventSerial fieldId requested nowMs physicallyCompleted =>
    (l.harvestField actor.toNat eventSerial.toNat fieldId.toNat requested.toNat nowMs.toNat
      physicallyCompleted).map (Prod.map .result id)
  | .steal actor eventSerial sourceDepotId requested physicallyCompleted =>
    (l.steal actor.toNat eventSerial.toNat sourceDepotId.toNat requested.toNat
      physicallyCompleted).map (Prod.map .result id)
  | .load actor eventSerial sourceDepotId requested physicallyCompleted =>
    (l.load actor.toNat eventSerial.toNat sourceDepotId.toNat requested.toNat
      physicallyCompleted).map (Prod.map .result id)
  | .deliver actor eventSerial depotId requested physicallyCompleted =>
    (l.deliver actor.toNat eventSerial.toNat depotId.toNat requested.toNat
      physicallyCompleted).map (Prod.map .result id)
  | .eatDepot actor eventSerial depotId portions physicallyCompleted =>
    (l.eatDepot actor.toNat eventSerial.toNat depotId.toNat portions.toNat
      physicallyCompleted).map (Prod.map .result id)
  | .dropCargo actor => (l.dropCargo actor.toNat).map (Prod.map .portions id)

/-- Runs of the ledger. -/
def machine : Lib.Machine Ledger Op Outcome := ⟨step⟩

/-- A small world: a depot with a plain hunter and its claim on a carcass. -/
def smallWorld : List Op :=
  [.configureDepot 1 10 30 12 4, .registerActor 7 1 6 false false,
    .registerCarcass 100 1 0 60000 6, .reserve 7 100 1 .harvest 4 10 15000]

set_option maxRecDepth 10000 in
theorem smallWorld_run : ∃ tr l, machine.Run {} tr l ∧ l.nextClaimSerial = 1 := by
  have h : ((machine.exec {} smallWorld).map fun p => p.2.nextClaimSerial) = some 1 := by
    decide +kernel
  obtain ⟨⟨tr, l⟩, hrun, hserial⟩ := Option.map_eq_some_iff.mp h
  exact ⟨tr, l, Lib.Machine.run_of_exec hrun, hserial⟩

/-- A ledger that some sequence of calls leads to from an empty one. -/
def Reachable (l : Ledger) : Prop := machine.Reachable {} l

end AIWorld.LivingSupply
