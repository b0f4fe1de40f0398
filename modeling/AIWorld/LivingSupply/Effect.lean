import AIWorld.LivingSupply.Role
import AIWorld.LivingSupply.Settling

/-! What one call does to a ledger. Inside the invariant every call is defined
and has one of the effects below: it leaves the ledger as it is, settles it at
the call's time, or makes one named change whose guards are the source's checks. -/

namespace AIWorld.LivingSupply

open Std Lib

/-- A flow as its caller names it: harvest, theft, load, delivery or meal. -/
structure Flow where
  kind : EventKind
  actor : ℕ
  serial : ℕ
  place : ℕ
  requested : ℕ
  deriving DecidableEq

def Op.flow? : Op → Option Flow
  | .harvestField actor serial fieldId requested _ _ =>
    some ⟨.fieldHarvest, actor.toNat, serial.toNat, fieldId.toNat, requested.toNat⟩
  | .steal actor serial depotId requested _ =>
    some ⟨.theft, actor.toNat, serial.toNat, depotId.toNat, requested.toNat⟩
  | .load actor serial depotId requested _ =>
    some ⟨.loading, actor.toNat, serial.toNat, depotId.toNat, requested.toNat⟩
  | .deliver actor serial depotId requested _ =>
    some ⟨.delivery, actor.toNat, serial.toNat, depotId.toNat, requested.toNat⟩
  | .eatDepot actor serial depotId portions _ =>
    some ⟨.meal, actor.toNat, serial.toNat, depotId.toNat, portions.toNat⟩
  | _ => none

/-- The time of the calls that poll the ledger before they do their own work. -/
def Op.polls? : Op → Option ℕ
  | .reserve _ _ _ _ _ nowMs _ | .commit _ _ nowMs | .harvestField _ _ _ _ nowMs _
  | .expire nowMs => some nowMs.toNat
  | _ => none

/-- The field that a call configures. -/
def Op.field? : Op → Option Field
  | .configureField fieldId nowMs initial capacity regrowMs => some
    { id := fieldId.toNat, depotId := fieldId.toNat, remaining := initial.toNat, capacity := capacity.toNat,
      regrowMs := regrowMs.toNat, lastGrowthAtMs := nowMs.toNat }
  | _ => none

/-- A completed receipt that is not a repeat. -/
def Result.Fresh (r : Result) : Prop := r.success = true ∧ r.duplicate = false

/-- The calls that moved food, took a claim or brought a carcass in. -/
def Effective : Op → Outcome → Prop
  | .registerCarcass .., .flag b => b = true
  | _, .token t => t.isSome
  | _, .result r => r.Fresh
  | _, _ => False

/-! ### Changes -/

def Depot.after (d : Depot) (kind : EventKind) (n : ℕ) : Depot :=
  match kind with
  | .delivery => { d with stock := d.stock + n, delivered := d.delivered + n }
  | .meal => { d with stock := d.stock - n, consumed := d.consumed + n }
  | .theft => { d with stock := d.stock - n, stolen := d.stolen + n }
  | .loading => { d with stock := d.stock - n, exported := d.exported + n }
  | .fieldHarvest => d

def Actor.after (a : Actor) (kind : EventKind) (n : ℕ) : Actor :=
  match kind with
  | .delivery => { a with cargo := a.cargo - n }
  | .meal => a
  | .theft | .loading | .fieldHarvest => { a with cargo := a.cargo + n }

/-- The actor after a flow, with its receipt. -/
def Actor.flowed (a : Actor) (f : Flow) (n : ℕ) : Actor :=
  saveEvent (a.after f.kind n) f.serial f.kind f.place f.requested n

section Flowed
variable (a : Actor) (f : Flow) (n : ℕ)

theorem Actor.flowed_cargo : (a.flowed f n).cargo = (a.after f.kind n).cargo := rfl

@[simp] theorem Actor.flowed_pending : (a.flowed f n).pending = a.pending := by
  cases f with | mk kind => cases kind <;> rfl

@[simp] theorem Actor.flowed_lastCommitted : (a.flowed f n).lastCommitted = a.lastCommitted := by
  cases f with | mk kind => cases kind <;> rfl

@[simp] theorem Actor.flowed_asNew : (a.flowed f n).asNew = a.asNew := by
  cases f with | mk kind => cases kind <;> rfl

@[simp] theorem Actor.flowed_capacity : (a.flowed f n).capacity = a.capacity := by
  cases f with | mk kind => cases kind <;> rfl

end Flowed

/-- The portions of a claim that a predator eats at the carcass. -/
def Claim.eaten (c : Claim) : ℕ := if c.kind = .predatorMeal then c.amount else 0

/-- The actor after its claim is committed. -/
def Actor.extract (a : Actor) (c : Claim) : Actor :=
  { a with
    pending := none
    cargo := if c.kind = .predatorMeal then a.cargo else a.cargo + c.amount
    lastCommitted := some (c.id, ⟨true, false, c.amount, "COMMITTED"⟩) }

def Counters.after (c : Counters) (kind : EventKind) (n : ℕ) : Counters :=
  match kind with
  | .delivery => { c with deliveredTotal := c.deliveredTotal + n }
  | .meal => { c with consumedTotal := c.consumedTotal + n, depotConsumed := c.depotConsumed + n }
  | .theft => { c with stolenTotal := c.stolenTotal + n }
  | .loading => { c with loadedTotal := c.loadedTotal + n }
  | .fieldHarvest => { c with harvestedTotal := c.harvestedTotal + n }

namespace Ledger

/-- What a role allows at a depot or field in the ledger's layout. -/
def Permits (l : Ledger) (a : Actor) (place : ℕ) : EventKind → Prop
  | .delivery => a.predator = false ∧ a.consumer = false ∧
      (a.depotId = place ∨ l.residentsV11 = true ∧ a.carrier = true ∧ (place = 4 ∨ place = 5))
  | .meal => a.predator = false ∧
      (a.depotId = place ∨ l.residentsV11 = true ∧ a.carrier = true ∧ (place = 4 ∨ place = 5))
  | .theft => a.predator = false ∧ a.consumer = false ∧ a.carrier = false ∧
      a.raidSourceDepotId ≠ 0 ∧
      (a.raidSourceDepotId = place ∨ a.allVillageRaidSources = true ∧ l.raidVillage place = true)
  | .loading => a.carrier = true ∧ a.depotId = l.carrierHome ∧ a.predator = false ∧
      a.consumer = false ∧ a.raidSourceDepotId = 0 ∧ a.fieldId = 0 ∧ l.outsideRoutes place = false
  | .fieldHarvest => a.fieldId ≠ 0 ∧ a.fieldId = place ∧ a.predator = false ∧
      a.consumer = false ∧ a.carrier = false ∧ a.raidSourceDepotId = 0

/-- The ledger as a call without further effect leaves it. -/
def rest (l : Ledger) (op : Op) : Ledger :=
  match op.polls? with
  | some nowMs => l.settled nowMs
  | none => l

def addDepot (l : Ledger) (id initial capacity target low : ℕ) : Ledger :=
  { l with
    depots := l.depots.insert id { id, stock := initial, capacity, target, low }
    initialDepotStock := l.initialDepotStock.insert id initial
    counters := { l.counters with initialFood := l.counters.initialFood + initial } }

def addField (l : Ledger) (id nowMs initial capacity regrowMs : ℕ) : Ledger :=
  { l with
    fields := l.fields.insert id
      { id, depotId := id, remaining := initial, capacity, regrowMs, lastGrowthAtMs := nowMs }
    initialFieldCrops := l.initialFieldCrops.insert id initial
    counters := { l.counters with potentialCreated := l.counters.potentialCreated + initial } }

def addCarcass (l : Ledger) (key : CarcassKey) (expiresAtMs portions : ℕ) : Ledger :=
  { l with
    carcasses := l.carcasses.insert key.source ⟨key, portions, 0, expiresAtMs, true⟩
    counters := { l.counters with potentialCreated := l.counters.potentialCreated + portions } }

/-- The ledger with the old life at a source closed. -/
def retired (l : Ledger) (source : ℕ) : Ledger :=
  match l.carcasses[source]? with
  | some c => l.closed c.key
  | none => l

def claimed (l : Ledger) (id : ℕ) (a : Actor) (x : Carcass) (c : Claim) : Ledger :=
  { l with
    actors := l.actors.insert id { a with pending := some c }
    carcasses := l.carcasses.insert c.key.source { x with reserved := x.reserved + c.amount }
    nextClaimSerial := l.nextClaimSerial + 1 }

def extracted (l : Ledger) (id : ℕ) (a : Actor) (x : Carcass) (c : Claim) : Ledger :=
  { l with
    carcasses := l.carcasses.insert c.key.source
      { x with remaining := x.remaining - c.amount, reserved := x.reserved - c.amount }
    actors := l.actors.insert id (a.extract c)
    counters := { l.counters with
      harvestedTotal := l.counters.harvestedTotal + c.amount
      consumedTotal := l.counters.consumedTotal + c.eaten
      predatorConsumed := l.counters.predatorConsumed + c.eaten } }

/-- The ledger with a flow's actor and counters. -/
def record (l : Ledger) (f : Flow) (a : Actor) (n : ℕ) : Ledger :=
  { l with
    actors := l.actors.insert f.actor (a.flowed f n)
    counters := l.counters.after f.kind n }

def harvested (l : Ledger) (f : Flow) (a : Actor) (field : Field) (n : ℕ) : Ledger :=
  { l.record f a n with
    fields := l.fields.insert f.place { field with
      remaining := field.remaining - n
      harvestedTotal := field.harvestedTotal + n } }

def moved (l : Ledger) (f : Flow) (a : Actor) (d : Depot) (n : ℕ) : Ledger :=
  { l.record f a n with depots := l.depots.insert f.place (d.after f.kind n) }

def dropped (l : Ledger) (id : ℕ) (a : Actor) : Ledger :=
  { l with
    actors := l.actors.insert id { a with cargo := 0, lastCommitted := none, lastEvent := none }
    counters := { l.counters with lostTotal := l.counters.lostTotal + a.cargo } }

end Ledger

open Ledger

/-- The effects of a call on a ledger. -/
inductive Effect (l : Ledger) : Op → Outcome → Ledger → Prop
  | kept {op : Op} {o : Outcome} (ho : ¬ Effective op o) : Effect l op o (l.rest op)
  | depotAdded {op : Op} {id initial capacity target low : ℕ} (ho : ¬ Effective op (.flag true))
      (hnew : l.depots[id]? = none) (hinitial : initial ≤ capacity) (hpolls : op.polls? = none) :
      Effect l op (.flag true) (l.addDepot id initial capacity target low)
  | layoutChosen (hactors : l.actors.isEmpty = true) (hfields : l.fields.isEmpty = true) :
      Effect l .configureResidentsV11 (.flag true) { l with residentsV11 := true }
  | fieldAdded {op : Op} {id nowMs initial capacity regrowMs : ℕ}
      (ho : ¬ Effective op (.flag true)) (hid : id ≠ 0) (hnew : l.fields[id]? = none)
      (hinitial : initial ≤ capacity) (hregrow : 0 < regrowMs)
      (hfield : op.field? =
        some { id, depotId := id, remaining := initial, capacity, regrowMs, lastGrowthAtMs := nowMs }) :
      Effect l op (.flag true) (l.addField id nowMs initial capacity regrowMs)
  | actorAdded {op : Op} {id : ℕ} {r : Role} (ho : ¬ Effective op (.flag true))
      (hid : id ≠ 0) (hnew : l.actors[id]? = none) (hasks : op.Asks id r) (hr : l.Enrols r) :
      Effect l op (.flag true) { l with actors := l.actors.insert id r.actor }
  | carcassAdded {source life nowMs expiresAtMs : UInt64} {portions : UInt32}
      (hnew : ∀ c, l.carcasses[source.toNat]? = some c → c.key.life < life.toNat) :
      Effect l (.registerCarcass source life nowMs expiresAtMs portions) (.flag true)
        ((l.retired source.toNat).addCarcass ⟨source.toNat, life.toNat⟩ expiresAtMs.toNat
          portions.toNat)
  | claimRepeated {actor source life nowMs claimTtlMs : UInt64} {kind : ClaimKind}
      {requested : UInt32} {a : Actor} {c : Claim}
      (ha : (l.settled nowMs.toNat).actors[actor.toNat]? = some a) (hc : a.pending = some c)
      (hsame : c.kind = kind) :
      Effect l (.reserve actor source life kind requested nowMs claimTtlMs) (.token (some c.id))
        (l.settled nowMs.toNat)
  | claimed {actor source life nowMs claimTtlMs : UInt64} {kind : ClaimKind} {requested : UInt32}
      {a : Actor} {x : Carcass} {c : Claim}
      (ha : (l.settled nowMs.toNat).actors[actor.toNat]? = some a) (hnone : a.pending = none)
      (hx : (l.settled nowMs.toNat).carcasses[c.key.source]? = some x) (hkey : x.key = c.key)
      (hact : x.active = true) (hsame : c.kind = kind)
      (hid : c.id = ⟨actor.toNat, l.nextClaimSerial + 1⟩)
      (hpos : 0 < c.amount) (hamount : x.reserved + c.amount ≤ x.remaining)
      (hroom : c.kind = .harvest → a.cargo + c.amount ≤ a.capacity)
      (hkind : a.predator = decide (c.kind = .predatorMeal)) (hplain : a.consumer = false ∧
        a.carrier = false ∧ a.raidSourceDepotId = 0 ∧ a.fieldId = 0)
      (hexp : c.expiresAtMs ≤ x.expiresAtMs) :
      Effect l (.reserve actor source life kind requested nowMs claimTtlMs) (.token (some c.id))
        ((l.settled nowMs.toNat).claimed actor.toNat a x c)
  | extracted {actor serial nowMs : UInt64} {a : Actor} {x : Carcass} {c : Claim}
      (ha : (l.settled nowMs.toNat).actors[actor.toNat]? = some a) (hc : a.pending = some c)
      (hid : c.id = ⟨actor.toNat, serial.toNat⟩)
      (hx : (l.settled nowMs.toNat).carcasses[c.key.source]? = some x) (hkey : x.key = c.key)
      (hact : x.active = true) :
      Effect l (.commit actor serial nowMs) (.result ⟨true, false, c.amount, "COMMITTED"⟩)
        ((l.settled nowMs.toNat).extracted actor.toNat a x c)
  | cancelled (actor serial : UInt64) (b : Bool) : Effect l (.cancel actor serial) (.flag b)
        (l.drop fun c => c.id = ⟨actor.toNat, serial.toNat⟩)
  | actorCancelled (actor : UInt64) (b : Bool) : Effect l (.cancelActor actor) (.flag b)
        (l.drop fun c => c.id.actor = actor.toNat)
  | closed (source life : UInt64) :
      Effect l (.closeCarcass source life) .done (l.closed ⟨source.toNat, life.toNat⟩)
  | harvested {op : Op} {f : Flow} {a : Actor} {field : Field} {nowMs n : ℕ}
      (hop : op.flow? = some f) (hkind : f.kind = .fieldHarvest)
      (ha : (l.settled nowMs).actors[f.actor]? = some a)
      (hfield : (l.settled nowMs).fields[f.place]? = some field)
      (hserial : a.lastEventSerial < f.serial) (hpermits : l.Permits a f.place f.kind)
      (hpos : 0 < n) (hle : n ≤ field.remaining) (hroom : a.cargo + n ≤ a.capacity)
      (hpolls : op.polls? = some nowMs) :
      Effect l op (.result (flowReceipt n)) ((l.settled nowMs).harvested f a field n)
  | moved {op : Op} {f : Flow} {a : Actor} {d : Depot} {n : ℕ}
      (hop : op.flow? = some f) (hkind : f.kind ≠ .fieldHarvest) (ha : l.actors[f.actor]? = some a)
      (hd : l.depots[f.place]? = some d) (hserial : a.lastEventSerial < f.serial)
      (hpermits : l.Permits a f.place f.kind) (hpos : 0 < n)
      (hput : f.kind = .delivery → n ≤ a.cargo ∧ d.stock + n ≤ d.capacity)
      (htake : f.kind ≠ .delivery → n ≤ d.stock)
      (hroom : f.kind = .theft ∨ f.kind = .loading → a.cargo + n ≤ a.capacity)
      (hlow : f.kind = .loading → d.low + n ≤ d.stock) :
      Effect l op (.result (flowReceipt n)) (l.moved f a d n)
  | dropped {actor : UInt64} {a : Actor}
      (ha : (l.drop fun c => c.id.actor = actor.toNat).actors[actor.toNat]? = some a)
      (hnone : a.pending = none) :
      Effect l (.dropCargo actor) (.portions a.cargo)
        ((l.drop fun c => c.id.actor = actor.toNat).dropped actor.toNat a)

end AIWorld.LivingSupply
