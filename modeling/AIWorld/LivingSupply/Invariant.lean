import AIWorld.LivingSupply.Ledger

/-! What holds of every ledger that calls can reach. The invariant ties the
counters to the records they count, bounds every store by its capacity, and ties
each carcass's reserved portions to the pending claims on it. -/

namespace AIWorld.LivingSupply

open Std Lib

/-- The portions of a carcass that an actor's pending claim holds. -/
def Actor.pendingOn (a : Actor) (key : CarcassKey) : ℕ :=
  a.pending.elim 0 fun c => if c.key = key then c.amount else 0

/-- The portions of a carcass that all pending claims hold. -/
def pendingOn (actors : ExtTreeMap ℕ Actor) (key : CarcassKey) : ℕ :=
  OrdMap.total (fun _ a => a.pendingOn key) actors

namespace Ledger

/-- A depot's stock is what it started with and what its own counters moved. -/
structure DepotOk (initialStock : ExtTreeMap ℕ ℕ) (id : ℕ) (d : Depot) : Prop where
  balance : ∃ initial, initialStock[id]? = some initial ∧
    d.stock + d.consumed + d.stolen + d.exported = initial + d.delivered
  stock_le : d.stock ≤ d.capacity

structure FieldOk (initialCrops : ExtTreeMap ℕ ℕ) (id : ℕ) (f : Field) : Prop where
  depotId : f.depotId = id
  crops : ∃ initial, initialCrops[id]? = some initial
  remaining_le : f.remaining ≤ f.capacity
  regrowMs_pos : 0 < f.regrowMs

/-- A pending claim: its carcass is alive and outlasts it, and its owner is a
plain hunter with room for it, or a predator. -/
structure ClaimOk (carcasses : ExtTreeMap ℕ Carcass) (issued id : ℕ) (a : Actor) (c : Claim) : Prop where
  actor : c.id.actor = id
  serial_pos : 0 < c.id.serial
  serial_le : c.id.serial ≤ issued
  uncommitted : ∀ t r, a.lastCommitted = some (t, r) → t.serial < c.id.serial
  carcass : ∃ x, carcasses[c.key.source]? = some x ∧ x.key = c.key ∧ x.active = true ∧
    c.expiresAtMs ≤ x.expiresAtMs
  amount_pos : 0 < c.amount
  room : c.kind = .harvest → a.cargo + c.amount ≤ a.capacity
  kind : a.predator = decide (c.kind = .predatorMeal)
  plain : a.consumer = false ∧ a.carrier = false ∧ a.raidSourceDepotId = 0 ∧ a.fieldId = 0

structure ActorOk (carcasses : ExtTreeMap ℕ Carcass) (issued id : ℕ) (a : Actor) : Prop where
  cargo_le : a.cargo ≤ a.capacity
  committed_le : ∀ t r, a.lastCommitted = some (t, r) → t.serial ≤ issued
  committed : ∀ t r, a.lastCommitted = some (t, r) → r.success = true ∧ r.reason = "COMMITTED"
  pending : ∀ c, a.pending = some c → ClaimOk carcasses issued id a c

structure CarcassOk (actors : ExtTreeMap ℕ Actor) (source : ℕ) (c : Carcass) : Prop where
  source : c.key.source = source
  reserved : c.reserved = pendingOn actors c.key
  reserved_le : c.reserved ≤ c.remaining
  inactive : c.active = false → c.remaining = 0

structure Inv (l : Ledger) : Prop where
  conserved : l.Conserved
  potentialConserved : l.PotentialConserved
  deliveredTotal : l.counters.deliveredTotal = OrdMap.total (fun _ d => d.delivered) l.depots
  stolenTotal : l.counters.stolenTotal = OrdMap.total (fun _ d => d.stolen) l.depots
  loadedTotal : l.counters.loadedTotal = OrdMap.total (fun _ d => d.exported) l.depots
  depotConsumed : l.counters.depotConsumed = OrdMap.total (fun _ d => d.consumed) l.depots
  consumedTotal : l.counters.consumedTotal = l.counters.depotConsumed + l.counters.predatorConsumed
  depot : ∀ id d, l.depots[id]? = some d → DepotOk l.initialDepotStock id d
  field : ∀ id f, l.fields[id]? = some f → FieldOk l.initialFieldCrops id f
  actor : ∀ id a, l.actors[id]? = some a → ActorOk l.carcasses l.nextClaimSerial id a
  carcass : ∀ s c, l.carcasses[s]? = some c → CarcassOk l.actors s c

theorem inv_empty : Inv {} := by
  constructor <;>
    simp [Conserved, PotentialConserved, depotFood, cargoFood, remainingPotential,
      carcassPotential, fieldPotential]

variable {l : Ledger}

/-- A pending claim's carcass, found by its key. -/
theorem Inv.pending_carcass (h : Inv l) {id : ℕ} {a : Actor} {c : Claim}
    (ha : l.actors[id]? = some a) (hc : a.pending = some c) :
    ∃ x, l.carcasses[c.key.source]? = some x ∧ x.key = c.key ∧ x.active = true ∧
      c.expiresAtMs ≤ x.expiresAtMs ∧ c.amount ≤ x.reserved := by
  obtain ⟨x, hx, hk, hact, hexp⟩ := ((h.actor id a ha).pending c hc).carcass
  refine ⟨x, hx, hk, hact, hexp, ?_⟩
  have hle : a.pendingOn x.key ≤ pendingOn l.actors x.key :=
    OrdMap.le_total ha fun _ (a : Actor) => a.pendingOn x.key
  rw [(h.carcass _ x hx).reserved]
  simpa [Actor.pendingOn, hc, hk] using hle

/-- No pending claim names a carcass without reserved portions. -/
theorem Inv.not_pending_of_reserved (h : Inv l) {s : ℕ} {x : Carcass} (hx : l.carcasses[s]? = some x)
    (hr : x.reserved = 0) {id : ℕ} {a : Actor} {c : Claim} (ha : l.actors[id]? = some a)
    (hc : a.pending = some c) : c.key ≠ x.key := by
  intro hk
  obtain ⟨y, hy, _, _, _, hle⟩ := h.pending_carcass ha hc
  have hs : c.key.source = s := by rw [hk, (h.carcass s x hx).source]
  rw [hs, hx, Option.some.injEq] at hy
  have hpos := ((h.actor id a ha).pending c hc).amount_pos
  subst hy
  omega

theorem Inv.inactive (h : Inv l) {s : ℕ} {x : Carcass} (hx : l.carcasses[s]? = some x)
    (hact : x.active = false) : x.remaining = 0 ∧ x.reserved = 0 := by
  have hok := h.carcass s x hx
  have := hok.inactive hact
  have := hok.reserved_le
  omega

end Ledger

end AIWorld.LivingSupply
