import AIWorld.Lib.Machine
import AIWorld.Raid.LivingRaid

/-! The observer of lives, and all calls about raiders as one machine: they come in any order, for any raider, with
any facts, and others use the food ledger in between. -/

namespace AIWorld.Raid

open Lib (Machine)
open LivingSupply (Op)

/-! ### Lives -/

structure LifeFacts extends Facts where
  /-- The creature, where it is the one of the record. -/
  seen : Option Creature

def LifeFacts.live (f : LifeFacts) : Bool := f.seen.any (·.alive)

section Life
variable (profile : Profile) (f : LifeFacts)

/-- Whether the creature found is the living one that was last seen. -/
def sameLife (actor : ActorRuntime) : Bool :=
  actor.live && f.seen.any fun creature => creature.alive && creature.guid == actor.guid

/-- A death before the theft ends the attempt without one. -/
def strike (guard raid : State) (actor : ActorRuntime) : State :=
  if f.seen.isSome && !f.live && raid.active && actor.stolen == raid.stolenAtStart then
    { raid with
      prevented := raid.prevented + 1
      outcome :=
        if raid.attemptId != 0 && guard.attemptId == raid.attemptId &&
            guard.lastInterceptionAttempt == raid.attemptId then "INTERCEPTED"
        else raid.outcome }
  else raid

def lifePhase : RaidPhase := if f.live then .idle else if f.seen.isSome then .actorDead else .unloaded

def lifeResult : String :=
  if f.live then "MATERIALIZED" else if f.seen.isSome then "ACTOR_DEAD" else "UNLOADED"

def mourn (raid : State) : State :=
  { raid with
    partyId := if f.live then 0 else raid.partyId
    campReadyAtMs := if f.live then 0 else raid.campReadyAtMs
    combatNoted := if f.live then false else raid.combatNoted
    active := false
    returning := false
    leg := 0
    guid := f.seen.elim raid.guid (·.guid)
    nextAtMs := f.nowMs + if f.live then 1000 else cooldownMs
    phase := lifePhase f
    outcome :=
      if f.live || (raid.outcome != "INTERCEPTED" && raid.outcome != "CAUGHT_WITH_CARGO" &&
          raid.outcome != "INTERRUPTED_COMBAT") then lifeResult f
      else raid.outcome }

def withdraw (w : World) (partyId : UInt64) : World :=
  if partyId ≠ 0 then
    retreatLivingRaidParty f.toFacts w partyId (if f.live then "MEMBER_REBOUND" else "MEMBER_LOST")
  else w

def raiderLife (w : World) (lost : ℕ) : World :=
  let spawn := f.record.spawnId
  let actor := w.actors spawn
  let raid := strike f w.guard (w.raiders spawn) actor
  let w := (w.setActor spawn { actor with lost := actor.lost + lost, live := f.live, phase := lifePhase f }).setRaid
    spawn raid
  let w := withdraw f w raid.partyId
  let actor := w.actors spawn
  let w := w.setRaid spawn (mourn f (w.raiders spawn))
  match f.seen with
  | some creature =>
    if f.live then w.setActor spawn { actor with guid := creature.guid, nextAtMs := f.nowMs + 1000 } else w
  | none => w

def guardLife (w : World) (lost : ℕ) : World :=
  let spawn := f.record.spawnId
  let actor := w.actors spawn
  let raid := w.guard
  let struck := f.seen.isSome && !f.live && raid.active && actor.stolen == raid.stolenAtStart
  let raid := if struck then { raid with prevented := raid.prevented + 1 } else raid
  let w := w.setActor spawn { actor with lost := actor.lost + lost, live := f.live, phase := lifePhase f }
  let w := withdraw f w raid.partyId
  let actor := w.actors spawn
  let w := { w with guard := mourn f raid }
  match f.seen with
  | some creature =>
    if f.live then w.setActor spawn { actor with guid := creature.guid, nextAtMs := f.nowMs + 1000 } else w
  | none => w

/-- The share of raiders and of the guard in the observer. -/
def observeLivingSupply (w : World) : Option World :=
  if !profile.supply || f.record.mapId != 725 || f.record.id != f.record.spawnId || !f.record.controlled ||
      !f.record.inScope then some w
  else
    (w.ledger.expire f.nowMs.toNat).bind fun ledger =>
      let w := { w with ledger }
      let spawn := f.record.spawnId
      let raider := isSupplyRaider profile f.record
      if !(raider || isRaidGuard profile f.record) || sameLife f (w.actors spawn) then some w
      else
        (w.ledger.dropCargo spawn.toNat).map fun (lost, ledger) =>
          let w := { w with ledger }
          if raider then raiderLife f w lost else guardLife f w lost

end Life

/-! ### The machine -/

/-- A call that moves food in a raider's name. -/
def byRaider : Op → Bool
  | .commit actor .. | .harvestField actor .. | .steal actor .. | .load actor .. | .deliver actor ..
  | .eatDepot actor .. | .dropCargo actor => raiderSpawns.contains actor
  | _ => false

inductive Input
  | threat (f : ThreatFacts)
  | update (f : UpdateFacts)
  | observe (f : LifeFacts)
  | create (f : Facts)
  | progress (f : Facts)
  | retreat (f : Facts) (partyId : UInt64) (reason : String)
  | supply (op : Op)

section Step
variable (profile : Profile) (formation : Formation) (hypot : ℚ → ℚ → ℚ → ℚ)

/-- Who starts an attempt, and the world after the call. A party is created with the roster that is returned for
the same leader at the same time. -/
def raidStep (w : World) : Input → Option (List UInt64 × World)
  | .threat f => some ([], (livingRaidThreat profile formation f w).2)
  | .update f => (updateLivingRaid profile formation hypot f w).map fun (answer, w) => (answer.started, w)
  | .observe f => (observeLivingSupply profile f w).map fun w => ([], w)
  | .create f =>
    let roster := livingRaidPartyRoster profile f w
    let (created, w) := createLivingRaidParty profile f w roster
    some (if created then roster else [], w)
  | .progress f => some ([], updateLivingRaidParty profile formation f w)
  | .retreat f partyId reason => some ([], retreatLivingRaidParty f w partyId reason)
  | .supply op =>
    if byRaider op then none
    else (LivingSupply.step w.ledger op).map fun (_, ledger) => ([], { w with ledger })

def raids : Machine World Input (List UInt64) := ⟨raidStep profile formation hypot⟩

end Step

end AIWorld.Raid
