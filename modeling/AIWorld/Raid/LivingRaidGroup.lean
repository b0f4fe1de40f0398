import AIWorld.LivingSupply.Ledger
import AIWorld.Raid.LivingRaidRuntime

/-! The parties of raiders: who may join one, how one is created, what all its members do when one of them
withdraws, and how it goes on. What the world says during a call is given with the call: the records, the
creatures and where everyone stands. -/

namespace AIWorld.Raid

open Agent (CoalitionCandidate)
open Agent.LivingRaidParty
open Groups (WorldFactionId)
open LivingSupply (Ledger)
open Reconciliation (AgentType)

/-! ### The world -/

structure World where
  ledger : Ledger := {}
  raiders : UInt64 → State := fun _ => {}
  actors : UInt64 → ActorRuntime := fun _ => {}
  guard : State := {}
  parties : List PartyRuntime := []
  nextPartyId : UInt64 := 0

/-- An agent's record. -/
structure Record where
  id : UInt64
  spawnId : UInt64
  mapId : UInt32 := 725
  type : AgentType := .combatant
  controlled : Bool := true
  inScope : Bool := true
  materialized : Bool := true
  runtimeGuid : ℕ
  /-- The GUID of its living role. -/
  roleGuid : ℕ
  worldFaction : WorldFactionId := {}
  /-- Hunger of at least 0.65. -/
  hungry : Bool := true
  /-- An idle role, without an action or a goal. -/
  idle : Bool := true

/-- A creature on the map. -/
structure Creature where
  guid : ℕ
  mapId : UInt32 := 725
  x : Float32 := 0
  y : Float32 := 0
  z : Float32 := 0
  entry : UInt32 := 116
  alive : Bool := true
  /-- In the world and nobody's pet, thrall or puppet. -/
  free : Bool := true
  inCombat : Bool := false
  evading : Bool := false
  stopped : Bool := true
  /-- Near the camp, in sight of it and of the creature that looks. -/
  inCamp : Bool := true
  /-- Within the radius of arrival of a point, and in sight of it. -/
  near : Position → Bool

/-- What the world says during a call, the record and the creature it is for among it. -/
structure Facts where
  nowMs : UInt64
  record : Record
  creature : Creature
  find : UInt64 → Option Record
  findBySpawn : UInt64 → Option Record
  creatureBySpawn : UInt64 → Option Creature
  /-- The creatures of the map that parties go home on. -/
  partyMap : UInt64 → Option Creature

/-- The slot of a member in a formation of the given radius around a point. -/
abbrev Formation := UInt64 → List UInt64 → Position → Float32 → Option Position

/-! ### Members -/

def isSupplyRaider (profile : Profile) (r : Record) : Bool :=
  raiderCapability r.spawnId r.mapId r.type r.controlled profile.enabled profile.defias &&
    r.id == r.spawnId && r.inScope

def isRaidGuard (profile : Profile) (r : Record) : Bool :=
  guardCapability r.spawnId r.mapId r.type r.controlled profile.enabled && r.id == r.spawnId && r.inScope

def boundMember (r : Record) (creature : Option Creature) (guid : ℕ) : Bool :=
  creature.any fun npc => npc.mapId == 725 && r.controlled && r.materialized && r.runtimeGuid == guid &&
    npc.guid == guid && npc.free

def atAnchor (npc : Creature) (target : Position) : Bool := npc.alive && npc.stopped && npc.near target

def getCargo (l : Ledger) (spawn : UInt64) : ℕ := l.actors[spawn.toNat]?.elim 0 (·.cargo)

def raiderSpawns : List UInt64 :=
  [901050, 901051, 901052, 901053, 901054, 901055, 901056, 901057, 901058, 901059]

def PartyRuntime.id (p : PartyRuntime) : UInt64 := p.coordination.id

def PartyRuntime.complete (p : PartyRuntime) : Bool := p.coordination.stage == .complete

def PartyRuntime.life (p : PartyRuntime) (spawn : UInt64) : Option ℕ := p.lives.lookup spawn

def World.party (w : World) (id : UInt64) : Option PartyRuntime := w.parties.find? (·.id == id)

def World.setRaid (w : World) (spawn : UInt64) (raid : State) : World :=
  { w with raiders := Function.update w.raiders spawn raid }

def World.setActor (w : World) (spawn : UInt64) (actor : ActorRuntime) : World :=
  { w with actors := Function.update w.actors spawn actor }

def World.setParty (w : World) (id : UInt64) (g : PartyRuntime → PartyRuntime) : World :=
  { w with parties := w.parties.map fun p => if p.id = id then g p else p }

/-- The same for each of some raiders. -/
def World.setEach (w : World) (p : UInt64 → Bool) (raid : State → State)
    (actor : ActorRuntime → ActorRuntime) : World :=
  { w with
    raiders := fun spawn => if p spawn then raid (w.raiders spawn) else w.raiders spawn
    actors := fun spawn => if p spawn then actor (w.actors spawn) else w.actors spawn }

/-! ### Who joins -/

section Roster
variable (profile : Profile) (f : Facts) (w : World)

def unassigned (spawn : UInt64) : Bool := (w.party (w.raiders spawn).partyId).all (·.complete)

def candidate (spawn : UInt64) : Option Candidate :=
  match f.findBySpawn spawn, f.creatureBySpawn spawn with
  | some r, some npc =>
    if isSupplyRaider profile r then
      let raid := w.raiders spawn
      let actor := w.actors spawn
      some
        { actor := ⟨r.id, 725, npc.x, npc.y, npc.z, npc.entry, r.worldFaction⟩
          spawnId := spawn
          materialized := r.materialized
          alive := npc.alive
          bound := boundMember r (some npc) actor.guid && actor.live && r.roleGuid == npc.guid
          atCamp := npc.inCamp
          idle := r.idle
          ready := unassigned w spawn && !raid.active && !raid.returning && getCargo w.ledger spawn == 0 &&
            decide (raid.nextAtMs ≤ f.nowMs) && r.hungry && !npc.inCombat && !npc.evading }
    else none
  | _, _ => none

def livingRaidPartyRoster : List UInt64 :=
  if !profile.defias || !isSupplyRaider profile f.record then []
  else if 2 ≤ w.parties.countP (!·.complete) then []
  else
    match (form (raiderSpawns.filterMap (candidate profile f w))).find? (·.head? == some f.record.id) with
    | none => []
    | some roster =>
      if roster.length < maxMembers.toNat &&
          !elapsed f.nowMs (w.raiders f.record.spawnId).campReadyAtMs 20000 then []
      else roster

/-! ### A new party -/

/-- The GUID of a member that may be enlisted. -/
def enlistedLife (id : UInt64) : Option ℕ :=
  match f.find id, f.creatureBySpawn id with
  | some r, some npc =>
    if isSupplyRaider profile r && npc.alive && !npc.inCombat && boundMember r (some npc) r.roleGuid && r.idle then
      some npc.guid
    else none
  | _, _ => none

def enlistedLives (roster : List UInt64) : Option (List (UInt64 × ℕ)) :=
  roster.mapM fun id => (enlistedLife profile f id).map (Prod.mk id)

def newParty (source : SourceSpec) (roster : List UInt64) (lives : List (UInt64 × ℕ)) : PartyRuntime where
  coordination :=
    { id := w.nextPartyId + 1
      attemptId := w.nextPartyId + 1
      leaderSpawn := f.record.spawnId
      members := roster
      sourceDepot := source.depot
      routeId := source.routeId
      startedAtMs := f.nowMs
      phaseStartedAtMs := f.nowMs
      lastProgressAtMs := f.nowMs }
  lives

/-- The orders of the leader, whose memories stay its own. -/
def enlist (selected : State) (party : Party) (stolen : ℕ) (raid : State) : State :=
  { raid with
    partyId := party.id
    attemptId := party.attemptId
    selectedSourceDepot := party.sourceDepot
    previousSourceDepot := party.sourceDepot
    selectedRouteId := party.routeId
    planningReason := selected.planningReason
    memoryRisk := selected.memoryRisk
    active := true
    returning := false
    leg := 0
    startedAtMs := f.nowMs
    stolenAtStart := stolen
    combatNoted := false
    campReadyAtMs := 0
    phase := .assembling
    outcome := "STARTED" }

def enlistAll (selected : State) (party : Party) : World :=
  { w with
    raiders := fun spawn =>
      if spawn ∈ party.members then enlist f selected party (w.actors spawn).stolen (w.raiders spawn)
      else w.raiders spawn
    actors := fun spawn =>
      if spawn ∈ party.members then { w.actors spawn with phase := .assembling, nextAtMs := f.nowMs }
      else w.actors spawn }

/-- Without the histories that no raider refers to. -/
def forgetParties : World :=
  { w with parties := w.parties.filter fun p =>
      !p.complete || raiderSpawns.any fun spawn => (w.raiders spawn).partyId == p.id }

def uint64Max : UInt64 := 0xFFFFFFFFFFFFFFFF

/-- Whether a party is created, and the world after the attempt. -/
def createLivingRaidParty (roster : List UInt64) : Bool × World :=
  if !profile.defias || decide (roster.length < minMembers.toNat) || decide (maxMembers.toNat < roster.length) ||
      roster.head? != some f.record.id || w.nextPartyId == uint64Max then (false, w)
  else
    let selected := w.raiders f.record.spawnId
    match sourceFor selected.selectedSourceDepot true selected.selectedRouteId with
    | none => (false, w)
    | some source =>
      match enlistedLives profile f roster with
      | none => (false, { w with nextPartyId := w.nextPartyId + 1 })
      | some lives =>
        let party := newParty f w source roster lives
        let w := { w with nextPartyId := w.nextPartyId + 1, parties := w.parties ++ [party] }
        (true, forgetParties (enlistAll f w selected party.coordination))

end Roster

/-! ### Retreat -/

section Retreat
variable (f : Facts) (w : World)

def livingMember (p : PartyRuntime) (id : UInt64) : Bool :=
  (f.find id).any fun r => (w.raiders id).partyId == p.id &&
    (p.life id).any fun guid => boundMember r (f.partyMap id) guid && (f.partyMap id).any (·.alive)

def turnParty (p : PartyRuntime) : PartyRuntime :=
  { p with coordination :=
      { p.coordination with
        leg :=
          match sourceFor p.coordination.sourceDepot true p.coordination.routeId with
          | some source => min p.coordination.leg (source.count - 1)
          | none => 0
        stage := .returning
        phaseStartedAtMs := f.nowMs
        lastProgressAtMs := f.nowMs } }

def PartyRuntime.setStage (p : PartyRuntime) (stage : Phase) : PartyRuntime :=
  { p with coordination := { p.coordination with stage } }

def retreatLivingRaidParty (partyId : UInt64) (reason : String) : World :=
  match w.party partyId with
  | none => w
  | some p =>
    if !p.coordination.members.any (livingMember f w p) then w.setParty partyId (·.setStage .complete)
    else if p.coordination.stage = .returning ∨ p.coordination.stage = .complete then w
    else
      let turned := turnParty f p
      (w.setParty partyId (turnParty f)).setEach
        (fun id => p.coordination.members.contains id && (w.raiders id).partyId == partyId)
        (fun raid => { raid with
          active := false, returning := true, leg := turned.coordination.leg, outcome := reason })
        (fun actor => { actor with nextAtMs := f.nowMs })

end Retreat

/-! ### Progress -/

section Progress
variable (profile : Profile) (formation : Formation) (f : Facts) (w : World)

/-- Bridge decks and their ramps stay single-file. -/
def formationRadius (anchor : Position) : Float32 :=
  if anchor.x < -150 ∧ anchor.x > -230 ∧ anchor.y > 830 then 0 else 3

def livingRaidPartyDestination (r : Record) (anchor : Position) (spread : Bool) : Position :=
  if !spread then anchor
  else
    match w.party (w.raiders r.spawnId).partyId with
    | none => anchor
    | some group => (formation r.id group.coordination.members anchor (formationRadius anchor)).getD anchor

/-- The anchor of a party in its stage, and whether the members spread out around it. -/
def partyAnchor (party : Party) (source : SourceSpec) : Position × Bool :=
  match party.stage with
  | .assembling => (camp, true)
  | .returning => if party.leg ≠ 0 then (source.anchor (min party.leg source.count - 1), true) else (camp, false)
  | .outbound => (source.anchor (min party.leg (source.count - 1)), decide (party.leg + 1 < source.count))
  | _ => (source.anchor (min party.leg (source.count - 1)), false)

def memberAnchor (party : Party) (source : SourceSpec) (r : Option Record) : Position :=
  let anchor := partyAnchor party source
  match r with
  | some r => livingRaidPartyDestination formation w r anchor.1 anchor.2
  | none => anchor.1

def observeMember (p : PartyRuntime) (source : SourceSpec) (id : UInt64) : MemberObservation :=
  let party := p.coordination
  let r := f.find id
  let npc := f.creatureBySpawn id
  let raid := w.raiders id
  let bound := raid.partyId == party.id && r.any fun r => (p.life id).any (boundMember r npc)
  let living := bound && npc.any (·.alive)
  { member := id
    materialized := r.any (·.materialized)
    alive := living
    bound
    inCombat := living && npc.any (·.inCombat)
    atAnchor :=
      if party.stage = .raiding then living && raid.returning
      else living && npc.any (atAnchor · (memberAnchor formation w party source r))
    complete := living && !raid.active && !raid.returning && getCargo w.ledger id == 0 &&
      npc.any (atAnchor · camp) }

def PartyRuntime.stamp (p : PartyRuntime) : PartyRuntime :=
  { p with coordination := { p.coordination with phaseStartedAtMs := f.nowMs, lastProgressAtMs := f.nowMs } }

def PartyRuntime.setLeg (p : PartyRuntime) (leg : UInt32) : PartyRuntime :=
  { p with coordination := { p.coordination with leg } }

/-- All who still belong to the party go on with it. -/
def lead (p : PartyRuntime) : World :=
  (w.setParty p.id fun _ => p.stamp f).setEach
    (fun id => p.coordination.members.contains id && (w.raiders id).partyId == p.id)
    (fun raid => { raid with leg := p.coordination.leg })
    (fun actor => { actor with nextAtMs := f.nowMs })

/-- All members have arrived. A gathered party waits a little before it sets out. -/
def advanceParty (p : PartyRuntime) (source : SourceSpec) : World :=
  let leg := p.coordination.leg
  match p.coordination.stage with
  | .assembling =>
    let since := if p.rallyReadyAtMs = 0 then f.nowMs else p.rallyReadyAtMs
    if !elapsed f.nowMs since 2000 then w.setParty p.id fun p => { p with rallyReadyAtMs := since }
    else lead f w ({ p with rallyReadyAtMs := since }.setStage .outbound)
  | .outbound => lead f w (if leg + 1 < source.count then p.setLeg (leg + 1) else p.setStage .raiding)
  | .raiding => retreatLivingRaidParty f w p.id "RAID_ACTIONS_COMPLETE"
  | .returning => if leg ≠ 0 then lead f w (p.setLeg (leg - 1)) else w
  | _ => w

def updateLivingRaidParty : World :=
  if !profile.defias || !isSupplyRaider profile f.record then w
  else
    match w.party (w.raiders f.record.spawnId).partyId with
    | none => w
    | some p =>
      if p.coordination.stage = .complete then w
      else
        match sourceFor p.coordination.sourceDepot true p.coordination.routeId with
        | none => retreatLivingRaidParty f w p.id "INVALID_SOURCE"
        | some source =>
          let observations := p.coordination.members.map (observeMember formation f w p source)
          let assessment := assess p.coordination observations f.nowMs
          match assessment.action with
          | .retreat => retreatLivingRaidParty f w p.id assessment.reason
          | .complete => w.setParty p.id (·.setStage .complete)
          | .wait => w.setParty p.id fun p => { p with rallyReadyAtMs := 0 }
          | .advance => advanceParty f w p source

end Progress

end AIWorld.Raid
