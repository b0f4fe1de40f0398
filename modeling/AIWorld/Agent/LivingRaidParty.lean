import AIWorld.Agent.CoalitionFormationSystem
import AIWorld.Lib.OrdMap

/-! Parties of raiders. A party is a session long coordination of independent actors that
were seen idle and ready at their camp, close to one another. -/

namespace AIWorld.Agent

open Std (ExtTreeMap)
open Lib
open Groups

/-- What was observed of an actor. -/
structure LivingRaidParty.Candidate where
  actor : CoalitionCandidate := {}
  spawnId : UInt64 := 0
  materialized : Bool := false
  alive : Bool := false
  bound : Bool := false
  atCamp : Bool := false
  idle : Bool := false
  ready : Bool := false
  deriving DecidableEq

namespace LivingRaidParty

/-! ### Candidates -/

def mapId : UInt32 := 725
def creatureEntry : UInt32 := 116
def minMembers : UInt32 := 2
def maxMembers : UInt32 := 5
def formationRadius : Float32 := 100

def eligible (candidate : Candidate) : Bool :=
  let actor := candidate.actor
  candidate.spawnId ≥ 901050 && candidate.spawnId ≤ 901059 &&
    actor.id == candidate.spawnId && actor.mapId == mapId &&
    actor.creatureEntry == creatureEntry && decide (actor.worldFaction = WorldFactions.defiasBrotherhood) &&
    actor.x.isFinite && actor.y.isFinite && actor.z.isFinite &&
    candidate.materialized && candidate.alive && candidate.bound &&
    candidate.atCamp && candidate.idle && candidate.ready

def sameCandidate (a b : Candidate) : Bool :=
  a.actor.id == b.actor.id && a.actor.mapId == b.actor.mapId &&
    a.actor.x == b.actor.x && a.actor.y == b.actor.y && a.actor.z == b.actor.z &&
    a.actor.creatureEntry == b.actor.creatureEntry &&
    decide (a.actor.worldFaction = b.actor.worldFaction) &&
    a.spawnId == b.spawnId && a.materialized == b.materialized && a.alive == b.alive &&
    a.bound == b.bound && a.atCamp == b.atCamp && a.idle == b.idle && a.ready == b.ready

/-! ### Formation -/

/-- The first observation of each id, or none if another one contradicts it. -/
def observe (unique : ExtTreeMap UInt64 (Option Candidate)) (candidate : Candidate) :
    ExtTreeMap UInt64 (Option Candidate) :=
  if candidate.actor.id = 0 then unique
  else
    match unique[candidate.actor.id]? with
    | none => unique.insert candidate.actor.id (some candidate)
    | some none => unique
    | some (some first) =>
      if !sameCandidate first candidate then unique.insert candidate.actor.id none else unique

def eligibleActors (candidates : List Candidate) : List CoalitionCandidate :=
  let unique := candidates.foldl observe ∅
  unique.toList.filterMap fun (_, candidate) =>
    match candidate with
    | some candidate => if eligible candidate then some candidate.actor else none
    | none => none

/-- A sixth actor is left room in a second party. -/
def profileFor (size : ℕ) : CoalitionFormationProfile where
  id := .defiasLoose
  kind := .loose
  creatureEntry := creatureEntry
  requiredWorldFaction := WorldFactions.defiasBrotherhood
  minMembers := minMembers
  maxMembers := if size = maxMembers.toNat + 1 then maxMembers - 1 else maxMembers
  formationRadius := formationRadius

/-- Each round takes a party away from the actors; there are never more rounds than actors. -/
def formFrom : ℕ → List CoalitionCandidate → List (List UInt64)
  | 0, _ => []
  | rounds + 1, eligible =>
    if eligible.length ≥ minMembers.toNat then
      match CoalitionFormationSystem.propose eligible (profileFor eligible.length) with
      | none => []
      | some proposal =>
        let members := proposal.members.insertionSort (· ≤ ·)
        members :: formFrom rounds (eligible.filter fun actor => actor.id ∉ members)
    else []

def form (candidates : List Candidate) : List (List UInt64) :=
  let eligible := eligibleActors candidates
  formFrom eligible.length eligible

/-! ### Assessment -/

def assemblyTimeoutMs : UInt64 := 45000
def lagTimeoutMs : UInt64 := 120000
def attemptTimeoutMs : UInt64 := 900000

/-- The last constructor stands for the values of the byte that name no phase. -/
inductive Phase
  | assembling
  | outbound
  | raiding
  | returning
  | complete
  | other
  deriving DecidableEq

inductive Decision
  | wait
  | advance
  | retreat
  | complete
  deriving DecidableEq

end LivingRaidParty

open LivingRaidParty in
structure LivingRaidParty.Party where
  id : UInt64 := 0
  attemptId : UInt64 := 0
  leaderSpawn : UInt64 := 0
  members : List UInt64 := []
  sourceDepot : UInt32 := 0
  routeId : UInt32 := 1
  leg : UInt32 := 0
  stage : Phase := .assembling
  startedAtMs : UInt64 := 0
  phaseStartedAtMs : UInt64 := 0
  lastProgressAtMs : UInt64 := 0
  deriving DecidableEq

structure LivingRaidParty.MemberObservation where
  member : UInt64
  materialized : Bool := false
  alive : Bool := false
  bound : Bool := false
  inCombat : Bool := false
  atAnchor : Bool := false
  complete : Bool := false
  deriving DecidableEq

open LivingRaidParty in
structure LivingRaidParty.Assessment where
  action : Decision := .wait
  present : ℕ := 0
  arrived : ℕ := 0
  completed : ℕ := 0
  dead : ℕ := 0
  unavailable : ℕ := 0
  quorum : Bool := false
  leaderAvailable : Bool := false
  timedOut : Bool := false
  reason : String := "WAITING_FOR_MEMBERS"
  deriving DecidableEq

namespace LivingRaidParty

def elapsed (nowMs sinceMs limitMs : UInt64) : Bool :=
  sinceMs ≠ 0 && nowMs ≥ sinceMs && nowMs - sinceMs ≥ limitMs

def sameObservation (a b : MemberObservation) : Bool :=
  a.member == b.member && a.materialized == b.materialized && a.alive == b.alive &&
    a.bound == b.bound && a.inCombat == b.inCombat && a.atAnchor == b.atAnchor &&
    a.complete == b.complete

/-- What the observations say of a member: the last of them, and whether two differ. -/
@[ext] structure Sighting where
  observed : Option MemberObservation := none
  ambiguous : Bool := false
  deriving DecidableEq

def look (member : UInt64) (sighting : Sighting) (observation : MemberObservation) : Sighting :=
  if observation.member ≠ member then sighting
  else
    { observed := some observation
      ambiguous := sighting.ambiguous ||
        sighting.observed.any fun observed => !sameObservation observed observation }

/-- The member in the assessment, and whether somebody is in combat. -/
def count (party : Party) (observations : List MemberObservation) (state : Assessment × Bool)
    (member : UInt64) : Assessment × Bool :=
  let (result, inCombat) := state
  let sighting := observations.foldl (look member) {}
  match sighting.observed with
  | none => ({ result with unavailable := result.unavailable + 1 }, inCombat)
  | some observed =>
    if sighting.ambiguous || !observed.materialized || !observed.bound then
      ({ result with unavailable := result.unavailable + 1 }, inCombat)
    else if !observed.alive then ({ result with dead := result.dead + 1 }, inCombat)
    else
      ({ result with
          present := result.present + 1
          arrived := result.arrived + observed.atAnchor.toNat
          completed := result.completed + observed.complete.toNat
          leaderAvailable := result.leaderAvailable || member == party.leaderSpawn },
        inCombat || observed.inCombat)

def validRoster (roster : List UInt64) (leaderSpawn : UInt64) : Bool :=
  roster.length ≥ minMembers.toNat && roster.length ≤ maxMembers.toNat &&
    roster.head? != some 0 && decide roster.Nodup && roster.contains leaderSpawn

def progressAtMs (party : Party) : UInt64 :=
  if party.lastProgressAtMs ≠ 0 then party.lastProgressAtMs
  else if party.phaseStartedAtMs ≠ 0 then party.phaseStartedAtMs
  else party.startedAtMs

def attemptExpired (party : Party) (nowMs : UInt64) : Bool :=
  elapsed nowMs party.startedAtMs attemptTimeoutMs

def lagExpired (party : Party) (nowMs : UInt64) : Bool :=
  elapsed nowMs (progressAtMs party) lagTimeoutMs

def assemblyExpired (party : Party) (nowMs : UInt64) : Bool :=
  decide (party.stage = .assembling) &&
    elapsed nowMs (if party.phaseStartedAtMs ≠ 0 then party.phaseStartedAtMs else party.startedAtMs)
      assemblyTimeoutMs

/-- Of a party on its way home the missing and the dead keep their places in the roster, but the
party does not wait for them. -/
def assessReturn (party : Party) (nowMs : UInt64) (result : Assessment) : Assessment :=
  let expired := attemptExpired party nowMs || lagExpired party nowMs
  if result.completed = result.present || expired then
    { result with
      action := .complete
      timedOut := expired
      reason := if expired then "RETURN_COORDINATION_EXPIRED" else "RETURNED_MEMBERS_COMPLETE" }
  else if result.arrived = result.present then
    { result with action := .advance, reason := "RETURN_ANCHOR_REACHED" }
  else result

def assess (party : Party) (observations : List MemberObservation) (nowMs : UInt64) : Assessment :=
  let roster := party.members.insertionSort (· ≤ ·)
  if party.id = 0 || party.attemptId = 0 || !validRoster roster party.leaderSpawn ||
      decide (party.stage = .other) then
    { action := .retreat, reason := "INVALID_PARTY" }
  else if party.stage = .complete then { action := .complete, reason := "PARTY_COMPLETE" }
  else
    let (result, inCombat) := roster.foldl (count party observations) ({}, false)
    let result :=
      { result with quorum := result.arrived ≥ max minMembers.toNat (roster.length / 2 + 1) }
    if party.stage = .returning then assessReturn party nowMs result
    else if inCombat || result.dead ≠ 0 then
      { result with
        action := .retreat
        reason := if inCombat then "MEMBER_IN_COMBAT" else "MEMBER_DIED" }
    else if attemptExpired party nowMs || assemblyExpired party nowMs || lagExpired party nowMs then
      { result with
        action := .retreat
        timedOut := true
        reason :=
          if attemptExpired party nowMs then "ATTEMPT_EXPIRED"
          else if assemblyExpired party nowMs then "ASSEMBLY_EXPIRED" else "MEMBER_LAG_TIMEOUT" }
    else if result.present = roster.length && result.arrived = roster.length then
      { result with action := .advance, reason := "ALL_MEMBERS_AT_ANCHOR" }
    else result

end LivingRaidParty

end AIWorld.Agent
