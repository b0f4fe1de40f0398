import AIWorld.Groups.Registry
import AIWorld.Lib.Binary32Order
import AIWorld.Lib.Selection
import AIWorld.Quest.Instance

/-! Which target a group hunts, if any. What the members observed is checked one by one, reduced to
one observation of each target, and the nearest of these is chosen. -/

namespace AIWorld.Agent

open Std (ExtTreeMap)
open Lib.Selection
open Groups
open Quest (ObjectGuid)

/-! ### Data -/

structure AgentGroupCoordinationProfile where
  profileId : CoalitionFormationProfileId := .invalid
  kind : AgentGroupKind := .loose
  huntEnabled : Bool := false
  huntTargetCreatureEntry : UInt32 := 0
  huntAcquisitionRadius : Float32 := 0
  huntObservationMaxAgeMs : UInt32 := 0
  deriving DecidableEq

structure CoalitionMemberObservation where
  memberId : UInt64
  materialized : Bool := false
  alive : Bool := false
  mapId : UInt32 := 0
  x : Float32 := 0
  y : Float32 := 0
  z : Float32 := 0
  deriving DecidableEq

structure HuntTargetProvenance where
  targetGuid : ObjectGuid := {}
  targetEntry : UInt32 := 0
  mapId : UInt32 := 0
  x : Float32 := 0
  y : Float32 := 0
  z : Float32 := 0
  alive : Bool := false
  observedAtMs : UInt64 := 0
  deriving DecidableEq

structure HuntTargetObservation where
  observer : UInt64
  target : HuntTargetProvenance
  distance : Float32 := 0
  lineOfSight : Bool := false
  deriving DecidableEq

structure HuntIntent where
  group : UInt64
  target : HuntTargetProvenance
  startedAtMs : UInt64 := 0
  deriving DecidableEq

/-- The kinds of objects whose guid has no entry in it. -/
def highGuidsWithoutEntry : List UInt64 :=
  [0x4000, 0x0000, 0xF100, 0xF101, 0x1FC0, 0x1F40, 0x1F50]

def getEntry (guid : ObjectGuid) : UInt32 :=
  if guid.getHigh ∈ highGuidsWithoutEntry then 0
  else ((guid.raw >>> 24) &&& 0xFFFFFF).toUInt32

namespace HuntIntentSystem

/-! ### Members -/

def isRealGroupMember (group : AgentGroupRecord) (observer : UInt64) : Bool :=
  group.members.any fun membership => membership.member == observer

def sameObserverState (a b : CoalitionMemberObservation) : Bool :=
  a.materialized == b.materialized && a.alive == b.alive && a.mapId == b.mapId &&
    a.x == b.x && a.y == b.y && a.z == b.z

/-- The first state of each member, and the members of whom there are contradictory ones. -/
structure ObserverStates where
  resolved : ExtTreeMap UInt64 CoalitionMemberObservation := ∅
  conflicted : List UInt64 := []

def ObserverStates.add (states : ObserverStates) (observation : CoalitionMemberObservation) :
    ObserverStates :=
  match states.resolved[observation.memberId]? with
  | none => { states with resolved := states.resolved.insert observation.memberId observation }
  | some first =>
    if !sameObserverState first observation then
      { states with conflicted := observation.memberId :: states.conflicted }
    else states

def resolveObserverStates (members : List CoalitionMemberObservation) :
    ExtTreeMap UInt64 CoalitionMemberObservation :=
  let states := members.foldl ObserverStates.add {}
  states.conflicted.foldl (fun resolved key => resolved.erase key) states.resolved

/-! ### Observations -/

def sameObservationPayload (a b : HuntTargetObservation) : Bool :=
  a.distance == b.distance && a.lineOfSight == b.lineOfSight && a.target.alive == b.target.alive &&
    a.target.mapId == b.target.mapId && a.target.targetEntry == b.target.targetEntry &&
    a.target.x == b.target.x && a.target.y == b.target.y && a.target.z == b.target.z

def profileFits (group : AgentGroupRecord) (profile : AgentGroupCoordinationProfile)
    (nowMs : UInt64) : Bool :=
  decide (profile.profileId ≠ .invalid) && decide (profile.kind = group.kind) &&
    decide (profile.profileId = group.profileId) && profile.huntEnabled &&
    profile.huntTargetCreatureEntry != 0 &&
    (profile.huntAcquisitionRadius.isFinite && !decide (profile.huntAcquisitionRadius ≤ 0)) &&
    profile.huntObservationMaxAgeMs != 0 && nowMs != 0

def observerFits (group : AgentGroupRecord)
    (observerStates : ExtTreeMap UInt64 CoalitionMemberObservation) (observer : UInt64) : Bool :=
  isRealGroupMember group observer &&
    match observerStates[observer]? with
    | none => false
    | some state => state.materialized && state.alive && state.mapId == group.territoryMapId

def targetFits (group : AgentGroupRecord) (profile : AgentGroupCoordinationProfile)
    (nowMs : UInt64) (target : HuntTargetProvenance) : Bool :=
  !(target.targetGuid.isEmpty || !target.targetGuid.isCreature) &&
    getEntry target.targetGuid == target.targetEntry &&
    target.targetEntry == profile.huntTargetCreatureEntry && target.alive &&
    target.mapId == group.territoryMapId &&
    (target.x.isFinite && target.y.isFinite && target.z.isFinite) &&
    !(target.observedAtMs == 0 || decide (target.observedAtMs > nowMs)) &&
    !decide (nowMs - target.observedAtMs > profile.huntObservationMaxAgeMs.toUInt64)

def distanceFits (profile : AgentGroupCoordinationProfile) (distance : Float32) : Bool :=
  distance.isFinite && !decide (distance < 0) && !decide (distance > profile.huntAcquisitionRadius)

/-- All checks of one observation. -/
def passes (group : AgentGroupRecord) (profile : AgentGroupCoordinationProfile)
    (observerStates : ExtTreeMap UInt64 CoalitionMemberObservation) (nowMs : UInt64)
    (observation : HuntTargetObservation) : Bool :=
  observerFits group observerStates observation.observer &&
    targetFits group profile nowMs observation.target && observation.lineOfSight &&
    distanceFits profile observation.distance

def addToBucket (buckets : ExtTreeMap UInt64 (List HuntTargetObservation))
    (observation : HuntTargetObservation) : ExtTreeMap UInt64 (List HuntTargetObservation) :=
  let key := observation.target.targetGuid.raw
  buckets.insert key (buckets[key]?.getD [] ++ [observation])

/-- Two observations by one observer of one moment contradict one another. -/
def disagree (a b : HuntTargetObservation) : Bool :=
  if a.target.observedAtMs ≠ b.target.observedAtMs || a.observer ≠ b.observer then false
  else !sameObservationPayload a b

def ambiguous : List HuntTargetObservation → Bool
  | [] => false
  | a :: bucket => bucket.any (disagree a) || ambiguous bucket

def fresher (candidate best : HuntTargetObservation) : Bool :=
  decide (candidate.target.observedAtMs > best.target.observedAtMs) ||
    (candidate.target.observedAtMs == best.target.observedAtMs &&
      decide (candidate.observer < best.observer))

def closer (candidate selected : HuntTargetObservation) : Bool :=
  decide (candidate.distance < selected.distance) ||
    (candidate.distance == selected.distance &&
      decide (candidate.target.targetGuid.raw < selected.target.targetGuid.raw))

/-- The one observation that stands for the target, unless they are ambiguous. -/
def represent (bucket : List HuntTargetObservation) : Option HuntTargetObservation :=
  if ambiguous bucket then none else select fresher bucket

def evaluate (group : AgentGroupRecord) (profile : AgentGroupCoordinationProfile)
    (members : List CoalitionMemberObservation) (targets : List HuntTargetObservation)
    (nowMs : UInt64) : Option HuntIntent :=
  if !profileFits group profile nowMs then none
  else
    let observerStates := resolveObserverStates members
    let observationsByTarget :=
      (targets.filter (passes group profile observerStates nowMs)).foldl addToBucket ∅
    let bestByTarget := observationsByTarget.toList.filterMap fun (_, bucket) => represent bucket
    match select closer bestByTarget with
    | none => none
    | some selected =>
      some { group := group.id, target := selected.target, startedAtMs := nowMs }

end HuntIntentSystem

end AIWorld.Agent
