import AIWorld.Groups.Lifecycle
import AIWorld.Lib.Binary32
import Mathlib.Data.List.Sort

/-! Whether a group could form among some candidates, for a given profile. Each candidate
is tried as the seed of a group, the lowest id first; its neighbors within the radius join
it, the closest first, until the group is full. -/

namespace AIWorld.Agent

open Groups (AgentGroupKind CoalitionFormationProfileId WorldFactionId)
open Lib Lib.Binary32

/-! ### Data -/

structure CoalitionCandidate where
  id : UInt64 := 0
  mapId : UInt32 := 0
  x : Float32 := 0
  y : Float32 := 0
  z : Float32 := 0
  creatureEntry : UInt32 := 0
  worldFaction : WorldFactionId := {}
  deriving DecidableEq

structure CoalitionFormationProfile where
  id : CoalitionFormationProfileId := .invalid
  kind : AgentGroupKind := .loose
  creatureEntry : UInt32 := 0
  requiredWorldFaction : WorldFactionId := {}
  minMembers : UInt32 := 2
  maxMembers : UInt32 := 5
  formationRadius : Float32 := 30

structure CoalitionProposal where
  kind : AgentGroupKind := .loose
  territoryMapId : UInt32 := 0
  territoryX : Float32 := 0
  territoryY : Float32 := 0
  territoryZ : Float32 := 0
  members : List UInt64 := []

/-! ### The search -/

namespace CoalitionFormationSystem

def compatible (profile : CoalitionFormationProfile) (candidate : CoalitionCandidate) : Bool :=
  candidate.creatureEntry = profile.creatureEntry ∧
    candidate.worldFaction = profile.requiredWorldFaction

def distanceSq (candidate seed : CoalitionCandidate) : Float32 :=
  let dx := candidate.x - seed.x
  let dy := candidate.y - seed.y
  let dz := candidate.z - seed.z
  dx * dx + dy * dy + dz * dz

/-- The order of the neighbors of a seed: by distance, then by id. -/
def closer (seed a b : CoalitionCandidate) : Bool :=
  if distanceSq a seed != distanceSq b seed then distanceSq a seed < distanceSq b seed
  else a.id < b.id

def isNeighbor (radiusSq : Float32) (seed candidate : CoalitionCandidate) : Bool :=
  if candidate.mapId ≠ seed.mapId then false
  else !(distanceSq candidate seed > radiusSq)

/-- What is kept of the other candidates around a seed. -/
def neighbors (profile : CoalitionFormationProfile) (others : List CoalitionCandidate)
    (seed : CoalitionCandidate) : List CoalitionCandidate :=
  let radiusSq := profile.formationRadius * profile.formationRadius
  let neighbors := (others.filter (isNeighbor radiusSq seed)).insertionSort
    fun a b => closer seed b a = false
  if UInt32.ofNat neighbors.length > profile.maxMembers - 1 then
    neighbors.take (profile.maxMembers - 1).toNat
  else neighbors

def trySeed (profile : CoalitionFormationProfile) (others : List CoalitionCandidate)
    (seed : CoalitionCandidate) : Option CoalitionProposal :=
  let neighbors := neighbors profile others seed
  if UInt32.ofNat (1 + neighbors.length) < profile.minMembers then none
  else
    some {
      kind := profile.kind
      territoryMapId := seed.mapId
      territoryX := seed.x
      territoryY := seed.y
      territoryZ := seed.z
      members := seed.id :: neighbors.map (·.id) }

def propose (candidates : List CoalitionCandidate) (profile : CoalitionFormationProfile) :
    Option CoalitionProposal :=
  let compatible := candidates.filter (compatible profile)
  if UInt32.ofNat compatible.length < profile.minMembers then none
  else
    let compatible := compatible.insertionSort fun a b => a.id ≤ b.id
    compatible.zipIdx.findSome? fun (seed, seedIndex) =>
      trySeed profile (compatible.eraseIdx seedIndex) seed

end CoalitionFormationSystem

end AIWorld.Agent
