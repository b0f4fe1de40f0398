import AIWorld.Groups.Lifecycle
import Mathlib.Data.Finset.Dedup

/-! The plan that brings the table of agents in line with the spawns of the world. Every row of the table
and every spawn of the census is put in one class; spawns without a row get one, unless the row would take
the identity of another. The counters are natural numbers here. -/

namespace AIWorld.Reconciliation

open Std
open Groups (WorldFactionId)

/-! ### Data -/

structure CreatureSpawnIdentity where
  mapId : UInt32 := 0
  spawnId : UInt64 := 0
  entry : UInt32 := 0
  npcFlags : UInt32 := 0
  deriving DecidableEq

/-- What identifies a row of the table. -/
structure AgentSpawnBinding where
  id : UInt64
  mapId : UInt32 := 0
  spawnId : UInt64 := 0
  deriving DecidableEq

inductive AgentType
  | civilian | guard | merchant | unclassified | combatant | predator | prey
  deriving DecidableEq

inductive SpawnParticipationMode
  | fullAgent | lightweightBackground | vanillaOnly | excluded
  deriving DecidableEq

structure PendingCreatureAgent where
  type : AgentType := .unclassified
  mapId : UInt32 := 0
  spawnId : UInt64 := 0
  worldFaction : WorldFactionId := {}
  deriving DecidableEq

abbrev WorldFactionCatalog := ExtTreeMap UInt32 WorldFactionId

abbrev AgentTypeCatalog := ExtTreeMap UInt32 AgentType

abbrev SpawnParticipationCatalog := ExtTreeMap UInt64 SpawnParticipationMode

def WorldFactionCatalog.resolve (catalog : WorldFactionCatalog) (entry : UInt32) : WorldFactionId :=
  (catalog[entry]?).getD {}

def AgentTypeCatalog.resolve (catalog : AgentTypeCatalog) (entry : UInt32) : AgentType :=
  (catalog[entry]?).getD .unclassified

def SpawnParticipationCatalog.resolve (catalog : SpawnParticipationCatalog) (spawnId : UInt64) :
    SpawnParticipationMode :=
  (catalog[spawnId]?).getD .excluded

structure SpawnReconciliationPlan where
  missing : List PendingCreatureAgent := []
  orphaned : List UInt64 := []
  conflicted : List UInt64 := []
  agentIdCollisions : List CreatureSpawnIdentity := []
  validCount : ℕ := 0
  quarantinedCount : ℕ := 0
  outOfScopeCount : ℕ := 0
  excludedButBound : List UInt64 := []
  excludedSkippedCount : ℕ := 0
  deriving DecidableEq

/-! ### The plan -/

section Build
variable (census : List CreatureSpawnIdentity) (allKnownSpawnIds : Finset UInt64)
  (physicalBindings : List AgentSpawnBinding) (worldFactionCatalog : WorldFactionCatalog)
  (agentTypeCatalog : AgentTypeCatalog) (participationCatalog : SpawnParticipationCatalog)

/-- One turn of the loop over the rows of the table. -/
def addBinding (plan : SpawnReconciliationPlan) (binding : AgentSpawnBinding) : SpawnReconciliationPlan :=
  if binding.id ≠ binding.spawnId then { plan with quarantinedCount := plan.quarantinedCount + 1 }
  else
    match census.find? fun identity => identity.spawnId = binding.spawnId with
    | none =>
      if binding.spawnId ∈ allKnownSpawnIds then { plan with outOfScopeCount := plan.outOfScopeCount + 1 }
      else { plan with orphaned := plan.orphaned ++ [binding.id] }
    | some identity =>
      if binding.mapId ≠ identity.mapId then { plan with conflicted := plan.conflicted ++ [binding.id] }
      else if participationCatalog.resolve binding.spawnId = .excluded then
        { plan with excludedButBound := plan.excludedButBound ++ [binding.id] }
      else { plan with validCount := plan.validCount + 1 }

def pendingAgent (identity : CreatureSpawnIdentity) : PendingCreatureAgent :=
  { type := agentTypeCatalog.resolve identity.entry
    mapId := identity.mapId
    spawnId := identity.spawnId
    worldFaction := worldFactionCatalog.resolve identity.entry }

/-- One turn of the loop over the census. -/
def addIdentity (plan : SpawnReconciliationPlan) (identity : CreatureSpawnIdentity) : SpawnReconciliationPlan :=
  if physicalBindings.any fun binding => binding.spawnId = identity.spawnId then plan
  else if physicalBindings.any fun binding => binding.id = identity.spawnId then
    { plan with agentIdCollisions := plan.agentIdCollisions ++ [identity] }
  else if participationCatalog.resolve identity.spawnId = .excluded then
    { plan with excludedSkippedCount := plan.excludedSkippedCount + 1 }
  else { plan with missing := plan.missing ++ [pendingAgent worldFactionCatalog agentTypeCatalog identity] }

def buildReconciliationPlan : SpawnReconciliationPlan :=
  census.foldl (addIdentity physicalBindings worldFactionCatalog agentTypeCatalog participationCatalog)
    (physicalBindings.foldl (addBinding census allKnownSpawnIds participationCatalog) {})

end Build

/-! ### The table -/

/-- The row that is inserted for a pending agent. -/
def PendingCreatureAgent.row (agent : PendingCreatureAgent) : AgentSpawnBinding :=
  ⟨agent.spawnId, agent.mapId, agent.spawnId⟩

/-- The primary key and the unique key of the table. -/
def KeysHold (rows : List AgentSpawnBinding) : Prop :=
  (rows.map AgentSpawnBinding.id).Nodup ∧ (rows.map fun row => (row.mapId, row.spawnId)).Nodup

/-- An insertion fails when one of the keys is taken. -/
def insertRow (rows : List AgentSpawnBinding) (row : AgentSpawnBinding) : Option (List AgentSpawnBinding) :=
  if rows.any fun other => other.id = row.id || (other.mapId = row.mapId && other.spawnId = row.spawnId) then none
  else some (rows ++ [row])

def createCreatureAgents (rows : List AgentSpawnBinding) (pending : List PendingCreatureAgent) :
    Option (List AgentSpawnBinding) :=
  pending.foldlM (fun rows agent => insertRow rows agent.row) rows

end AIWorld.Reconciliation
