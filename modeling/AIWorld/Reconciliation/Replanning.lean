import AIWorld.Reconciliation.SpawnReconciliationPlan
import Mathlib.Data.List.Nodup

/-! The plan as a partition of the rows and of the census, and the plan after it was carried out. What is
inserted takes no key of the table, and is valid from then on; nothing else changes its class. -/

namespace AIWorld.Reconciliation

open Std
open Groups (WorldFactionId)

/-! ### Classes -/

inductive BindingClass
  | quarantined | outOfScope | orphaned | conflicted | excludedButBound | valid
  deriving DecidableEq

inductive CensusClass
  | bound | agentIdCollision | excludedSkipped | missing
  deriving DecidableEq

section Classes
variable (census : List CreatureSpawnIdentity) (allKnownSpawnIds : Finset UInt64)
  (physicalBindings : List AgentSpawnBinding) (worldFactionCatalog : WorldFactionCatalog)
  (agentTypeCatalog : AgentTypeCatalog) (participationCatalog : SpawnParticipationCatalog)

def bindingClass (binding : AgentSpawnBinding) : BindingClass :=
  if binding.id ≠ binding.spawnId then .quarantined
  else
    match census.find? fun identity => identity.spawnId = binding.spawnId with
    | none => if binding.spawnId ∈ allKnownSpawnIds then .outOfScope else .orphaned
    | some identity =>
      if binding.mapId ≠ identity.mapId then .conflicted
      else if participationCatalog.resolve binding.spawnId = .excluded then .excludedButBound
      else .valid

def censusClass (identity : CreatureSpawnIdentity) : CensusClass :=
  if ∃ binding ∈ physicalBindings, binding.spawnId = identity.spawnId then .bound
  else if ∃ binding ∈ physicalBindings, binding.id = identity.spawnId then .agentIdCollision
  else if participationCatalog.resolve identity.spawnId = .excluded then .excludedSkipped
  else .missing

/-- The rows of a class. -/
def bindingsOf (c : BindingClass) : List AgentSpawnBinding :=
  physicalBindings.filter fun binding => bindingClass census allKnownSpawnIds participationCatalog binding = c

/-- The spawns of a class. -/
def censusOf (c : CensusClass) : List CreatureSpawnIdentity :=
  census.filter fun identity => censusClass physicalBindings participationCatalog identity = c

/-- The plan whose classes are these. -/
structure IsPartition (plan : SpawnReconciliationPlan) : Prop where
  quarantined : plan.quarantinedCount =
    (bindingsOf census allKnownSpawnIds physicalBindings participationCatalog .quarantined).length
  outOfScope : plan.outOfScopeCount =
    (bindingsOf census allKnownSpawnIds physicalBindings participationCatalog .outOfScope).length
  orphaned : plan.orphaned =
    (bindingsOf census allKnownSpawnIds physicalBindings participationCatalog .orphaned).map AgentSpawnBinding.id
  conflicted : plan.conflicted =
    (bindingsOf census allKnownSpawnIds physicalBindings participationCatalog .conflicted).map AgentSpawnBinding.id
  excludedButBound : plan.excludedButBound =
    (bindingsOf census allKnownSpawnIds physicalBindings participationCatalog .excludedButBound).map
      AgentSpawnBinding.id
  valid : plan.validCount =
    (bindingsOf census allKnownSpawnIds physicalBindings participationCatalog .valid).length
  agentIdCollisions : plan.agentIdCollisions = censusOf census physicalBindings participationCatalog .agentIdCollision
  excludedSkipped : plan.excludedSkippedCount =
    (censusOf census physicalBindings participationCatalog .excludedSkipped).length
  missing : plan.missing = (censusOf census physicalBindings participationCatalog .missing).map
    (pendingAgent worldFactionCatalog agentTypeCatalog)

end Classes

section Plan
variable {census : List CreatureSpawnIdentity} {allKnownSpawnIds : Finset UInt64}
  {physicalBindings : List AgentSpawnBinding} {worldFactionCatalog : WorldFactionCatalog}
  {agentTypeCatalog : AgentTypeCatalog} {participationCatalog : SpawnParticipationCatalog}

/-! ### The loops -/

/-- A row enters its class, and no other. -/
def place (plan : SpawnReconciliationPlan) (id : UInt64) : BindingClass → SpawnReconciliationPlan
  | .quarantined => { plan with quarantinedCount := plan.quarantinedCount + 1 }
  | .outOfScope => { plan with outOfScopeCount := plan.outOfScopeCount + 1 }
  | .orphaned => { plan with orphaned := plan.orphaned ++ [id] }
  | .conflicted => { plan with conflicted := plan.conflicted ++ [id] }
  | .excludedButBound => { plan with excludedButBound := plan.excludedButBound ++ [id] }
  | .valid => { plan with validCount := plan.validCount + 1 }

theorem addBinding_eq (plan : SpawnReconciliationPlan) (binding : AgentSpawnBinding) :
    addBinding census allKnownSpawnIds participationCatalog plan binding =
      place plan binding.id (bindingClass census allKnownSpawnIds participationCatalog binding) := by
  unfold addBinding bindingClass
  cases census.find? fun identity => identity.spawnId = binding.spawnId <;> dsimp only <;> split_ifs <;> rfl

theorem foldl_addBinding (bindings : List AgentSpawnBinding) (plan : SpawnReconciliationPlan) :
    bindings.foldl (addBinding census allKnownSpawnIds participationCatalog) plan =
      { plan with
        quarantinedCount := plan.quarantinedCount +
          (bindingsOf census allKnownSpawnIds bindings participationCatalog .quarantined).length
        outOfScopeCount := plan.outOfScopeCount +
          (bindingsOf census allKnownSpawnIds bindings participationCatalog .outOfScope).length
        orphaned := plan.orphaned ++
          (bindingsOf census allKnownSpawnIds bindings participationCatalog .orphaned).map AgentSpawnBinding.id
        conflicted := plan.conflicted ++
          (bindingsOf census allKnownSpawnIds bindings participationCatalog .conflicted).map AgentSpawnBinding.id
        excludedButBound := plan.excludedButBound ++
          (bindingsOf census allKnownSpawnIds bindings participationCatalog .excludedButBound).map
            AgentSpawnBinding.id
        validCount := plan.validCount +
          (bindingsOf census allKnownSpawnIds bindings participationCatalog .valid).length } := by
  induction bindings generalizing plan with
  | nil => simp [bindingsOf]
  | cons binding bindings ih =>
    rw [List.foldl_cons, ih, addBinding_eq]
    cases hclass : bindingClass census allKnownSpawnIds participationCatalog binding <;>
      simp [bindingsOf, hclass, place, Nat.add_assoc, Nat.add_comm 1]

theorem addIdentity_eq (plan : SpawnReconciliationPlan) (identity : CreatureSpawnIdentity) :
    addIdentity physicalBindings worldFactionCatalog agentTypeCatalog participationCatalog plan identity =
      match censusClass physicalBindings participationCatalog identity with
      | .bound => plan
      | .agentIdCollision => { plan with agentIdCollisions := plan.agentIdCollisions ++ [identity] }
      | .excludedSkipped => { plan with excludedSkippedCount := plan.excludedSkippedCount + 1 }
      | .missing =>
        { plan with missing := plan.missing ++ [pendingAgent worldFactionCatalog agentTypeCatalog identity] } := by
  unfold addIdentity censusClass
  simp only [List.any_eq_true, decide_eq_true_eq]
  split_ifs <;> rfl

theorem foldl_addIdentity (identities : List CreatureSpawnIdentity) (plan : SpawnReconciliationPlan) :
    identities.foldl (addIdentity physicalBindings worldFactionCatalog agentTypeCatalog participationCatalog) plan =
      { plan with
        agentIdCollisions := plan.agentIdCollisions ++
          censusOf identities physicalBindings participationCatalog .agentIdCollision
        excludedSkippedCount := plan.excludedSkippedCount +
          (censusOf identities physicalBindings participationCatalog .excludedSkipped).length
        missing := plan.missing ++ (censusOf identities physicalBindings participationCatalog .missing).map
          (pendingAgent worldFactionCatalog agentTypeCatalog) } := by
  induction identities generalizing plan with
  | nil => simp [censusOf]
  | cons identity identities ih =>
    rw [List.foldl_cons, ih, addIdentity_eq]
    cases hclass : censusClass physicalBindings participationCatalog identity <;>
      simp [censusOf, hclass, Nat.add_assoc, Nat.add_comm 1]

/-- The plan is the partition into classes. -/
theorem isPartition_plan : IsPartition census allKnownSpawnIds physicalBindings worldFactionCatalog agentTypeCatalog
    participationCatalog (buildReconciliationPlan census allKnownSpawnIds physicalBindings worldFactionCatalog
      agentTypeCatalog participationCatalog) := by
  rw [buildReconciliationPlan, foldl_addIdentity, foldl_addBinding]
  constructor <;> simp

/-! ### Insertions -/

theorem censusClass_eq_bound {identity : CreatureSpawnIdentity} :
    censusClass physicalBindings participationCatalog identity = .bound ↔
      ∃ binding ∈ physicalBindings, binding.spawnId = identity.spawnId := by
  unfold censusClass
  split_ifs with hbound <;> simp [hbound]

/-- A missing spawn has no row, and no row has its identity. -/
theorem censusClass_eq_missing {identity : CreatureSpawnIdentity} :
    censusClass physicalBindings participationCatalog identity = .missing ↔
      (∀ binding ∈ physicalBindings, binding.spawnId ≠ identity.spawnId ∧ binding.id ≠ identity.spawnId) ∧
        participationCatalog.resolve identity.spawnId ≠ .excluded := by
  unfold censusClass
  split_ifs with hbound hid hexcluded
  · simp only [false_iff, not_and]
    obtain ⟨binding, hbinding, hspawn⟩ := hbound
    exact fun h => absurd hspawn (h binding hbinding).1
  · simp only [false_iff, not_and]
    obtain ⟨binding, hbinding, hspawn⟩ := hid
    exact fun h => absurd hspawn (h binding hbinding).2
  · simp [hexcluded]
  · simp only [true_iff]
    exact ⟨fun binding hbinding => ⟨fun h => hbound ⟨binding, hbinding, h⟩, fun h => hid ⟨binding, hbinding, h⟩⟩,
      hexcluded⟩

theorem insertRow_keys {rows rows' : List AgentSpawnBinding} {row : AgentSpawnBinding} (hkeys : KeysHold rows)
    (h : insertRow rows row = some rows') : KeysHold rows' := by
  unfold insertRow at h
  split_ifs at h with hfree
  cases h
  simp only [List.any_eq_true, Bool.or_eq_true, Bool.and_eq_true, decide_eq_true_eq, not_exists, not_and,
    not_or] at hfree
  obtain ⟨hprimary, hunique⟩ := hkeys
  constructor
  · rw [List.map_append, List.map_singleton]
    refine List.Nodup.append hprimary (List.nodup_singleton _) ?_
    simp only [List.disjoint_singleton, List.mem_map, not_exists, not_and]
    exact fun other hother => (hfree other hother).1
  · rw [List.map_append, List.map_singleton]
    refine List.Nodup.append hunique (List.nodup_singleton _) ?_
    simp only [List.disjoint_singleton, List.mem_map, not_exists, not_and, Prod.mk.injEq]
    exact fun other hother => (hfree other hother).2

theorem createCreatureAgents_keys {rows rows' : List AgentSpawnBinding} {pending : List PendingCreatureAgent}
    (hkeys : KeysHold rows) (h : createCreatureAgents rows pending = some rows') : KeysHold rows' := by
  induction pending generalizing rows with
  | nil =>
    cases h
    exact hkeys
  | cons agent pending ih =>
    simp only [createCreatureAgents, List.foldlM_cons, Option.bind_eq_bind, Option.bind_eq_some_iff] at h
    obtain ⟨next, hnext, hrest⟩ := h
    exact ih (insertRow_keys hkeys hnext) hrest

/-- Agents of different spawns whose identities no row has are inserted, one after the other. -/
theorem createCreatureAgents_eq {rows : List AgentSpawnBinding} {pending : List PendingCreatureAgent}
    (hfree : ∀ agent ∈ pending, ∀ row ∈ rows, row.spawnId ≠ agent.spawnId ∧ row.id ≠ agent.spawnId)
    (hnodup : (pending.map PendingCreatureAgent.spawnId).Nodup) :
    createCreatureAgents rows pending = some (rows ++ pending.map PendingCreatureAgent.row) := by
  induction pending generalizing rows with
  | nil => simp [createCreatureAgents]
  | cons agent pending ih =>
    obtain ⟨hagent, hpending⟩ := List.forall_mem_cons.mp hfree
    obtain ⟨hfresh, hnodup⟩ := List.nodup_cons.mp (List.map_cons ▸ hnodup)
    have hinsert : insertRow rows agent.row = some (rows ++ [agent.row]) := by
      rw [insertRow, if_neg]
      simp only [List.any_eq_true, Bool.or_eq_true, Bool.and_eq_true, decide_eq_true_eq, not_exists, not_and,
        not_or]
      exact fun row hrow => ⟨(hagent row hrow).2, fun _ => (hagent row hrow).1⟩
    have hrest : ∀ other ∈ pending, ∀ row ∈ rows ++ [agent.row],
        row.spawnId ≠ other.spawnId ∧ row.id ≠ other.spawnId := by
      intro other hother row hrow
      obtain hold | hnew := List.mem_append.mp hrow
      · exact hpending other hother row hold
      · obtain rfl := List.mem_singleton.mp hnew
        have hne : agent.spawnId ≠ other.spawnId := fun h => hfresh (h ▸ List.mem_map_of_mem hother)
        exact ⟨hne, hne⟩
    have hlater := ih hrest hnodup
    rw [createCreatureAgents] at hlater ⊢
    rw [List.foldlM_cons, hinsert]
    simp only [Option.bind_eq_bind, Option.bind_some, hlater, List.map_cons, List.append_assoc, List.cons_append,
      List.nil_append]

/-! ### Planning again -/

theorem find?_of_mem {identity : CreatureSpawnIdentity} (hcensus : (census.map CreatureSpawnIdentity.spawnId).Nodup)
    (hidentity : identity ∈ census) :
    census.find? (fun other => other.spawnId = identity.spawnId) = some identity := by
  cases hfind : census.find? fun other => other.spawnId = identity.spawnId with
  | none => exact absurd (List.find?_eq_none.mp hfind identity hidentity) (by simp)
  | some other =>
    have hother := List.mem_of_find?_eq_some hfind
    have hsame : other.spawnId = identity.spawnId := by simpa using List.find?_some hfind
    rw [List.inj_on_of_nodup_map hcensus hother hidentity hsame]

/-- What was inserted, in some order. -/
def Inserts (census : List CreatureSpawnIdentity) (physicalBindings : List AgentSpawnBinding)
    (participationCatalog : SpawnParticipationCatalog) (rows : List AgentSpawnBinding) : Prop :=
  rows.Perm ((censusOf census physicalBindings participationCatalog .missing).map fun identity =>
    ⟨identity.spawnId, identity.mapId, identity.spawnId⟩)

section Again
variable {inserted read : List AgentSpawnBinding}
  (hcensus : (census.map CreatureSpawnIdentity.spawnId).Nodup)
  (hinserted : Inserts census physicalBindings participationCatalog inserted)
include hinserted

theorem Inserts.mem {row : AgentSpawnBinding} : row ∈ inserted ↔
    ∃ identity ∈ census, censusClass physicalBindings participationCatalog identity = .missing ∧
      ⟨identity.spawnId, identity.mapId, identity.spawnId⟩ = row := by
  rw [List.Perm.mem_iff hinserted]
  simp [censusOf, and_assoc]

include hcensus

/-- An inserted row is valid. -/
theorem Inserts.bindingClass_eq {row : AgentSpawnBinding} (hrow : row ∈ inserted) :
    bindingClass census allKnownSpawnIds participationCatalog row = .valid := by
  obtain ⟨identity, hidentity, hmissing, rfl⟩ := hinserted.mem.mp hrow
  obtain ⟨_, hexcluded⟩ := censusClass_eq_missing.mp hmissing
  simp [bindingClass, find?_of_mem hcensus hidentity, hexcluded]

/-- A spawn that was missing has a row now; every other one is where it was. -/
theorem Inserts.censusClass_eq {identity : CreatureSpawnIdentity} (hread : read.Perm (physicalBindings ++ inserted))
    (hidentity : identity ∈ census) : censusClass read participationCatalog identity =
      if censusClass physicalBindings participationCatalog identity = .missing then .bound
      else censusClass physicalBindings participationCatalog identity := by
  have hmem : ∀ row, row ∈ read ↔ row ∈ physicalBindings ∨ row ∈ inserted := fun row => by
    rw [hread.mem_iff, List.mem_append]
  split_ifs with hmissing
  · rw [censusClass_eq_bound]
    have hrow := hinserted.mem.mpr ⟨identity, hidentity, hmissing, rfl⟩
    exact ⟨_, (hmem _).mpr (.inr hrow), rfl⟩
  · have hother : ∀ row ∈ inserted, row.spawnId ≠ identity.spawnId ∧ row.id ≠ identity.spawnId := by
      intro row hrow
      obtain ⟨other, hother, hothermissing, rfl⟩ := hinserted.mem.mp hrow
      have hne : other.spawnId ≠ identity.spawnId := fun hsame =>
        hmissing (List.inj_on_of_nodup_map hcensus hother hidentity hsame ▸ hothermissing)
      exact ⟨hne, hne⟩
    have hspawn : (∃ row ∈ read, row.spawnId = identity.spawnId) ↔
        ∃ row ∈ physicalBindings, row.spawnId = identity.spawnId := by
      refine exists_congr fun row => ?_
      rw [hmem]
      exact ⟨fun ⟨h, hsame⟩ => ⟨h.resolve_right fun hnew => (hother row hnew).1 hsame, hsame⟩,
        fun ⟨h, hsame⟩ => ⟨.inl h, hsame⟩⟩
    have hid : (∃ row ∈ read, row.id = identity.spawnId) ↔ ∃ row ∈ physicalBindings, row.id = identity.spawnId := by
      refine exists_congr fun row => ?_
      rw [hmem]
      exact ⟨fun ⟨h, hsame⟩ => ⟨h.resolve_right fun hnew => (hother row hnew).2 hsame, hsame⟩,
        fun ⟨h, hsame⟩ => ⟨.inl h, hsame⟩⟩
    simp only [censusClass, hspawn, hid]

/-- The rows of the other classes are the same. -/
theorem Inserts.bindingsOf_perm (hread : read.Perm (physicalBindings ++ inserted)) {c : BindingClass} (hc : c ≠ .valid) :
    (bindingsOf census allKnownSpawnIds read participationCatalog c).Perm
      (bindingsOf census allKnownSpawnIds physicalBindings participationCatalog c) := by
  have hnone : (inserted.filter fun row => bindingClass census allKnownSpawnIds participationCatalog row = c) = [] := by
    rw [List.filter_eq_nil_iff]
    intro row hrow
    rw [hinserted.bindingClass_eq hcensus hrow]
    simpa using hc.symm
  have hperm := hread.filter fun row => bindingClass census allKnownSpawnIds participationCatalog row = c
  rw [List.filter_append, hnone, List.append_nil] at hperm
  exact hperm

theorem Inserts.length_valid (hread : read.Perm (physicalBindings ++ inserted)) :
    (bindingsOf census allKnownSpawnIds read participationCatalog .valid).length =
      (bindingsOf census allKnownSpawnIds physicalBindings participationCatalog .valid).length + inserted.length := by
  have hall : (inserted.filter fun row => bindingClass census allKnownSpawnIds participationCatalog row = .valid) =
      inserted := by
    rw [List.filter_eq_self]
    intro row hrow
    simp [hinserted.bindingClass_eq hcensus hrow]
  have hperm := hread.filter fun row => bindingClass census allKnownSpawnIds participationCatalog row = .valid
  rw [List.filter_append, hall] at hperm
  exact hperm.length_eq.trans List.length_append

theorem Inserts.censusOf_eq (hread : read.Perm (physicalBindings ++ inserted)) {c : CensusClass} (hbound : c ≠ .bound)
    (hmissing : c ≠ .missing) :
    censusOf census read participationCatalog c = censusOf census physicalBindings participationCatalog c := by
  refine List.filter_congr fun identity hidentity => ?_
  rw [hinserted.censusClass_eq hcensus hread hidentity]
  split_ifs with h
  · simp [h, hbound.symm, hmissing.symm]
  · rfl

theorem Inserts.censusOf_missing (hread : read.Perm (physicalBindings ++ inserted)) :
    censusOf census read participationCatalog .missing = [] := by
  refine List.filter_eq_nil_iff.mpr fun identity hidentity => ?_
  rw [hinserted.censusClass_eq hcensus hread hidentity]
  split_ifs with h <;> simp [h]

end Again

end Plan

/-! ### The plan and the one after it -/

/-- The second plan: nothing is missing, what was missing is valid, and the other classes are as they were.
The table is read in no fixed order. -/
structure Settled (plan plan' : SpawnReconciliationPlan) : Prop where
  missing : plan'.missing = []
  valid : plan'.validCount = plan.validCount + plan.missing.length
  quarantined : plan'.quarantinedCount = plan.quarantinedCount
  outOfScope : plan'.outOfScopeCount = plan.outOfScopeCount
  orphaned : plan'.orphaned.Perm plan.orphaned
  conflicted : plan'.conflicted.Perm plan.conflicted
  excludedButBound : plan'.excludedButBound.Perm plan.excludedButBound
  agentIdCollisions : plan'.agentIdCollisions = plan.agentIdCollisions
  excludedSkipped : plan'.excludedSkippedCount = plan.excludedSkippedCount

section Settles
variable {census : List CreatureSpawnIdentity} {allKnownSpawnIds : Finset UInt64}
  {physicalBindings : List AgentSpawnBinding} {worldFactionCatalog : WorldFactionCatalog}
  {agentTypeCatalog : AgentTypeCatalog} {participationCatalog : SpawnParticipationCatalog}
  {plan plan' : SpawnReconciliationPlan} {order : List PendingCreatureAgent} {read : List AgentSpawnBinding}

theorem IsPartition.inserts (hplan : IsPartition census allKnownSpawnIds physicalBindings worldFactionCatalog
    agentTypeCatalog participationCatalog plan) (horder : order.Perm plan.missing) :
    Inserts census physicalBindings participationCatalog (order.map PendingCreatureAgent.row) := by
  have hrows := horder.map PendingCreatureAgent.row
  rw [hplan.missing, List.map_map] at hrows
  exact hrows

/-- What is missing can be inserted in any order. -/
theorem IsPartition.createCreatureAgents_eq (hplan : IsPartition census allKnownSpawnIds physicalBindings
    worldFactionCatalog agentTypeCatalog participationCatalog plan) (horder : order.Perm plan.missing)
    (hcensus : (census.map CreatureSpawnIdentity.spawnId).Nodup) :
    createCreatureAgents physicalBindings order = some (physicalBindings ++ order.map PendingCreatureAgent.row) := by
  rw [hplan.missing] at horder
  refine Reconciliation.createCreatureAgents_eq (fun agent hagent row hrow => ?_) ?_
  · obtain ⟨identity, hidentity, rfl⟩ := List.mem_map.mp (horder.mem_iff.mp hagent)
    have hmissing : censusClass physicalBindings participationCatalog identity = .missing := by
      simpa using (List.mem_filter.mp hidentity).2
    exact (censusClass_eq_missing.mp hmissing).1 row hrow
  · have hspawns := horder.map PendingCreatureAgent.spawnId
    rw [List.map_map] at hspawns
    refine hspawns.nodup_iff.mpr (hcensus.sublist ?_)
    exact List.filter_sublist.map CreatureSpawnIdentity.spawnId

theorem IsPartition.settled (hplan : IsPartition census allKnownSpawnIds physicalBindings worldFactionCatalog
    agentTypeCatalog participationCatalog plan) (hplan' : IsPartition census allKnownSpawnIds read worldFactionCatalog
    agentTypeCatalog participationCatalog plan') (horder : order.Perm plan.missing)
    (hcensus : (census.map CreatureSpawnIdentity.spawnId).Nodup)
    (hread : read.Perm (physicalBindings ++ order.map PendingCreatureAgent.row)) : Settled plan plan' := by
  have h := hplan.inserts horder
  constructor
  · rw [hplan'.missing, h.censusOf_missing hcensus hread, List.map_nil]
  · rw [hplan'.valid, h.length_valid hcensus hread, List.length_map, horder.length_eq, hplan.valid]
  · rw [hplan'.quarantined, (h.bindingsOf_perm hcensus hread (by decide)).length_eq, hplan.quarantined]
  · rw [hplan'.outOfScope, (h.bindingsOf_perm hcensus hread (by decide)).length_eq, hplan.outOfScope]
  · rw [hplan'.orphaned, hplan.orphaned]
    exact (h.bindingsOf_perm hcensus hread (by decide)).map _
  · rw [hplan'.conflicted, hplan.conflicted]
    exact (h.bindingsOf_perm hcensus hread (by decide)).map _
  · rw [hplan'.excludedButBound, hplan.excludedButBound]
    exact (h.bindingsOf_perm hcensus hread (by decide)).map _
  · rw [hplan'.agentIdCollisions, h.censusOf_eq hcensus hread (by decide) (by decide), hplan.agentIdCollisions]
  · rw [hplan'.excludedSkipped, h.censusOf_eq hcensus hread (by decide) (by decide), hplan.excludedSkipped]

end Settles

/-- A valid row, a quarantined one, a row of a spawn that is gone, and spawns without a row: one to insert, one
whose identity is taken, and one that is excluded. -/
def sampleCensus : List CreatureSpawnIdentity := [⟨0, 1, 10, 0⟩, ⟨0, 2, 11, 0⟩, ⟨0, 3, 12, 0⟩, ⟨1, 4, 13, 0⟩]

def sampleBindings : List AgentSpawnBinding := [⟨1, 0, 1⟩, ⟨3, 0, 8⟩, ⟨9, 0, 9⟩]

def sampleParticipation : SpawnParticipationCatalog :=
  ((ExtTreeMap.empty.insert 1 .fullAgent).insert 2 .fullAgent).insert 3 .fullAgent

end AIWorld.Reconciliation
