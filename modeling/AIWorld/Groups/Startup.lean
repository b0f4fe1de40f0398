import AIWorld.Groups.LifecycleInvariant

/-! Startup. The allocator is read from its sequence, the groups and then their
members are read into an empty registry, and rows that do not fit are passed over.
Tables in which every row fits come out in the registry as they are. -/

namespace AIWorld.Groups

open Std (ExtTreeMap)
open Lib AgentGroupRegistry

/-! ### Loading -/

def AgentGroupKind.ofUInt8? (raw : UInt8) : Option AgentGroupKind :=
  if raw = 0 then some .loose else if raw = 1 then some .stable else none

def CoalitionFormationProfileId.ofUInt8? (raw : UInt8) : Option CoalitionFormationProfileId :=
  if raw = 0 ∨ raw = 1 ∨ raw = 2 then some ⟨raw⟩ else none

/-- The record that a row stands for, if its kind and its profile are known. -/
def GroupRow.record? (row : GroupRow) (groupId : UInt64) : Option AgentGroupRecord :=
  match AgentGroupKind.ofUInt8? row.kind, CoalitionFormationProfileId.ofUInt8? row.profileId with
  | some kind, some profileId => some {
      id := groupId
      kind
      profileId
      territoryMapId := row.territoryMapId
      territoryX := row.territoryX
      territoryY := row.territoryY
      territoryZ := row.territoryZ
      resources := row.resources
      version := row.version }
  | _, _ => none

namespace Database

/-- The next id and whether it can be trusted: it must be above every stored id. -/
def loadGroupIdSequence (db : Database) : UInt64 × Bool :=
  match db.nextGroupId with
  | none => (1, false)
  | some nextGroupId =>
    let maxExistingGroupId := db.groups.keys.getLast?.getD 0
    if nextGroupId = 0 ∨ nextGroupId ≤ maxExistingGroupId then (1, false) else (nextGroupId, true)

def loadGroup (r : AgentGroupRegistry) (p : UInt64 × GroupRow) : AgentGroupRegistry :=
  match p.2.record? p.1 with
  | none => r
  | some record => (r.add record).2

def loadGroups (db : Database) (registry : AgentGroupRegistry) : AgentGroupRegistry :=
  db.groups.toList.foldl loadGroup registry

def loadGroupMember (agentRegistry : AgentRegistry) (r : AgentGroupRegistry)
    (row : GroupMemberRow) : AgentGroupRegistry :=
  match r.find row.groupId, agentRegistry.find row.memberAgentId with
  | some group, some member =>
    match requiredWorldFactionFor group.profileId with
    | some requiredWorldFaction =>
      if member.worldFaction = requiredWorldFaction then (r.addMember row.groupId row.membership).2
      else r
    | none => (r.addMember row.groupId row.membership).2
  | _, _ => r

def loadGroupMembers (db : Database) (registry : AgentGroupRegistry)
    (agentRegistry : AgentRegistry) : AgentGroupRegistry :=
  db.groupMembers.foldl (loadGroupMember agentRegistry) registry

end Database

/-- The system as it starts from its tables. -/
def LifecycleState.startup (db : Database) (agentRegistry : AgentRegistry) : LifecycleState where
  registry := db.loadGroupMembers (db.loadGroups {}) agentRegistry
  database := db
  nextGroupId := db.loadGroupIdSequence.1
  groupIdAllocatorValid := db.loadGroupIdSequence.2

/-! ### Tables in which every row fits -/

/-- The faction of an agent fits the profile of a group's row. -/
def GroupRow.Admits (row : GroupRow) (agent : AgentRecord) : Prop :=
  ∀ faction, requiredWorldFactionFor ⟨row.profileId⟩ = some faction → agent.worldFaction = faction

/-- Every row loads, and the keys are unique. -/
structure Database.Loadable (db : Database) (agentRegistry : AgentRegistry) : Prop where
  groups : ∀ (groupId : UInt64) (row : GroupRow), db.groups[groupId]? = some row →
    groupId ≠ 0 ∧ ∃ record, row.record? groupId = some record
  members : ∀ row ∈ db.groupMembers, ∃ groupRow agent, db.groups[row.groupId]? = some groupRow ∧
    agentRegistry.find row.memberAgentId = some agent ∧ groupRow.Admits agent
  keys : (db.groupMembers.map fun row => (row.groupId, row.memberAgentId)).Nodup

variable {db : Database} {agentRegistry : AgentRegistry} {r : AgentGroupRegistry}

theorem content_record? {row : GroupRow} {groupId : UInt64} {record : AgentGroupRecord}
    (h : row.record? groupId = some record) : record.id = groupId ∧ record.content = ⟨some row, []⟩ := by
  unfold GroupRow.record? at h
  split at h
  next kind profileId hkind hprofile =>
    cases h
    refine ⟨rfl, ?_⟩
    have hraw : kind.toUInt8 = row.kind := by
      unfold AgentGroupKind.ofUInt8? at hkind
      split_ifs at hkind with h₀ h₁ <;> cases hkind
      · exact h₀.symm
      · exact h₁.symm
    have hprofile : profileId.value = row.profileId := by
      unfold CoalitionFormationProfileId.ofUInt8? at hprofile
      split_ifs at hprofile
      cases hprofile
      rfl
    simp [AgentGroupRecord.content, GroupRow.ofRecord, hraw, hprofile]
  · contradiction

/-- A group that is not registered yet is added without members. -/
theorem loadGroup_eq (h : Linked r) {p : UInt64 × GroupRow} (hid : p.1 ≠ 0)
    (hload : ∃ record, p.2.record? p.1 = some record) (hnew : r.groups[p.1]? = none) :
    Linked (Database.loadGroup r p) ∧
      (Database.loadGroup r p).content = Function.update r.content p.1 ⟨some p.2, []⟩ := by
  obtain ⟨record, hrecord⟩ := hload
  obtain ⟨hrid, hcontent⟩ := content_record? hrecord
  have hmembers : record.memberIds = [] :=
    congrArg (List.map AgentGroupMembership.member) (congrArg GroupContent.members hcontent)
  rw [← hrid] at hid hnew ⊢
  have hadd : Database.loadGroup r p = r.put record := by
    simp only [Database.loadGroup, hrecord, add_new hid hnew]
  rw [hadd, ← hcontent]
  refine ⟨h.put hnew ?_, content_insert r.groups r.memberGroups _ record.id record⟩
  rw [hmembers]
  exact List.nodup_nil

theorem foldl_loadGroup (ps : List (UInt64 × GroupRow)) (h : Linked r)
    (hload : ∀ p ∈ ps, p.1 ≠ 0 ∧ ∃ record, p.2.record? p.1 = some record)
    (hnew : ∀ p ∈ ps, r.groups[p.1]? = none) (hps : (ps.map Prod.fst).Nodup) :
    Linked (ps.foldl Database.loadGroup r) ∧
      (∀ p ∈ ps, (ps.foldl Database.loadGroup r).content p.1 = ⟨some p.2, []⟩) ∧
      ∀ k, (∀ p ∈ ps, p.1 ≠ k) → (ps.foldl Database.loadGroup r).content k = r.content k := by
  induction ps generalizing r with
  | nil => exact ⟨h, by simp, fun _ _ => rfl⟩
  | cons p ps ih =>
    obtain ⟨hp, hload⟩ := List.forall_mem_cons.mp hload
    obtain ⟨hpnew, hnew⟩ := List.forall_mem_cons.mp hnew
    obtain ⟨hpps, hps⟩ := List.nodup_cons.mp hps
    obtain ⟨hlinked, hcontent⟩ := loadGroup_eq h hp.1 hp.2 hpnew
    have hne : ∀ p' ∈ ps, p'.1 ≠ p.1 := fun p' hp' he => hpps (he ▸ List.mem_map_of_mem hp')
    have hnew' : ∀ p' ∈ ps, (Database.loadGroup r p).groups[p'.1]? = none := by
      intro p' hp'
      rw [← content_eq_empty, hcontent, Function.update_of_ne (hne p' hp'), content_eq_empty]
      exact hnew p' hp'
    obtain ⟨hlast, hin, hout⟩ := ih hlinked hload hnew' hps
    refine ⟨hlast, List.forall_mem_cons.mpr ⟨?_, hin⟩, fun k hk => ?_⟩
    · rw [List.foldl_cons, hout p.1 hne, hcontent, Function.update_self]
    · obtain ⟨hpk, hk⟩ := List.forall_mem_cons.mp hk
      rw [List.foldl_cons, hout k hk, hcontent, Function.update_of_ne hpk.symm]

theorem loadGroups_content (hdb : db.Loadable agentRegistry) : Linked (db.loadGroups {}) ∧
    ∀ k, (db.loadGroups {}).content k = ⟨db.groups[k]?, []⟩ := by
  have hmem (p : UInt64 × GroupRow) : p ∈ db.groups.toList ↔ db.groups[p.1]? = some p.2 :=
    ExtTreeMap.mem_toList_iff_getElem?_eq_some
  have hkeys : (db.groups.toList.map Prod.fst).Nodup := by
    rw [ExtTreeMap.map_fst_toList_eq_keys]
    exact OrdMap.nodup_keys _
  obtain ⟨hlinked, hin, hout⟩ := foldl_loadGroup db.groups.toList linked_empty
    (fun p hp => hdb.groups p.1 p.2 ((hmem p).mp hp)) (by simp) hkeys
  refine ⟨hlinked, fun k => ?_⟩
  cases hk : db.groups[k]? with
  | some row => exact hin (k, row) ((hmem (k, row)).mpr hk)
  | none =>
    refine (hout k ?_).trans (by simp [content])
    rintro p hp rfl
    rw [(hmem p).mp hp] at hk
    contradiction

/-- Loading a fitting row adds its member. -/
theorem loadGroupMember_eq (h : Linked r) {row : GroupMemberRow} {groupRow : GroupRow}
    {agent : AgentRecord} (hgroup : (r.content row.groupId).row = some groupRow)
    (hagent : agentRegistry.find row.memberAgentId = some agent) (hadmits : groupRow.Admits agent)
    (hnew : row.memberAgentId ∉ (r.content row.groupId).memberIds) :
    Linked (Database.loadGroupMember agentRegistry r row) ∧
      (Database.loadGroupMember agentRegistry r row).content =
        Function.update r.content row.groupId
          { r.content row.groupId with
            members := (r.content row.groupId).members ++ [row.membership] } := by
  have hrow : (r.content row.groupId).row ≠ none := hgroup ▸ Option.some_ne_none _
  obtain ⟨group, hfind⟩ := exists_of_row hrow
  have hadd : Database.loadGroupMember agentRegistry r row =
      (r.addMember row.groupId row.membership).2 := by
    have hprofile : group.profileId = ⟨groupRow.profileId⟩ := by
      rw [content_of_some hfind, AgentGroupRecord.content, Option.some.injEq] at hgroup
      rw [← hgroup]
      rfl
    simp only [Database.loadGroupMember, find, hfind, hagent, hprofile]
    split
    next faction hfaction => rw [if_pos (hadmits faction hfaction)]
    · rfl
  have hop : (Operation.join row.groupId row.memberAgentId row.joinedAtMs).Allowed
      (r.content row.groupId) := ⟨hrow, hnew⟩
  rw [hadd]
  exact ⟨(step_effect r (.addMember row.groupId row.membership)).linked h trivial,
    (content_registryOp h hop).2⟩

/-- Loading fitting rows adds their members in order. -/
theorem foldl_loadGroupMember (rows : List GroupMemberRow) (h : Linked r)
    (hrows : ∀ row ∈ rows, ∃ groupRow agent, (r.content row.groupId).row = some groupRow ∧
      agentRegistry.find row.memberAgentId = some agent ∧ groupRow.Admits agent)
    (hnew : ∀ row ∈ rows, row.memberAgentId ∉ (r.content row.groupId).memberIds)
    (hkeys : (rows.map fun row => (row.groupId, row.memberAgentId)).Nodup) :
    Linked (rows.foldl (Database.loadGroupMember agentRegistry) r) ∧
      ∀ k, (rows.foldl (Database.loadGroupMember agentRegistry) r).content k =
        ⟨(r.content k).row, (r.content k).members ++
          (rows.filter fun row => row.groupId = k).map GroupMemberRow.membership⟩ := by
  induction rows generalizing r with
  | nil => exact ⟨h, fun k => by simp⟩
  | cons row rows ih =>
    obtain ⟨⟨groupRow, agent, hgroup, hagent, hadmits⟩, hrows⟩ := List.forall_mem_cons.mp hrows
    obtain ⟨hrow, hnew⟩ := List.forall_mem_cons.mp hnew
    obtain ⟨hkey, hkeys⟩ := List.nodup_cons.mp hkeys
    obtain ⟨hlinked, hcontent⟩ := loadGroupMember_eq h hgroup hagent hadmits hrow
    have hsame (k : UInt64) :
        ((Database.loadGroupMember agentRegistry r row).content k).row = (r.content k).row := by
      rw [hcontent, Function.update_apply]
      split_ifs with hk
      · rw [hk]
      · rfl
    have hnew' : ∀ row' ∈ rows, row'.memberAgentId ∉
        ((Database.loadGroupMember agentRegistry r row).content row'.groupId).memberIds := by
      intro row' hrow' hmem
      rw [hcontent, Function.update_apply] at hmem
      split_ifs at hmem with hid
      · rw [GroupContent.memberIds, List.map_append, List.mem_append] at hmem
        rcases hmem with hold | hrow
        · exact hnew row' hrow' (hid ▸ hold)
        · have hsame : row'.memberAgentId = row.memberAgentId := List.mem_singleton.mp hrow
          refine hkey (List.mem_map.mpr ⟨row', hrow', ?_⟩)
          rw [hid, hsame]
      · exact hnew row' hrow' hmem
    have hrows' : ∀ row' ∈ rows, ∃ groupRow agent,
        ((Database.loadGroupMember agentRegistry r row).content row'.groupId).row = some groupRow ∧
          agentRegistry.find row'.memberAgentId = some agent ∧ groupRow.Admits agent := by
      intro row' hrow'
      rw [hsame]
      exact hrows row' hrow'
    obtain ⟨hlast, hfinal⟩ := ih hlinked hrows' hnew' hkeys
    refine ⟨hlast, fun k => ?_⟩
    rw [List.foldl_cons, hfinal, hsame, hcontent, Function.update_apply]
    split_ifs with hk
    · subst hk
      simp
    · simp [Ne.symm hk]

/-- The registry starts with the content of the tables. -/
theorem startup_content (hdb : db.Loadable agentRegistry) :
    Linked (LifecycleState.startup db agentRegistry).registry ∧
      (LifecycleState.startup db agentRegistry).registry.content = db.content := by
  obtain ⟨hlinked, hgroups⟩ := loadGroups_content hdb
  obtain ⟨hlast, hfinal⟩ := foldl_loadGroupMember db.groupMembers hlinked
    (fun row hrow => by
      obtain ⟨groupRow, agent, hgroup, hagent, hadmits⟩ := hdb.members row hrow
      exact ⟨groupRow, agent, by rw [hgroups, hgroup], hagent, hadmits⟩)
    (fun row _ => by rw [hgroups]; exact List.not_mem_nil) hdb.keys
  refine ⟨hlast, funext fun k => (hfinal k).trans ?_⟩
  rw [hgroups]
  rfl

theorem loadGroupIdSequence_valid (h : db.loadGroupIdSequence.2 = true) :
    0 < db.loadGroupIdSequence.1 ∧ ∀ (groupId : UInt64) (row : GroupRow),
      db.groups[groupId]? = some row → groupId < db.loadGroupIdSequence.1 := by
  unfold Database.loadGroupIdSequence at h ⊢
  cases hnext : db.nextGroupId with
  | none => simp [hnext] at h
  | some nextGroupId =>
    simp only [hnext] at h ⊢
    split_ifs at h ⊢ with hlow
    rw [not_or, not_le] at hlow
    refine ⟨UInt64.pos_iff_ne_zero.mpr hlow.1, fun groupId row hrow => ?_⟩
    exact (OrdMap.le_lastKey _ ((OrdMap.mem_keys_iff _ _).mpr ⟨row, hrow⟩)).trans_lt hlow.2

open LifecycleState in
/-- At startup nothing is in flight, so the copies are only asked to agree. -/
theorem startup_inv (hdb : db.Loadable agentRegistry) : (startup db agentRegistry).Inv := by
  obtain ⟨hlinked, hcontent⟩ := startup_content hdb
  have hpending : (startup db agentRegistry).pending = ∅ := rfl
  have hidle (n : ℕ) : (startup db agentRegistry).copies.inFlight n = none := by
    simp [copies, hpending]
  refine ⟨hlinked, ⟨?_, ?_, ?_, ?_⟩, ?_, ?_, ?_, fun hvalid => ?_⟩
  · intro n m op op' out out' hn
    rw [hidle] at hn
    contradiction
  · intro n op out hn
    rw [hidle] at hn
    contradiction
  · intro n op hn
    rw [hidle] at hn
    contradiction
  · exact fun k _ => congrFun hcontent.symm k
  · simp [startup]
  · simp [hpending]
  · simp [hpending]
  · obtain ⟨hpos, hlt⟩ := loadGroupIdSequence_valid hvalid
    refine ⟨hpos, fun groupId record hrecord => ?_⟩
    have hrow := congrArg GroupContent.row (congrFun hcontent groupId)
    rw [content_of_some hrecord] at hrow
    exact hlt groupId _ hrow.symm

end AIWorld.Groups
