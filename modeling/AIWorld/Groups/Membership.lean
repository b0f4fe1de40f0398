import AIWorld.Groups.Effect

/-! The two directions of membership. A group lists its members and an agent has
its groups; both say the same as long as no record comes in with a member listed
twice. A record with a repeated member is stored as it is, and the first departure
of that member then leaves it listed in a group that it is no longer in. -/

namespace AIWorld.Groups

open Std Lib AgentGroupRegistry

/-- The member lists of the groups and the groups of the members agree. -/
structure Agrees (r : AgentGroupRegistry) : Prop where
  both : ∀ groupId member : UInt64,
    (∃ group, r.find groupId = some group ∧ member ∈ group.memberIds) ↔
      groupId ∈ r.getGroupsOfMember member
  members : ∀ groupId group, r.find groupId = some group → group.memberIds.Nodup
  groups : ∀ member, (r.getGroupsOfMember member).Nodup
  nonempty : ∀ member : UInt64, r.memberGroups[member]? ≠ some []
  indexed : ∀ groupId group (member : UInt64), r.find groupId = some group →
    member ∈ group.memberIds → ∃ ids, r.memberGroups[member]? = some ids ∧ groupId ∈ ids
  kinds : ∀ member kind, r.isMemberOfKind member kind =
    r.groups.toList.any fun p => p.2.kind = kind ∧ member ∈ p.2.memberIds

/-- A record that would be stored lists each member once. -/
def RegistryOp.AddsDistinct (r : AgentGroupRegistry) : RegistryOp → Prop
  | .add record => record.id ≠ 0 → r.find record.id = none → record.memberIds.Nodup
  | _ => True

/-- What every call keeps. -/
structure Linked (r : AgentGroupRegistry) : Prop where
  clean : SetMap.Clean r.memberGroups
  both : ∀ groupId member : UInt64, groupId ∈ SetMap.bucket r.memberGroups member ↔
    ∃ group, r.groups[groupId]? = some group ∧ member ∈ group.memberIds
  nodup : ∀ (groupId : UInt64) (group : AgentGroupRecord), r.groups[groupId]? = some group →
    group.memberIds.Nodup

variable {r r' : AgentGroupRegistry} {op : RegistryOp} {b : Bool} {id groupId member : UInt64}
  {record group : AgentGroupRecord} {membership : AgentGroupMembership}

theorem linked_empty : Linked {} where
  clean := SetMap.clean_empty
  both groupId member := by simp [SetMap.bucket]
  nodup := by simp

/-! ### Member lists -/

theorem memberIds_append : { group with members := group.members ++ [membership] }.memberIds =
    group.memberIds ++ [membership.member] := by
  simp [AgentGroupRecord.memberIds]

theorem memberIds_eraseP : { group with
      members := group.members.eraseP fun membership => membership.member = member }.memberIds =
    group.memberIds.erase member := by
  simp only [AgentGroupRecord.memberIds, List.erase_eq_eraseP, List.eraseP_map]
  congr 2
  funext existing
  exact decide_eq_decide.mpr eq_comm

/-! ### Calls -/

theorem Linked.put (h : Linked r) (hnew : r.groups[record.id]? = none)
    (hdistinct : record.memberIds.Nodup) : Linked (r.put record) where
  clean := SetMap.clean_linkAll h.clean
  both groupId member := by
    rw [AgentGroupRegistry.put, SetMap.mem_bucket_linkAll, OrdMap.getElem?_insert, h.both]
    split_ifs with hid
    · subst hid
      simp [hnew]
    · simp [Ne.symm hid]
  nodup := OrdMap.forall_insert hdistinct fun k v _ hk => h.nodup k v hk

theorem Linked.drop (h : Linked r) (hold : r.groups[id]? = some record) :
    Linked (r.drop id record) where
  clean := SetMap.clean_unlinkAll h.clean
  both groupId member := by
    rw [AgentGroupRegistry.drop, SetMap.mem_bucket_unlinkAll h.clean, OrdMap.getElem?_erase, h.both]
    split_ifs with hid
    · subst hid
      simp [hold]
    · simp [Ne.symm hid]
  nodup k v hk := by
    rw [AgentGroupRegistry.drop, OrdMap.getElem?_erase] at hk
    split_ifs at hk
    exact h.nodup k v hk

theorem Linked.join (h : Linked r) (hold : r.groups[groupId]? = some group)
    (hnew : membership.member ∉ group.memberIds) : Linked (r.join groupId group membership) where
  clean := SetMap.clean_link h.clean
  both k member := by
    rw [AgentGroupRegistry.join, SetMap.mem_bucket_link, OrdMap.getElem?_insert, h.both]
    split_ifs with hk
    · subst hk
      simp [hold, memberIds_append, or_comm, eq_comm]
    · simp [Ne.symm hk]
  nodup := by
    refine OrdMap.forall_insert ?_ fun k v _ hk => h.nodup k v hk
    rw [memberIds_append]
    exact List.nodup_append_comm.mp (List.nodup_cons.mpr ⟨hnew, h.nodup _ _ hold⟩)

theorem Linked.leave (h : Linked r) (hold : r.groups[groupId]? = some group) :
    Linked (r.leave groupId group member) where
  clean := SetMap.clean_unlink h.clean
  both k m := by
    rw [AgentGroupRegistry.leave, SetMap.mem_bucket_unlink h.clean, OrdMap.getElem?_insert, h.both]
    split_ifs with hk
    · subst hk
      simp only [hold, Option.some.injEq, exists_eq_left', memberIds_eraseP,
        (h.nodup _ _ hold).mem_erase_iff]
      tauto
    · simp [Ne.symm hk]
  nodup := by
    refine OrdMap.forall_insert ?_ fun k v _ hk => h.nodup k v hk
    rw [memberIds_eraseP]
    exact (h.nodup _ _ hold).erase member

theorem Effect.linked (he : Effect r op b r') (h : Linked r) (hop : op.AddsDistinct r) :
    Linked r' := by
  cases he with
  | refused => exact h
  | added hid hnew => exact h.put hnew (hop hid hnew)
  | removed hold => exact h.drop hold
  | joined hold hnew => exact h.join hold hnew
  | left hold => exact h.leave hold

theorem isMemberOfKind_iff {kind : AgentGroupKind} : r.isMemberOfKind member kind = true ↔
    ∃ groupId ∈ SetMap.bucket r.memberGroups member, ∃ group,
      r.groups[groupId]? = some group ∧ group.kind = kind := by
  unfold isMemberOfKind SetMap.bucket
  cases r.memberGroups[member]? with
  | none => simp
  | some ids =>
    rw [List.any_eq_true]
    refine exists_congr fun id => and_congr_right fun _ => ?_
    cases r.groups[id]? <;> simp

theorem Linked.kinds (h : Linked r) (member : UInt64) (kind : AgentGroupKind) :
    r.isMemberOfKind member kind =
      r.groups.toList.any fun p => p.2.kind = kind ∧ member ∈ p.2.memberIds := by
  rw [Bool.eq_iff_iff, isMemberOfKind_iff, List.any_eq_true]
  constructor
  · rintro ⟨groupId, hmem, group, hgroup, hkind⟩
    obtain ⟨group', hgroup', hmem⟩ := (h.both groupId member).mp hmem
    obtain rfl := Option.some.inj (hgroup.symm.trans hgroup')
    exact ⟨(groupId, group), ExtTreeMap.mem_toList_iff_getElem?_eq_some.mpr hgroup, by simp [hkind, hmem]⟩
  · rintro ⟨⟨groupId, group⟩, hp, hscan⟩
    have hgroup := ExtTreeMap.mem_toList_iff_getElem?_eq_some.mp hp
    simp only [decide_eq_true_eq] at hscan
    exact ⟨groupId, (h.both groupId member).mpr ⟨group, hgroup, hscan.2⟩, group, hgroup, hscan.1⟩

theorem Linked.agrees (h : Linked r) : Agrees r where
  both groupId member := (h.both groupId member).symm
  members := h.nodup
  groups := h.clean.nodup_bucket
  nonempty member hnil := (h.clean member [] hnil).1 rfl
  indexed groupId group member hold hmem :=
    have hbucket := (h.both groupId member).mpr ⟨group, hold, hmem⟩
    ⟨_, SetMap.getElem?_of_mem_bucket hbucket, hbucket⟩
  kinds := h.kinds

/-! ### Runs -/

theorem run_agrees {tr : List (Event AgentGroupRegistry RegistryOp Bool)}
    (hrun : machine.Run r tr r') (h : Linked r) (hops : ∀ e ∈ tr, e.input.AddsDistinct e.pre) :
    ∀ e ∈ tr, Agrees e.post := by
  induction hrun with
  | nil => simp
  | cons hstep _ ih =>
    obtain ⟨hop, hops⟩ := List.forall_mem_cons.mp hops
    have hnext := (effect_of_step hstep).linked h hop
    exact List.forall_mem_cons.mpr ⟨hnext.agrees, ih hnext hops⟩

/-- A record with a repeated member is stored with it. -/
theorem distinct_of_agrees {e : Event AgentGroupRegistry RegistryOp Bool}
    (hstep : machine.IsStep e) (h : Agrees e.post) : e.input.AddsDistinct e.pre := by
  obtain ⟨pre, op, b, post⟩ := e
  cases op with
  | add record =>
    intro hid hnew
    have hpost : (pre.add record).2 = post := congrArg Prod.snd (Option.some.inj hstep)
    rw [add_new hid hnew] at hpost
    refine h.members record.id record ?_
    rw [← hpost]
    exact ExtTreeMap.getElem?_insert_self
  | remove | addMember | removeMember => trivial

/-- A run keeps the two directions in step exactly when no record with a repeated
member is stored on the way. -/
theorem membership_agrees_iff {tr : List (Event AgentGroupRegistry RegistryOp Bool)}
    (hrun : machine.Run {} tr r) :
    (∀ e ∈ tr, Agrees e.post) ↔ ∀ e ∈ tr, e.input.AddsDistinct e.pre := by
  constructor
  · intro h e he
    obtain ⟨_, _, _, _, hstep, _⟩ := hrun.at_mem he
    exact distinct_of_agrees hstep (h e he)
  · exact run_agrees hrun linked_empty

/-- A record that lists one agent twice, and a departure of that agent. -/
def twiceListed : List RegistryOp :=
  [.add { id := 1, members := [{ member := 7 }, { member := 7 }] }, .removeMember 1 7]

theorem membership_disagrees_twiceListed : ∃ tr r, machine.Run {} tr r ∧
    tr.map Event.input = twiceListed ∧
    (∃ group, r.find 1 = some group ∧ 7 ∈ group.memberIds) ∧ r.getGroupsOfMember 7 = [] ∧
    ¬ Agrees r := by
  have h : (machine.exec {} twiceListed).map (fun p =>
      ((p.2.find 1).map AgentGroupRecord.memberIds, p.2.getGroupsOfMember 7)) =
        some (some [7], []) := by decide +kernel
  obtain ⟨⟨tr, r⟩, hexec, h⟩ := Option.map_eq_some_iff.mp h
  obtain ⟨hlisted, hgroups⟩ := Prod.mk.inj h
  obtain ⟨group, hgroup, hids⟩ := Option.map_eq_some_iff.mp hlisted
  have hmem : 7 ∈ group.memberIds := hids ▸ List.mem_singleton_self 7
  refine ⟨tr, r, Machine.run_of_exec hexec, Machine.inputs_of_exec hexec,
    ⟨group, hgroup, hmem⟩, hgroups, fun hagrees => ?_⟩
  have hin := (hagrees.both 1 7).mp ⟨group, hgroup, hmem⟩
  rw [hgroups] at hin
  contradiction

theorem membership_agrees_iff_twoMembers : ∃ tr r, machine.Run {} tr r ∧
    tr.map Event.input = [.add { id := 1, members := [{ member := 7 }, { member := 8 }] },
      .removeMember 1 7] ∧ ∀ e ∈ tr, Agrees e.post := by
  obtain ⟨tr, r, hrun, hcalls, -⟩ := Machine.exists_run (M := machine) (P := fun _ => True)
    (fun r op _ => ⟨_, _, rfl, trivial⟩) [.add { id := 1, members := [{ member := 7 }, { member := 8 }] },
      .removeMember 1 7] (s := {}) trivial
  refine ⟨tr, r, hrun, hcalls, (membership_agrees_iff hrun).mpr fun e he => ?_⟩
  have hmem : e.input ∈ tr.map Event.input := List.mem_map_of_mem he
  rw [hcalls, List.mem_cons, List.mem_singleton] at hmem
  rcases hmem with hop | hop <;> rw [hop]
  · exact fun _ _ => by decide
  · trivial

end AIWorld.Groups
