import AIWorld.Groups.Registry

/-! What one call does to the group registry: nothing, one new group, one group
less, one member more or one member less. -/

namespace AIWorld.Groups

open Std Lib

namespace AgentGroupRegistry

/-- The registry with a record stored over what was there. -/
def put (r : AgentGroupRegistry) (record : AgentGroupRecord) : AgentGroupRegistry where
  groups := r.groups.insert record.id record
  memberGroups := SetMap.linkAll r.memberGroups record.memberIds record.id

def drop (r : AgentGroupRegistry) (id : UInt64) (record : AgentGroupRecord) :
    AgentGroupRegistry where
  groups := r.groups.erase id
  memberGroups := SetMap.unlinkAll r.memberGroups record.memberIds id

def join (r : AgentGroupRegistry) (groupId : UInt64) (group : AgentGroupRecord)
    (membership : AgentGroupMembership) : AgentGroupRegistry where
  groups := r.groups.insert groupId { group with members := group.members ++ [membership] }
  memberGroups := SetMap.link r.memberGroups membership.member groupId

def leave (r : AgentGroupRegistry) (groupId : UInt64) (group : AgentGroupRecord)
    (member : UInt64) : AgentGroupRegistry where
  groups := r.groups.insert groupId
    { group with members := group.members.eraseP fun membership => membership.member = member }
  memberGroups := SetMap.unlink r.memberGroups member groupId

end AgentGroupRegistry

open AgentGroupRegistry

/-- The effect of a call, its answer and the registry after it. -/
inductive Effect (r : AgentGroupRegistry) : RegistryOp → Bool → AgentGroupRegistry → Prop
  | refused {op : RegistryOp} : Effect r op false r
  | added {record : AgentGroupRecord} (hid : record.id ≠ 0)
      (hnew : r.groups[record.id]? = none) : Effect r (.add record) true (r.put record)
  | removed {id : UInt64} {record : AgentGroupRecord} (hold : r.groups[id]? = some record) :
      Effect r (.remove id) true (r.drop id record)
  | joined {groupId : UInt64} {group : AgentGroupRecord} {membership : AgentGroupMembership}
      (hold : r.groups[groupId]? = some group) (hnew : membership.member ∉ group.memberIds) :
      Effect r (.addMember groupId membership) true (r.join groupId group membership)
  | left {groupId member : UInt64} {group : AgentGroupRecord}
      (hold : r.groups[groupId]? = some group) (hmem : member ∈ group.memberIds) :
      Effect r (.removeMember groupId member) true (r.leave groupId group member)

variable {r r' : AgentGroupRegistry} {op : RegistryOp} {b : Bool} {id groupId member : UInt64}
  {record group : AgentGroupRecord} {membership : AgentGroupMembership}

theorem any_member_iff : (group.members.any fun existing => existing.member = member) = true ↔
    member ∈ group.memberIds := by
  simp [AgentGroupRecord.memberIds]

theorem add_new (hid : record.id ≠ 0) (hnew : r.groups[record.id]? = none) :
    r.add record = (true, r.put record) := by
  simp [add, find, hid, hnew, put]

theorem add_old (h : record.id = 0 ∨ r.groups[record.id]? ≠ none) :
    r.add record = (false, r) := by
  unfold add find
  split_ifs with hid hold
  · rfl
  · rfl
  · exact absurd h (by simpa [hid] using hold)

theorem remove_some (h : r.groups[id]? = some record) : r.remove id = (true, r.drop id record) := by
  simp [remove, h, drop]

theorem addMember_new (h : r.groups[groupId]? = some group)
    (hnew : membership.member ∉ group.memberIds) :
    r.addMember groupId membership = (true, r.join groupId group membership) := by
  simp only [addMember, find, h, any_member_iff, if_neg hnew, join]

theorem removeMember_old (h : r.groups[groupId]? = some group) (hmem : member ∈ group.memberIds) :
    r.removeMember groupId member = (true, r.leave groupId group member) := by
  simp only [removeMember, find, h, any_member_iff, if_pos hmem, leave]

theorem step_effect (r : AgentGroupRegistry) (op : RegistryOp) :
    Effect r op (r.step op).1 (r.step op).2 := by
  cases op with
  | add record =>
    rw [step]
    by_cases h : record.id ≠ 0 ∧ r.groups[record.id]? = none
    · rw [add_new h.1 h.2]
      exact .added h.1 h.2
    · rw [add_old (by tauto)]
      exact .refused
  | remove id =>
    rw [step]
    cases h : r.groups[id]? with
    | none =>
      simp only [remove, h]
      exact .refused
    | some record =>
      rw [remove_some h]
      exact .removed h
  | addMember groupId membership =>
    rw [step]
    cases h : r.groups[groupId]? with
    | none =>
      simp only [addMember, find, h]
      exact .refused
    | some group =>
      by_cases hmem : membership.member ∈ group.memberIds
      · simp only [addMember, find, h, any_member_iff, if_pos hmem]
        exact .refused
      · rw [addMember_new h hmem]
        exact .joined h hmem
  | removeMember groupId member =>
    rw [step]
    cases h : r.groups[groupId]? with
    | none =>
      simp only [removeMember, find, h]
      exact .refused
    | some group =>
      by_cases hmem : member ∈ group.memberIds
      · rw [removeMember_old h hmem]
        exact .left h hmem
      · simp only [removeMember, find, h, any_member_iff, if_neg hmem]
        exact .refused

theorem effect_of_step (hstep : machine.step r op = some (b, r')) : Effect r op b r' := by
  have he := step_effect r op
  rw [Option.some.inj hstep] at he
  exact he

/-! ### Ids -/

/-- Each group is stored under its own id, which is not zero. -/
def AgentGroupRegistry.Keyed (r : AgentGroupRegistry) : Prop :=
  ∀ (id : UInt64) (record : AgentGroupRecord), r.groups[id]? = some record → record.id = id ∧ id ≠ 0

theorem keyed_empty : AgentGroupRegistry.Keyed {} := fun id record h => by simp at h

theorem Effect.keyed (he : Effect r op b r') (h : r.Keyed) : r'.Keyed := by
  cases he with
  | refused => exact h
  | added hid => exact OrdMap.forall_insert ⟨rfl, hid⟩ fun k v _ hk => h k v hk
  | removed =>
    intro k v hk
    rw [drop, OrdMap.getElem?_erase] at hk
    split_ifs at hk
    exact h k v hk
  | joined hold | left hold =>
    have hgroup := h _ _ hold
    exact OrdMap.forall_insert hgroup fun k v _ hk => h k v hk

/-- A stored group was there before, or the call has just added it. -/
theorem Effect.group_before (he : Effect r op b r') (h : r'.groups[id]? = some record) :
    (∃ old, r.groups[id]? = some old) ∨ op = .add record ∧ record.id = id := by
  cases he with
  | refused => exact .inl ⟨record, h⟩
  | added =>
    rw [put, OrdMap.getElem?_insert] at h
    split_ifs at h with hid
    · cases h
      exact .inr ⟨rfl, hid⟩
    · exact .inl ⟨record, h⟩
  | removed =>
    rw [drop, OrdMap.getElem?_erase] at h
    split_ifs at h
    exact .inl ⟨record, h⟩
  | @joined groupId group _ hold | @left groupId _ group hold =>
    by_cases hid : groupId = id
    · exact .inl ⟨group, hid ▸ hold⟩
    · exact .inl ⟨record, (OrdMap.getElem?_insert_ne _ _ hid).symm.trans h⟩

end AIWorld.Groups
