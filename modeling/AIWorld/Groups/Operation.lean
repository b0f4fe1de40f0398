import AIWorld.Groups.Membership
import AIWorld.Lib.WriteThrough

/-! The tables of the groups and the operations on them. A transaction is a list of
statements that are applied together or not at all. An accepted request is an
operation with a transaction on the tables and a call of the registry. What either
of them holds of one group is the content of that group; the transaction and the
call make the same change of the content of one group. -/

namespace AIWorld.Groups

open Std Lib

/-! ### Tables -/

def AgentGroupKind.toUInt8 : AgentGroupKind → UInt8
  | .loose => 0
  | .stable => 1

/-- A row of `ai_agent_groups` but for its key. -/
structure GroupRow where
  kind : UInt8
  territoryMapId : UInt32
  territoryX : UInt32
  territoryY : UInt32
  territoryZ : UInt32
  resources : UInt32
  version : UInt64 := 0
  profileId : UInt8
  deriving DecidableEq

/-- A row of `ai_agent_group_members`. -/
structure GroupMemberRow where
  groupId : UInt64
  memberAgentId : UInt64
  joinedAtMs : UInt64
  deriving DecidableEq

/-- The group tables; `nextGroupId` is the one row of `ai_agent_group_id_sequence`. -/
structure Database where
  groups : ExtTreeMap UInt64 GroupRow := ∅
  groupMembers : List GroupMemberRow := []
  nextGroupId : Option UInt64 := none

inductive Statement where
  | updAiAgentGroupIdSequence (nextGroupId : UInt64)
  | insAiAgentGroup (groupId : UInt64) (row : GroupRow)
  | insAiAgentGroupMember (row : GroupMemberRow)
  | delAiAgentGroupMember (groupId memberAgentId : UInt64)
  | delAiAgentGroupMembersByGroup (groupId : UInt64)
  | delAiAgentGroup (groupId : UInt64)

namespace Database

/-- One statement; an insert fails on a key that is there. -/
def execute (db : Database) : Statement → Option Database
  | .updAiAgentGroupIdSequence nextGroupId =>
    some { db with nextGroupId := db.nextGroupId.map (max · nextGroupId) }
  | .insAiAgentGroup groupId row =>
    if db.groups.contains groupId then none
    else some { db with groups := db.groups.insert groupId row }
  | .insAiAgentGroupMember row =>
    if db.groupMembers.any fun old =>
        old.groupId = row.groupId ∧ old.memberAgentId = row.memberAgentId then none
    else some { db with groupMembers := db.groupMembers ++ [row] }
  | .delAiAgentGroupMember groupId memberAgentId => some { db with
      groupMembers := db.groupMembers.filter fun row =>
        ¬ (row.groupId = groupId ∧ row.memberAgentId = memberAgentId) }
  | .delAiAgentGroupMembersByGroup groupId =>
    some { db with groupMembers := db.groupMembers.filter fun row => row.groupId ≠ groupId }
  | .delAiAgentGroup groupId => some { db with groups := db.groups.erase groupId }

def executeAll (db : Database) (statements : List Statement) : Option Database :=
  statements.foldlM execute db

/-- The outcome of a transaction: it may fail by itself, and fails with any of its
statements; then nothing of it is applied. -/
def commitTransaction (db : Database) (statements : List Statement) (driverOk : Bool) :
    Bool × Database :=
  match driverOk, db.executeAll statements with
  | true, some db' => (true, db')
  | _, _ => (false, db)

end Database

/-! ### Operations -/

/-- The parameters of a group's creation. -/
structure GroupCreation where
  kind : AgentGroupKind := .loose
  territoryMapId : UInt32 := 0
  territoryX : UInt32 := 0
  territoryY : UInt32 := 0
  territoryZ : UInt32 := 0
  resources : UInt32 := 0
  profileId : CoalitionFormationProfileId := .invalid

namespace GroupCreation

/-- The row that a creation inserts; the table's default fills in the version. -/
def row (c : GroupCreation) : GroupRow where
  kind := c.kind.toUInt8
  territoryMapId := c.territoryMapId
  territoryX := c.territoryX
  territoryY := c.territoryY
  territoryZ := c.territoryZ
  resources := c.resources
  profileId := c.profileId.value

/-- The record that its completion registers. -/
def record (c : GroupCreation) (newId : UInt64) : AgentGroupRecord where
  id := newId
  kind := c.kind
  profileId := c.profileId
  territoryMapId := c.territoryMapId
  territoryX := c.territoryX
  territoryY := c.territoryY
  territoryZ := c.territoryZ
  resources := c.resources
  version := 0

end GroupCreation

/-- An accepted request, with what its completion captures. -/
inductive Operation where
  | create (newId : UInt64) (creation : GroupCreation)
  | join (groupId memberId joinedAtMs : UInt64)
  | leave (groupId memberId : UInt64)
  | dissolve (groupId : UInt64)

namespace Operation

def groupId : Operation → UInt64
  | create newId _ => newId
  | join groupId _ _ | leave groupId _ | dissolve groupId => groupId

/-- The statements of the transaction that each request submits. -/
def transaction : Operation → List Statement
  | create newId creation =>
    [.updAiAgentGroupIdSequence (newId + 1), .insAiAgentGroup newId creation.row]
  | join groupId memberId joinedAtMs =>
    [.insAiAgentGroupMember ⟨groupId, memberId, joinedAtMs⟩]
  | leave groupId memberId => [.delAiAgentGroupMember groupId memberId]
  | dissolve groupId => [.delAiAgentGroupMembersByGroup groupId, .delAiAgentGroup groupId]

/-- The registry call of the completion of each request. -/
def registryOp : Operation → RegistryOp
  | create newId creation => .add (creation.record newId)
  | join groupId memberId joinedAtMs => .addMember groupId ⟨memberId, joinedAtMs⟩
  | leave groupId memberId => .removeMember groupId memberId
  | dissolve groupId => .remove groupId

end Operation

/-! ### Contents -/

/-- What is stored of one group: its row, if it has one, and its members. -/
@[ext]
structure GroupContent where
  row : Option GroupRow := none
  members : List AgentGroupMembership := []

namespace GroupContent

def memberIds (c : GroupContent) : List UInt64 := c.members.map AgentGroupMembership.member

/-- A group without a row has no members. -/
def NoOrphans (c : GroupContent) : Prop := c.row = none → c.members = []

end GroupContent

namespace Operation

/-- What an operation makes of the content of its group. -/
def apply : Operation → GroupContent → GroupContent
  | create _ creation, c => { c with row := some creation.row }
  | join _ memberId joinedAtMs, c => { c with members := c.members ++ [⟨memberId, joinedAtMs⟩] }
  | leave _ memberId, c =>
    { c with members := c.members.filter fun membership => membership.member ≠ memberId }
  | dissolve _, _ => {}

/-- The contents on which an operation makes sense. -/
def Allowed : Operation → GroupContent → Prop
  | create newId _, c => newId ≠ 0 ∧ c = {}
  | join _ memberId _, c => c.row ≠ none ∧ memberId ∉ c.memberIds
  | leave _ memberId, c => c.row ≠ none ∧ memberId ∈ c.memberIds
  | dissolve _, c => c.row ≠ none

/-- The operations as changes of keyed contents. -/
def ops : WriteThrough.Ops UInt64 GroupContent Operation := ⟨groupId, Allowed, apply⟩

theorem apply_noOrphans (op : Operation) (c : GroupContent) (h : op.Allowed c) :
    (op.apply c).NoOrphans := by
  cases op with
  | create => exact fun hrow => by contradiction
  | join => exact fun hrow => absurd hrow h.1
  | leave => exact fun hrow => absurd hrow h.1
  | dissolve => exact fun _ => rfl

end Operation

/-! ### The content of the tables -/

def GroupMemberRow.membership (row : GroupMemberRow) : AgentGroupMembership :=
  ⟨row.memberAgentId, row.joinedAtMs⟩

namespace Database

/-- What the tables hold of a group. -/
def content (db : Database) (groupId : UInt64) : GroupContent where
  row := db.groups[groupId]?
  members := (db.groupMembers.filter fun row => row.groupId = groupId).map GroupMemberRow.membership

variable {db db' : Database}

theorem content_insAiAgentGroup {groupId : UInt64} {row : GroupRow}
    (h : db.execute (.insAiAgentGroup groupId row) = some db') :
    db'.content = Function.update db.content groupId
      { db.content groupId with row := some row } := by
  rw [execute] at h
  split_ifs at h
  cases h
  funext k
  rw [Function.update_apply]
  split_ifs with hk
  · subst hk
    simp [content]
  · simp [content, OrdMap.getElem?_insert_ne _ _ (Ne.symm hk)]

theorem content_insAiAgentGroupMember {row : GroupMemberRow}
    (h : db.execute (.insAiAgentGroupMember row) = some db') :
    db'.content = Function.update db.content row.groupId
      { db.content row.groupId with
        members := (db.content row.groupId).members ++ [row.membership] } := by
  rw [execute] at h
  split_ifs at h
  cases h
  funext k
  rw [Function.update_apply]
  split_ifs with hk
  · subst hk
    simp [content]
  · simp [content, List.filter_append, Ne.symm hk]

/-- Rows of one group, after some rows were taken out. -/
theorem members_filter (rows : List GroupMemberRow) (p : GroupMemberRow → Bool)
    (keep : AgentGroupMembership → Bool) (k : UInt64)
    (h : ∀ row, row.groupId = k → p row = keep row.membership) :
    ((rows.filter p).filter fun row => row.groupId = k).map GroupMemberRow.membership =
      ((rows.filter fun row => row.groupId = k).map GroupMemberRow.membership).filter keep := by
  rw [List.filter_map, List.filter_filter, List.filter_filter]
  congr 1
  refine List.filter_congr fun row _ => ?_
  by_cases hk : row.groupId = k
  · simp [hk, h row hk]
  · simp [hk]

theorem content_delAiAgentGroupMember {groupId memberAgentId : UInt64}
    (h : db.execute (.delAiAgentGroupMember groupId memberAgentId) = some db') :
    db'.content = Function.update db.content groupId
      { db.content groupId with
        members := (db.content groupId).members.filter fun m => m.member ≠ memberAgentId } := by
  cases h
  funext k
  rw [Function.update_apply]
  split_ifs with hk
  · subst hk
    ext1
    · rfl
    · refine members_filter _ _ _ _ fun row hrow => ?_
      exact decide_eq_decide.mpr (by simp [hrow, GroupMemberRow.membership])
  · ext1
    · rfl
    · refine (members_filter _ _ (fun _ => true) _ fun row hrow => ?_).trans (List.filter_true _)
      have hne : row.groupId ≠ groupId := hrow ▸ hk
      simp [hne]

theorem content_delAiAgentGroupMembersByGroup {groupId : UInt64}
    (h : db.execute (.delAiAgentGroupMembersByGroup groupId) = some db') :
    db'.content = Function.update db.content groupId { db.content groupId with members := [] } := by
  cases h
  funext k
  rw [Function.update_apply]
  split_ifs with hk
  · subst hk
    ext1
    · rfl
    · refine (members_filter _ _ (fun _ => false) _ fun row hrow => ?_).trans (List.filter_false _)
      simp [hrow]
  · ext1
    · rfl
    · refine (members_filter _ _ (fun _ => true) _ fun row hrow => ?_).trans (List.filter_true _)
      have hne : row.groupId ≠ groupId := hrow ▸ hk
      simp [hne]

theorem content_delAiAgentGroup {groupId : UInt64}
    (h : db.execute (.delAiAgentGroup groupId) = some db') :
    db'.content = Function.update db.content groupId { db.content groupId with row := none } := by
  cases h
  funext k
  rw [Function.update_apply]
  split_ifs with hk
  · subst hk
    simp [content]
  · simp [content, OrdMap.getElem?_erase, Ne.symm hk]

theorem executeAll_cons {statement : Statement} {statements : List Statement}
    (h : db.executeAll (statement :: statements) = some db') :
    ∃ db₁, db.execute statement = some db₁ ∧ db₁.executeAll statements = some db' :=
  Option.bind_eq_some_iff.mp h

theorem executeAll_singleton {statement : Statement} (h : db.executeAll [statement] = some db') :
    db.execute statement = some db' := by
  obtain ⟨db₁, h₁, h⟩ := executeAll_cons h
  cases h
  exact h₁

/-- An applied transaction makes its operation's change. -/
theorem content_executeAll {op : Operation} (h : db.executeAll op.transaction = some db') :
    db'.content = Function.update db.content op.groupId (op.apply (db.content op.groupId)) := by
  cases op with
  | create newId creation =>
    obtain ⟨db₁, h₁, h⟩ := executeAll_cons h
    cases h₁
    have hrow := content_insAiAgentGroup (executeAll_singleton h)
    exact hrow
  | join groupId memberId joinedAtMs =>
    exact content_insAiAgentGroupMember (executeAll_singleton h)
  | leave groupId memberId => exact content_delAiAgentGroupMember (executeAll_singleton h)
  | dissolve groupId =>
    obtain ⟨db₁, h₁, h⟩ := executeAll_cons h
    have hmembers := content_delAiAgentGroupMembersByGroup h₁
    have hgroup := content_delAiAgentGroup (executeAll_singleton h)
    rw [hgroup, hmembers, Function.update_self, Function.update_idem]
    rfl

end Database

/-! ### The content of the registry -/

def GroupRow.ofRecord (record : AgentGroupRecord) : GroupRow where
  kind := record.kind.toUInt8
  territoryMapId := record.territoryMapId
  territoryX := record.territoryX
  territoryY := record.territoryY
  territoryZ := record.territoryZ
  resources := record.resources
  version := record.version
  profileId := record.profileId.value

def AgentGroupRecord.content (record : AgentGroupRecord) : GroupContent :=
  ⟨some (GroupRow.ofRecord record), record.members⟩

namespace AgentGroupRegistry

/-- What the registry holds of a group. -/
def content (r : AgentGroupRegistry) (groupId : UInt64) : GroupContent :=
  match r.groups[groupId]? with
  | none => {}
  | some record => record.content

variable {r : AgentGroupRegistry} {groupId : UInt64} {record : AgentGroupRecord}

theorem content_eq_empty : r.content groupId = {} ↔ r.groups[groupId]? = none := by
  unfold content
  cases r.groups[groupId]? with
  | none => simp
  | some record => simp [AgentGroupRecord.content]

theorem content_of_some (h : r.groups[groupId]? = some record) :
    r.content groupId = record.content := by
  rw [content, h]

theorem exists_of_row (h : (r.content groupId).row ≠ none) :
    ∃ record, r.groups[groupId]? = some record := by
  unfold content at h
  cases hg : r.groups[groupId]? with
  | none =>
    rw [hg] at h
    exact absurd rfl h
  | some record => exact ⟨record, rfl⟩

theorem content_noOrphans (r : AgentGroupRegistry) (groupId : UInt64) :
    (r.content groupId).NoOrphans := by
  unfold content
  cases r.groups[groupId]? with
  | none => exact fun _ => rfl
  | some record => exact fun h => by contradiction

theorem content_insert (groups : ExtTreeMap UInt64 AgentGroupRecord)
    (index index' : ExtTreeMap UInt64 (List UInt64)) (groupId : UInt64)
    (record : AgentGroupRecord) :
    content ⟨groups.insert groupId record, index'⟩ =
      Function.update (content ⟨groups, index⟩) groupId record.content := by
  funext k
  rw [Function.update_apply, content, OrdMap.getElem?_insert]
  split_ifs with hk hk' hk'
  · rfl
  · exact absurd hk.symm hk'
  · exact absurd hk'.symm hk
  · rfl

theorem content_erase (groups : ExtTreeMap UInt64 AgentGroupRecord)
    (index index' : ExtTreeMap UInt64 (List UInt64)) (groupId : UInt64) :
    content ⟨groups.erase groupId, index'⟩ =
      Function.update (content ⟨groups, index⟩) groupId {} := by
  funext k
  rw [Function.update_apply, content, OrdMap.getElem?_erase]
  split_ifs with hk hk' hk'
  · rfl
  · exact absurd hk.symm hk'
  · exact absurd hk'.symm hk
  · rfl

end AgentGroupRegistry

theorem eraseP_eq_filter {members : List AgentGroupMembership} {member : UInt64}
    (h : (members.map AgentGroupMembership.member).Nodup) :
    (members.eraseP fun membership => membership.member = member) =
      members.filter fun membership => membership.member ≠ member := by
  induction members with
  | nil => rfl
  | cons m ms ih =>
    obtain ⟨hm, hms⟩ := List.nodup_cons.mp h
    by_cases hmember : m.member = member
    · rw [List.eraseP_cons_of_pos (by simpa using hmember),
        List.filter_cons_of_neg (by simpa using hmember)]
      refine (List.filter_eq_self.mpr fun m' hm' => ?_).symm
      have hne : m'.member ≠ member := fun he =>
        hm (hmember.trans he.symm ▸ List.mem_map_of_mem hm')
      simpa using hne
    · rw [List.eraseP_cons_of_neg (by simpa using hmember), ih hms,
        List.filter_cons_of_pos (by simpa using hmember)]

open AgentGroupRegistry in
/-- An allowed operation succeeds on the registry and makes the same change there. -/
theorem content_registryOp {r : AgentGroupRegistry} (h : Linked r) {op : Operation}
    (hop : op.Allowed (r.content op.groupId)) :
    (r.step op.registryOp).1 = true ∧ (r.step op.registryOp).2.content =
      Function.update r.content op.groupId (op.apply (r.content op.groupId)) := by
  cases op with
  | create newId creation =>
    simp only [Operation.groupId, Operation.registryOp, step] at hop ⊢
    have hadd : r.add (creation.record newId) = (true, r.put (creation.record newId)) :=
      add_new hop.1 (content_eq_empty.mp hop.2)
    rw [hadd, hop.2]
    exact ⟨rfl, content_insert r.groups r.memberGroups _ newId _⟩
  | join groupId memberId joinedAtMs =>
    simp only [Operation.groupId, Operation.registryOp, step] at hop ⊢
    obtain ⟨group, hgroup⟩ := exists_of_row hop.1
    rw [content_of_some hgroup] at hop ⊢
    have hadd : r.addMember groupId ⟨memberId, joinedAtMs⟩ =
        (true, r.join groupId group ⟨memberId, joinedAtMs⟩) := addMember_new hgroup hop.2
    rw [hadd]
    exact ⟨rfl, content_insert r.groups r.memberGroups _ groupId _⟩
  | leave groupId memberId =>
    simp only [Operation.groupId, Operation.registryOp, step] at hop ⊢
    obtain ⟨group, hgroup⟩ := exists_of_row hop.1
    rw [content_of_some hgroup] at hop ⊢
    rw [removeMember_old hgroup hop.2]
    refine ⟨rfl, (content_insert r.groups r.memberGroups _ groupId _).trans ?_⟩
    rw [eraseP_eq_filter (h.nodup groupId group hgroup)]
    rfl
  | dissolve groupId =>
    simp only [Operation.groupId, Operation.registryOp, step] at hop ⊢
    obtain ⟨group, hgroup⟩ := exists_of_row hop
    rw [remove_some hgroup]
    exact ⟨rfl, content_erase r.groups r.memberGroups _ groupId⟩

end AIWorld.Groups
