import AIWorld.Groups.Lifecycle

/-! The registry follows the tables. The tables are the primary copy of every group's
content and the registry is the mirror; each request, end of a transaction and
completion is a step of that pair of copies. From this come the agreement of the
two, one operation at a time on each group, one answer for each request and one
use of each id. -/

namespace AIWorld.Groups

open Std (ExtTreeMap ExtTreeSet)
open Lib AgentGroupRegistry

/-- The operations that mark their group. -/
def Operation.Serialized : Operation → Prop
  | create _ _ => False
  | join _ _ _ | leave _ _ | dissolve _ => True

/-- Only a creation is allowed without a row. -/
theorem Operation.Serialized.row_ne_none {op : Operation} {c : GroupContent} (h : op.Serialized)
    (hop : op.Allowed c) : c.row ≠ none := by
  cases op with
  | create => contradiction
  | join => exact hop.1
  | leave => exact hop.1
  | dissolve => exact hop

namespace LifecycleState

/-- The tables and the registry as a primary copy and its mirror. -/
def copies (s : LifecycleState) : WriteThrough.State UInt64 GroupContent Operation where
  primary := s.database.content
  mirror := s.registry.content
  inFlight n := (s.pending[n]?).map fun t => (t.operation, t.outcome)

/-- Take the mark of a completed operation from its group. -/
def freed (s : LifecycleState) (op : Operation) : LifecycleState :=
  { s with pendingGroupOperations :=
      match op with
      | .create _ _ => s.pendingGroupOperations
      | .join groupId _ _ | .leave groupId _ | .dissolve groupId =>
        s.pendingGroupOperations.erase groupId }

/-- What one step does. -/
inductive Effect (s : LifecycleState) : Input → Signal → LifecycleState → Prop
  | rejected {i : Input} {a : Answer} : Effect s i (s.answer a).1 (s.answer a).2
  | created {creation : GroupCreation} (hvalid : s.groupIdAllocatorValid = true)
      (hmax : s.nextGroupId ≠ 0xFFFFFFFFFFFFFFFF) :
      Effect s (.requestCreate creation) (.submitted s.nextRequest (.create s.nextGroupId creation))
        ({ s with nextGroupId := s.nextGroupId + 1 }.submit (.create s.nextGroupId creation)).2
  | requested {i : Input} {op : Operation} (hserial : op.Serialized)
      (hfree : op.groupId ∉ s.pendingGroupOperations)
      (hallowed : op.Allowed (s.registry.content op.groupId)) :
      Effect s i (.submitted s.nextRequest op) ((s.reserve op.groupId).submit op).2
  | ended {n : ℕ} {driverOk success : Bool} {op : Operation} {database : Database}
      (hop : s.pending[n]? = some { operation := op })
      (hdb : s.database.commitTransaction op.transaction driverOk = (success, database)) :
      Effect s (.transactionEnds n driverOk) (.settled n success)
        { s with database, pending := s.pending.insert n { operation := op, outcome := some success } }
  | completed {n : ℕ} {success : Bool} {op : Operation}
      (hop : s.pending[n]? = some { operation := op, outcome := some success }) :
      Effect s (.callback n)
        (.answered n ({ s with pending := s.pending.erase n }.complete success op).1)
        ({ s with pending := s.pending.erase n }.complete success op).2

variable {s s' : LifecycleState} {i : Input} {o : Signal}

/-- A completion takes the mark away and, after a success, calls the registry. -/
theorem complete_eq (s : LifecycleState) (success : Bool) (op : Operation) :
    (s.complete success op).2 = { s.freed op with
      registry := if success = true then (s.registry.step op.registryOp).2 else s.registry } := by
  cases success with
  | false => cases op <;> rfl
  | true =>
    rw [if_pos rfl]
    cases op with
    | create newId creation =>
      simp only [complete, completeCreate, freed, Operation.registryOp, AgentGroupRegistry.step]
      rw [if_neg (by decide)]
      rcases s.registry.add (creation.record newId) with ⟨_ | _, registry⟩ <;> rfl
    | join groupId memberId joinedAtMs =>
      simp only [complete, completeJoin, freed, Operation.registryOp, AgentGroupRegistry.step,
        release]
      rw [if_neg (by decide)]
      rcases s.registry.addMember groupId ⟨memberId, joinedAtMs⟩ with ⟨_ | _, registry⟩ <;> rfl
    | leave groupId memberId => rfl
    | dissolve groupId => rfl

theorem mem_memberIds_content {group : AgentGroupRecord} {groupId member : UInt64}
    (h : s.registry.find groupId = some group) :
    (group.members.any fun membership => membership.member = member) = true ↔
      member ∈ (s.registry.content groupId).memberIds := by
  rw [any_member_iff, content_of_some h]
  rfl

theorem row_ne_none {group : AgentGroupRecord} {groupId : UInt64}
    (h : s.registry.find groupId = some group) : (s.registry.content groupId).row ≠ none := by
  rw [content_of_some h]
  exact Option.some_ne_none _

/-- A step that always answers, as an effect. -/
theorem effect_of_eq {p : Signal × LifecycleState} (hp : Effect s i p.1 p.2)
    (hstep : some p = some (o, s')) : Effect s i o s' := by
  cases hstep
  exact hp

theorem create_effect (s : LifecycleState) (creation : GroupCreation) :
    Effect s (.requestCreate creation) (s.requestCreateGroup creation).1
      (s.requestCreateGroup creation).2 := by
  unfold requestCreateGroup createGroupAsync
  split_ifs with hprofile hvalid hmax
  · exact .rejected
  · exact .rejected
  · exact .rejected
  · exact .created (by simpa using hvalid) hmax

theorem join_effect (s : LifecycleState) (groupId memberId joinedAtMs : UInt64)
    (agentRegistry : AgentRegistry) :
    Effect s (.requestJoin groupId memberId joinedAtMs agentRegistry)
      (s.requestJoinGroup groupId memberId joinedAtMs agentRegistry).1
      (s.requestJoinGroup groupId memberId joinedAtMs agentRegistry).2 := by
  unfold requestJoinGroup
  cases hgroup : s.registry.find groupId with
  | none => exact .rejected
  | some group =>
    cases hagent : agentRegistry.find memberId with
    | none =>
      simp only
      split_ifs <;> exact .rejected
    | some joiningMember =>
      simp only
      split_ifs with hpending hmember hfaction
      · exact .rejected
      · exact .rejected
      · exact .rejected
      · have hop : (Operation.join groupId memberId joinedAtMs).Allowed (s.registry.content groupId) :=
          ⟨row_ne_none hgroup, fun hmem => hmember ((mem_memberIds_content hgroup).mpr hmem)⟩
        exact .requested trivial hpending hop

theorem leave_effect (s : LifecycleState) (groupId memberId : UInt64) :
    Effect s (.requestLeave groupId memberId) (s.requestLeaveGroup groupId memberId).1
      (s.requestLeaveGroup groupId memberId).2 := by
  unfold requestLeaveGroup
  cases hgroup : s.registry.find groupId with
  | none => exact .rejected
  | some group =>
    simp only
    split_ifs with hpending hmember
    · exact .rejected
    · have hop : (Operation.leave groupId memberId).Allowed (s.registry.content groupId) :=
        ⟨row_ne_none hgroup, (mem_memberIds_content hgroup).mp hmember⟩
      exact .requested trivial hpending hop
    · exact .rejected

theorem dissolve_effect (s : LifecycleState) (groupId : UInt64) :
    Effect s (.requestDissolve groupId) (s.requestDissolveGroup groupId).1
      (s.requestDissolveGroup groupId).2 := by
  unfold requestDissolveGroup
  cases hgroup : s.registry.find groupId with
  | none => exact .rejected
  | some group =>
    simp only
    split_ifs with hpending
    · exact .rejected
    · have hop : (Operation.dissolve groupId).Allowed (s.registry.content groupId) :=
        row_ne_none hgroup
      exact .requested trivial hpending hop

theorem step_effect (hstep : machine.step s i = some (o, s')) : Effect s i o s' := by
  cases i with
  | requestCreate creation => exact effect_of_eq (create_effect s creation) hstep
  | requestJoin groupId memberId joinedAtMs agentRegistry =>
    exact effect_of_eq (join_effect s groupId memberId joinedAtMs agentRegistry) hstep
  | requestLeave groupId memberId => exact effect_of_eq (leave_effect s groupId memberId) hstep
  | requestDissolve groupId => exact effect_of_eq (dissolve_effect s groupId) hstep
  | transactionEnds request driverOk =>
    simp only [machine, step, transactionEnds] at hstep
    split at hstep
    next op hop =>
      cases hstep
      exact .ended hop rfl
    · contradiction
  | callback request =>
    simp only [machine, step, callback] at hstep
    split at hstep
    next op success hop =>
      cases hstep
      exact .completed hop
    · contradiction

/-! ### The invariant -/

/-- What holds of every reached state. -/
structure Inv (s : LifecycleState) : Prop where
  linked : Linked s.registry
  mirror : WriteThrough.Inv Operation.ops s.copies
  marked : ∀ groupId, groupId ∈ s.pendingGroupOperations ↔ ∃ (n : ℕ) (t : Transaction),
    s.pending[n]? = some t ∧ t.operation.Serialized ∧ t.operation.groupId = groupId
  issued : ∀ (n : ℕ) (t : Transaction), s.pending[n]? = some t → n < s.nextRequest
  minted : ∀ (n : ℕ) (t : Transaction) newId creation, s.pending[n]? = some t →
    t.operation = .create newId creation → newId < s.nextGroupId
  fresh : s.groupIdAllocatorValid = true → 0 < s.nextGroupId ∧
    ∀ (groupId : UInt64) (record : AgentGroupRecord), s.registry.groups[groupId]? = some record →
      groupId < s.nextGroupId

/-- Giving a request's ticket an entry. -/
theorem copies_insert (s : LifecycleState) (n : ℕ) (t : Transaction) :
    { s with pending := s.pending.insert n t }.copies =
      s.copies.track n (some (t.operation, t.outcome)) := by
  ext1
  · rfl
  · rfl
  · funext m
    simp only [copies, WriteThrough.State.track, Function.update_apply, OrdMap.getElem?_insert]
    split_ifs with h h' h' <;> simp_all

theorem copies_erase (s : LifecycleState) (n : ℕ) :
    { s with pending := s.pending.erase n }.copies = s.copies.track n none := by
  ext1
  · rfl
  · rfl
  · funext m
    simp only [copies, WriteThrough.State.track, Function.update_apply, OrdMap.getElem?_erase]
    split_ifs with h h' h' <;> simp_all

theorem inFlight_eq_some {n : ℕ} {op : Operation} {out : Option Bool} :
    s.copies.inFlight n = some (op, out) ↔ s.pending[n]? = some { operation := op, outcome := out } := by
  simp only [copies]
  cases s.pending[n]? with
  | none => simp
  | some t =>
    obtain ⟨op', out'⟩ := t
    simp

theorem Inv.new_ticket (h : Inv s) : s.copies.inFlight s.nextRequest = none := by
  rw [copies, Option.map_eq_none_iff, Option.eq_none_iff_forall_ne_some]
  exact fun t ht => lt_irrefl _ (h.issued _ _ ht)

/-- The allocator is above every group of an operation in flight. -/
theorem Inv.inFlight_lt (h : Inv s) (hvalid : s.groupIdAllocatorValid = true) {n : ℕ}
    {op : Operation} {out : Option Bool} (hop : s.copies.inFlight n = some (op, out)) :
    op.groupId < s.nextGroupId := by
  have hrow := h.mirror.allowed n op out hop
  cases op with
  | create newId creation => exact h.minted n _ newId creation (inFlight_eq_some.mp hop) rfl
  | join | leave =>
    obtain ⟨record, hrecord⟩ := exists_of_row hrow.1
    exact (h.fresh hvalid).2 _ record hrecord
  | dissolve =>
    obtain ⟨record, hrecord⟩ := exists_of_row hrow
    exact (h.fresh hvalid).2 _ record hrecord

theorem commitTransaction_cases {db db' : Database} {statements : List Statement}
    {driverOk success : Bool} (h : db.commitTransaction statements driverOk = (success, db')) :
    success = true ∧ db.executeAll statements = some db' ∨ success = false ∧ db' = db := by
  unfold Database.commitTransaction at h
  split at h
  next hdb =>
    cases h
    exact .inl ⟨rfl, hdb⟩
  next =>
    cases h
    exact .inr ⟨rfl, rfl⟩

/-- The content of the tables after a committed transaction. -/
theorem copies_commit {op : Operation} {database : Database}
    (h : s.database.executeAll op.transaction = some database) :
    { s with database }.copies = s.copies.commit Operation.ops op := by
  ext1
  · exact Database.content_executeAll h
  · rfl
  · rfl

/-- The content of the registry after an operation's call. -/
theorem copies_follow (h : Linked s.registry) {op : Operation}
    (hop : op.Allowed (s.registry.content op.groupId)) :
    { s with registry := (s.registry.step op.registryOp).2 }.copies =
      s.copies.follow Operation.ops op := by
  ext1
  · rfl
  · exact (content_registryOp h hop).2
  · rfl

/-- A step is a step of the two copies. -/
theorem Effect.simulates (he : Effect s i o s') (h : Inv s) :
    WriteThrough.Step Operation.ops s.copies s'.copies := by
  cases he with
  | rejected => exact .idle
  | @created creation hvalid hmax =>
    have hcopies := copies_insert s s.nextRequest { operation := .create s.nextGroupId creation }
    refine (congrArg (WriteThrough.Step _ _) hcopies).mpr (.submit h.new_ticket ?_ ?_)
    · intro m op' out hop' hkey
      have hlt := h.inFlight_lt hvalid hop'
      have hkey : op'.groupId = s.nextGroupId := hkey
      exact absurd hlt (hkey ▸ UInt64.lt_irrefl _)
    · obtain ⟨hpos, hlt⟩ := h.fresh hvalid
      refine ⟨(UInt64.pos_iff_ne_zero).mp hpos, content_eq_empty.mpr ?_⟩
      rw [Option.eq_none_iff_forall_ne_some]
      exact fun record hrecord => UInt64.lt_irrefl _ (hlt _ record hrecord)
  | @requested _ op hserial hfree hallowed =>
    have hcopies := copies_insert s s.nextRequest { operation := op }
    refine (congrArg (WriteThrough.Step _ _) hcopies).mpr (.submit h.new_ticket ?_ hallowed)
    intro m op' out hop' hkey
    have hkey : op'.groupId = op.groupId := hkey
    have hallowed' := h.mirror.allowed m op' out hop'
    cases op' with
    | create newId creation =>
      -- the group of a creation is not registered yet
      refine Operation.Serialized.row_ne_none hserial hallowed ?_
      rw [← hkey]
      exact congrArg GroupContent.row hallowed'.2
    | join | leave | dissolve =>
      exact hfree ((h.marked _).mpr ⟨m, _, inFlight_eq_some.mp hop', trivial, hkey⟩)
  | @ended n driverOk success op database hop hdb =>
    have hentry := inFlight_eq_some.mpr hop
    have hcopies := copies_insert { s with database } n { operation := op, outcome := some success }
    refine (congrArg (WriteThrough.Step _ _) hcopies).mpr ?_
    rcases commitTransaction_cases hdb with ⟨rfl, hall⟩ | ⟨rfl, rfl⟩
    · rw [copies_commit hall]
      exact .commit hentry
    · exact .abort hentry
  | @completed n success op hop =>
    have hentry := inFlight_eq_some.mpr hop
    have herase := copies_erase s n
    cases success with
    | false =>
      refine (congrArg (WriteThrough.Step _ _) ?_).mpr (.forget hentry)
      rw [complete_eq]
      exact herase
    | true =>
      have hfollow := copies_follow h.linked (h.mirror.allowed n op _ hentry)
      refine (congrArg (WriteThrough.Step _ _) ?_).mpr (.finish hentry)
      rw [complete_eq, ← hfollow]
      exact copies_erase { s with registry := (s.registry.step op.registryOp).2 } n

/-! ### Steps keep the invariant -/

theorem Effect.linked (he : Effect s i o s') (h : Inv s) : Linked s'.registry := by
  cases he with
  | rejected | created | requested | ended => exact h.linked
  | @completed n success op hop =>
    rw [complete_eq]
    cases success with
    | false => exact h.linked
    | true =>
      refine (Groups.step_effect s.registry op.registryOp).linked h.linked ?_
      cases op with
      | create => exact fun _ _ => List.nodup_nil
      | join | leave | dissolve => trivial

theorem Effect.issued (he : Effect s i o s') (h : Inv s) (n : ℕ) (t : Transaction)
    (hn : s'.pending[n]? = some t) : n < s'.nextRequest := by
  cases he with
  | rejected => exact Nat.lt_succ_of_lt (h.issued n t hn)
  | created | requested =>
    exact OrdMap.forall_insert (P := fun k _ => k < s.nextRequest + 1) (Nat.lt_succ_self _)
      (fun k v _ hk => Nat.lt_succ_of_lt (h.issued k v hk)) n t hn
  | ended hop =>
    exact OrdMap.forall_insert (P := fun k _ => k < s.nextRequest) (h.issued _ _ hop)
      (fun k v _ hk => h.issued k v hk) n t hn
  | completed =>
    rw [complete_eq] at hn ⊢
    refine h.issued n t ?_
    change (s.pending.erase _)[n]? = some t at hn
    rw [OrdMap.getElem?_erase] at hn
    split_ifs at hn
    exact hn

/-- The next id of an allocator that has not run out. -/
theorem lt_add_one {n : UInt64} (h : n ≠ 0xFFFFFFFFFFFFFFFF) : n < n + 1 := by
  rw [UInt64.lt_iff_toNat_lt, UInt64.toNat_add]
  have hn := n.toNat_lt
  have hne : n.toNat ≠ 0xFFFFFFFFFFFFFFFF := fun he => h (UInt64.toNat_inj.mp he)
  simp only [UInt64.toNat_one]
  omega

theorem Effect.minted (he : Effect s i o s') (h : Inv s) (n : ℕ) (t : Transaction)
    (newId : UInt64) (creation : GroupCreation) (hn : s'.pending[n]? = some t)
    (ht : t.operation = .create newId creation) : newId < s'.nextGroupId := by
  cases he with
  | rejected => exact h.minted n t newId creation hn ht
  | @created _ _ hmax =>
    have hlt := lt_add_one hmax
    refine OrdMap.forall_insert (P := fun _ t => t.operation = .create newId creation →
      newId < s.nextGroupId + 1) ?_ (fun k v _ hk hv => ?_) n t hn ht
    · intro hnew
      cases hnew
      exact hlt
    · exact UInt64.lt_trans (h.minted k v newId creation hk hv) hlt
  | requested hserial =>
    refine OrdMap.forall_insert (P := fun _ t => t.operation = .create newId creation →
      newId < s.nextGroupId) ?_ (fun k v _ hk => h.minted k v newId creation hk) n t hn ht
    rintro rfl
    contradiction
  | ended hop =>
    exact OrdMap.forall_insert (P := fun _ t => t.operation = .create newId creation →
      newId < s.nextGroupId) (h.minted _ _ newId creation hop)
      (fun k v _ hk => h.minted k v newId creation hk) n t hn ht
  | completed =>
    rw [complete_eq] at hn ⊢
    refine h.minted n t newId creation ?_ ht
    change (s.pending.erase _)[n]? = some t at hn
    rw [OrdMap.getElem?_erase] at hn
    split_ifs at hn
    exact hn

theorem Effect.fresh (he : Effect s i o s') (h : Inv s) (hvalid : s'.groupIdAllocatorValid = true) :
    0 < s'.nextGroupId ∧ ∀ (groupId : UInt64) (record : AgentGroupRecord),
      s'.registry.groups[groupId]? = some record → groupId < s'.nextGroupId := by
  cases he with
  | rejected | requested | ended => exact h.fresh hvalid
  | @created _ _ hmax =>
    have hlt := lt_add_one hmax
    obtain ⟨hpos, hold⟩ := h.fresh hvalid
    exact ⟨UInt64.lt_trans hpos hlt, fun groupId record hrecord =>
      UInt64.lt_trans (hold groupId record hrecord) hlt⟩
  | @completed n success op hop =>
    rw [complete_eq] at hvalid ⊢
    obtain ⟨hpos, hold⟩ := h.fresh hvalid
    refine ⟨hpos, fun groupId record hrecord => ?_⟩
    cases success with
    | false => exact hold groupId record hrecord
    | true =>
      rcases (Groups.step_effect s.registry op.registryOp).group_before hrecord with
        ⟨old, hold'⟩ | ⟨hadd, rfl⟩
      · exact hold groupId old hold'
      · cases op with
        | create newId creation =>
          cases hadd
          exact h.minted n _ newId creation hop rfl
        | join | leave | dissolve => contradiction

theorem Inv.pending_next (h : Inv s) : s.pending[s.nextRequest]? = none :=
  Option.map_eq_none_iff.mp h.new_ticket

theorem Effect.marked (he : Effect s i o s') (h : Inv s) (groupId : UInt64) :
    groupId ∈ s'.pendingGroupOperations ↔ ∃ (n : ℕ) (t : Transaction),
      s'.pending[n]? = some t ∧ t.operation.Serialized ∧ t.operation.groupId = groupId := by
  cases he with
  | rejected => exact h.marked groupId
  | created =>
    refine (h.marked groupId).trans ((OrdMap.exists_ne h.pending_next).trans ?_)
    refine Iff.trans ?_ OrdMap.exists_insert.symm
    exact (or_iff_right fun hnew => hnew.1).symm
  | @requested _ op hserial =>
    refine Iff.trans ?_ OrdMap.exists_insert.symm
    refine Iff.trans ?_ (or_congr_right ((h.marked groupId).trans (OrdMap.exists_ne h.pending_next)))
    change groupId ∈ s.pendingGroupOperations.insert op.groupId ↔ _
    rw [ExtTreeSet.mem_insert, Std.LawfulEqCmp.compare_eq_iff_eq]
    exact or_congr_left (and_iff_right hserial).symm
  | @ended n _ success op _ hop =>
    refine (h.marked groupId).trans ((OrdMap.exists_split hop).trans ?_)
    have hnew : (∃ (k : ℕ) (t : Transaction),
        (s.pending.insert n { operation := op, outcome := some success })[k]? = some t ∧
          t.operation.Serialized ∧ t.operation.groupId = groupId) ↔ _ := OrdMap.exists_insert
    exact hnew.symm
  | @completed n success op hop =>
    rw [complete_eq]
    refine Iff.trans ?_ OrdMap.exists_erase.symm
    have hold := (h.marked groupId).trans (OrdMap.exists_split hop)
    -- no other operation in flight is on the same group
    have hother (k : ℕ) (t : Transaction) (hk : n ≠ k) (ht : s.pending[k]? = some t) :
        t.operation.groupId ≠ op.groupId :=
      h.mirror.key_ne (inFlight_eq_some.mpr hop) (inFlight_eq_some.mpr ht) hk.symm
    cases op with
    | create => exact hold.trans (or_iff_right fun hnew => hnew.1)
    | join g | leave g | dissolve g =>
      change groupId ∈ s.pendingGroupOperations.erase g ↔ _
      rw [ExtTreeSet.mem_erase, hold]
      constructor
      · rintro ⟨hne, ⟨-, hg⟩ | hrest⟩
        · exact absurd (Std.LawfulEqCmp.compare_eq_iff_eq.mpr hg) hne
        · exact hrest
      · rintro ⟨k, t, hk, ht, hserial, rfl⟩
        refine ⟨fun he => hother k t hk ht ?_, .inr ⟨k, t, hk, ht, hserial, rfl⟩⟩
        exact (Std.LawfulEqCmp.compare_eq_iff_eq.mp he).symm

theorem Effect.inv (he : Effect s i o s') (h : Inv s) : Inv s' where
  linked := he.linked h
  mirror := (he.simulates h).inv h.mirror
  marked := he.marked h
  issued := he.issued h
  minted := he.minted h
  fresh := he.fresh h

end LifecycleState

end AIWorld.Groups
