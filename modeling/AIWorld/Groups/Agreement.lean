import AIWorld.Groups.Startup

/-! Every run of the group lifecycle keeps the registry and the tables together. At most
one operation is in flight on a group, only the completion of a committed transaction
changes the registry, and a group with nothing in flight is the same in both. Each
request is answered once and each id is given out once. -/

namespace AIWorld.Groups

open Std (ExtTreeMap)
open Lib

/-- The request that a signal answers. -/
def Signal.answeredRequest : Signal → Option ℕ
  | .answered request _ => some request
  | .submitted _ _ | .settled _ _ => none

/-- The id that a signal takes from the allocator. -/
def Signal.mintedId : Signal → Option UInt64
  | .submitted _ (.create newId _) => some newId
  | _ => none

/-- An input that starts no new operation. -/
def Input.Settles : Input → Prop
  | .transactionEnds _ _ | .callback _ => True
  | _ => False

namespace LifecycleState

/-- The events of a run. -/
abbrev Trace := List (Event LifecycleState Input Signal)

/-- The requests answered in a run, in order. -/
def answeredRequests (tr : Trace) : List ℕ := tr.filterMap fun e => e.output.answeredRequest

/-- The ids given out in a run, in order. -/
def mintedIds (tr : Trace) : List UInt64 := tr.filterMap fun e => e.output.mintedId

variable {s s' : LifecycleState} {i : Input} {o : Signal} {tr : Trace}

theorem run_inv (hr : machine.Run s tr s') (h : s.Inv) : s'.Inv :=
  hr.invariant (P := Inv) (fun _ _ _ _ hs hstep => (step_effect hstep).inv hs) h

/-! ### Only a committed transaction reaches the registry -/

theorem Effect.registry_change (he : Effect s i o s') (hne : s'.registry ≠ s.registry) :
    ∃ n op, i = .callback n ∧ s.pending[n]? = some { operation := op, outcome := some true } := by
  cases he with
  | rejected | created | requested | ended => exact absurd rfl hne
  | @completed n success op hop =>
    cases success with
    | true => exact ⟨n, op, rfl, hop⟩
    | false =>
      rw [complete_eq] at hne
      exact absurd rfl hne

/-! ### One answer for each request -/

/-- One if a request waits for its completion. -/
def waiting (pending : ExtTreeMap ℕ Transaction) (n : ℕ) : ℕ := if pending[n]?.isSome then 1 else 0

/-- One if a request has been made. -/
def made (nextRequest n : ℕ) : ℕ := if n < nextRequest then 1 else 0

theorem waiting_insert (pending : ExtTreeMap ℕ Transaction) (n k : ℕ) (t : Transaction) :
    waiting (pending.insert n t) k = if n = k then 1 else waiting pending k := by
  unfold waiting
  rw [OrdMap.getElem?_insert]
  split_ifs <;> simp_all

theorem waiting_erase (pending : ExtTreeMap ℕ Transaction) (n k : ℕ) :
    waiting (pending.erase n) k = if n = k then 0 else waiting pending k := by
  unfold waiting
  rw [OrdMap.getElem?_erase]
  split_ifs <;> simp_all

theorem waiting_of_some {pending : ExtTreeMap ℕ Transaction} {n : ℕ} {t : Transaction}
    (h : pending[n]? = some t) : waiting pending n = 1 := by
  simp [waiting, h]

theorem made_succ (n k : ℕ) : made (n + 1) k = made n k + if n = k then 1 else 0 := by
  unfold made
  split_ifs <;> omega

/-- A new request is answered at once or waits. -/
theorem Effect.answers (he : Effect s i o s') (h : Inv s) (k : ℕ) :
    o.answeredRequest.toList.count k + waiting s'.pending k + made s.nextRequest k =
      waiting s.pending k + made s'.nextRequest k := by
  cases he with
  | rejected =>
    change [s.nextRequest].count k + waiting s.pending k + _ =
      waiting s.pending k + made (s.nextRequest + 1) k
    rw [made_succ, List.count_singleton]
    simp only [beq_iff_eq]
    omega
  | created | requested =>
    have hnew : s.nextRequest = k → waiting s.pending k = 0 := by
      rintro rfl
      simp [waiting, h.pending_next]
    change 0 + waiting (s.pending.insert s.nextRequest _) k + _ =
      waiting s.pending k + made (s.nextRequest + 1) k
    rw [made_succ, waiting_insert]
    split_ifs with hk
    · rw [hnew hk]
      omega
    · omega
  | @ended n _ success op _ hop =>
    change 0 + waiting (s.pending.insert n _) k + _ = waiting s.pending k + made s.nextRequest k
    rw [waiting_insert]
    split_ifs with hk
    · rw [← hk, waiting_of_some hop, Nat.zero_add]
    · rw [Nat.zero_add]
  | @completed n success op hop =>
    rw [complete_eq]
    change [n].count k + waiting (s.pending.erase n) k + _ =
      waiting s.pending k + made s.nextRequest k
    rw [waiting_erase, List.count_singleton]
    simp only [beq_iff_eq]
    split_ifs with hk
    · rw [← hk, waiting_of_some hop]
    · omega

theorem run_answers (hr : machine.Run s tr s') (h : Inv s) (k : ℕ) :
    (answeredRequests tr).count k + waiting s'.pending k +
        made s.nextRequest k = waiting s.pending k + made s'.nextRequest k := by
  induction hr with
  | nil => simp [answeredRequests]
  | @cons s m s' i o tr hstep _ ih =>
    have he := step_effect hstep
    have hfirst := he.answers h k
    have hrest := ih (he.inv h)
    have hcons : answeredRequests (⟨s, i, o, m⟩ :: tr) =
        o.answeredRequest.toList ++ answeredRequests tr := by
      unfold answeredRequests
      cases ho : o.answeredRequest <;> simp [ho]
    rw [hcons, List.count_append]
    omega

/-! ### Every request can be answered -/

theorem callback_step {n : ℕ} {op : Operation} {success : Bool}
    (hop : s.pending[n]? = some { operation := op, outcome := some success }) :
    machine.step s (.callback n) =
      some (.answered n ({ s with pending := s.pending.erase n }.complete success op).1,
        ({ s with pending := s.pending.erase n }.complete success op).2) := by
  simp only [machine, step, callback, hop]

/-- The database ends a waiting transaction and its callback runs. -/
theorem exists_completion {n : ℕ} {t : Transaction} (hop : s.pending[n]? = some t) :
    ∃ tr s', machine.Run s tr s' ∧ (∀ e ∈ tr, e.input.Settles) ∧
      s'.pending = s.pending.erase n := by
  obtain ⟨op, _ | success⟩ := t
  · have hend : ∃ o m, machine.step s (.transactionEnds n true) = some (o, m) ∧
        ∃ success, m.pending = s.pending.insert n { operation := op, outcome := some success } := by
      simp only [machine, step, transactionEnds, hop]
      exact ⟨_, _, rfl, _, rfl⟩
    obtain ⟨o, m, hstep, success, hm⟩ := hend
    have hready : m.pending[n]? = some { operation := op, outcome := some success } := by
      rw [hm, OrdMap.getElem?_insert, if_pos rfl]
    refine ⟨_, _, .cons hstep (.cons (callback_step hready) (.nil _)), ?_, ?_⟩
    · simp [Input.Settles]
    · rw [complete_eq]
      change m.pending.erase n = _
      rw [hm]
      refine ExtTreeMap.ext_getElem? fun k => ?_
      simp only [OrdMap.getElem?_erase, OrdMap.getElem?_insert]
      split_ifs <;> rfl
  · refine ⟨_, _, .cons (callback_step hop) (.nil _), ?_, ?_⟩
    · simp [Input.Settles]
    · rw [complete_eq]
      rfl

theorem exists_drain (k : ℕ) (hk : s.pending.size = k) :
    ∃ tr s', machine.Run s tr s' ∧ (∀ e ∈ tr, e.input.Settles) ∧ s'.pending = ∅ := by
  induction k generalizing s with
  | zero => exact ⟨[], s, .nil s, by simp, ExtTreeMap.eq_empty_iff_size_eq_zero.mpr hk⟩
  | succ k ih =>
    obtain ⟨n, hn⟩ : ∃ n, n ∈ s.pending := by
      by_contra hnone
      have hempty := ExtTreeMap.eq_empty_iff_forall_not_mem.mpr (not_exists.mp hnone)
      rw [ExtTreeMap.eq_empty_iff_size_eq_zero] at hempty
      omega
    obtain ⟨tr, m, hrun, hsettles, hm⟩ := exists_completion (ExtTreeMap.getElem?_eq_some_getElem hn)
    have hsize : m.pending.size = k := by
      rw [hm, ExtTreeMap.size_erase, if_pos (ExtTreeMap.mem_iff_contains.mp hn), hk]
      rfl
    obtain ⟨tr', s', hrun', hsettles', hs'⟩ := ih hsize
    refine ⟨tr ++ tr', s', hrun.append hrun', fun e he => ?_, hs'⟩
    exact (List.mem_append.mp he).elim (hsettles e) (hsettles' e)

/-! ### Every id is new -/

/-- The allocator hands out its next id and moves past it. -/
theorem Effect.mintedId (he : Effect s i o s') :
    s'.groupIdAllocatorValid = s.groupIdAllocatorValid ∧ s.nextGroupId ≤ s'.nextGroupId ∧
      ∀ newId, o.mintedId = some newId → s.groupIdAllocatorValid = true ∧
        newId = s.nextGroupId ∧ newId < s'.nextGroupId := by
  cases he with
  | rejected => exact ⟨rfl, le_rfl, fun _ h => by contradiction⟩
  | created hvalid hmax =>
    have hlt := lt_add_one hmax
    refine ⟨rfl, hlt.le, fun newId h => ?_⟩
    cases h
    exact ⟨hvalid, rfl, hlt⟩
  | @requested _ op hserial =>
    refine ⟨rfl, le_rfl, fun newId h => ?_⟩
    cases op with
    | create => contradiction
    | join | leave | dissolve => contradiction
  | ended => exact ⟨rfl, le_rfl, fun _ h => by contradiction⟩
  | completed =>
    rw [complete_eq]
    exact ⟨rfl, le_rfl, fun _ h => by contradiction⟩

theorem run_minted (hr : machine.Run s tr s') :
    (mintedIds tr).Pairwise (· < ·) ∧
      ∀ newId ∈ mintedIds tr, s.groupIdAllocatorValid = true ∧ s.nextGroupId ≤ newId := by
  induction hr with
  | nil => simp [mintedIds]
  | @cons s m s' i o tr hstep _ ih =>
    obtain ⟨hvalid, hnext, hnew⟩ := (step_effect hstep).mintedId
    obtain ⟨hsorted, hlater⟩ := ih
    cases ho : o.mintedId with
    | none =>
      have hcons : mintedIds (⟨s, i, o, m⟩ :: tr) = mintedIds tr := List.filterMap_cons_none ho
      rw [hcons]
      exact ⟨hsorted, fun newId hid => (hlater newId hid).imp (hvalid ▸ ·) hnext.trans⟩
    | some newId =>
      obtain ⟨hon, rfl, hlt⟩ := hnew newId ho
      have hcons : mintedIds (⟨s, i, o, m⟩ :: tr) = s.nextGroupId :: mintedIds tr :=
        List.filterMap_cons_some ho
      rw [hcons, List.pairwise_cons]
      refine ⟨⟨fun id hid => hlt.trans_le (hlater id hid).2, hsorted⟩, fun id hid => ?_⟩
      rcases List.mem_cons.mp hid with rfl | hid
      · exact ⟨hon, le_rfl⟩
      · exact (hlater id hid).imp (hvalid ▸ ·) hnext.trans

/-! ### Runs from loaded tables -/

variable {db : Database} {agentRegistry : AgentRegistry}

theorem no_orphans (h : Inv s) {row : GroupMemberRow} (hrow : row ∈ s.database.groupMembers) :
    ∃ group, s.database.groups[row.groupId]? = some group := by
  have hcontent : (s.database.content row.groupId).NoOrphans :=
    h.mirror.primary_forall (W := GroupContent.NoOrphans)
      (AgentGroupRegistry.content_noOrphans s.registry)
      (fun op c hop _ => op.apply_noOrphans c hop) row.groupId
  by_contra hnone
  have hempty := hcontent (Option.eq_none_iff_forall_ne_some.mpr (not_exists.mp hnone))
  have hmem : row.membership ∈ (s.database.content row.groupId).members :=
    List.mem_map_of_mem (List.mem_filter.mpr ⟨hrow, by simp⟩)
  rw [hempty] at hmem
  exact List.not_mem_nil hmem

theorem minted_new (hr : machine.Run (startup db agentRegistry) tr s) {newId : UInt64} (hid : newId ∈ mintedIds tr) :
    db.groups[newId]? = none := by
  obtain ⟨hvalid, hle⟩ := (run_minted hr).2 newId hid
  rw [Option.eq_none_iff_forall_ne_some]
  intro row hrow
  exact absurd hle (not_le.mpr ((loadGroupIdSequence_valid hvalid).2 newId row hrow))

/-- The lifecycle of groups agrees with the tables in every run: operations on a group
are in flight one at a time, the registry changes only in the callback of a committed
transaction, a group with nothing in flight is the same in both, no membership row is
without its group, each request made is waiting or was answered once and what waits can
be answered, and no id is given out twice or is one of a loaded group. -/
theorem group_lifecycle_agrees (hdb : db.Loadable agentRegistry)
    (hr : machine.Run (startup db agentRegistry) tr s) :
    (∀ (n m : ℕ) (t t' : Transaction), s.pending[n]? = some t → s.pending[m]? = some t' →
      t.operation.groupId = t'.operation.groupId → n = m) ∧
    (∀ e ∈ tr, e.post.registry ≠ e.pre.registry → ∃ n op, e.input = .callback n ∧
      e.pre.pending[n]? = some { operation := op, outcome := some true }) ∧
    (∀ groupId, (∀ (n : ℕ) (t : Transaction), s.pending[n]? = some t →
        t.operation.groupId ≠ groupId) →
      s.registry.content groupId = s.database.content groupId) ∧
    (∀ row ∈ s.database.groupMembers, ∃ group, s.database.groups[row.groupId]? = some group) ∧
    (∀ n, (answeredRequests tr).count n + waiting s.pending n = made s.nextRequest n) ∧
    (∃ tr' s', machine.Run s tr' s' ∧ (∀ e ∈ tr', e.input.Settles) ∧ s'.pending = ∅) ∧
    (mintedIds tr).Pairwise (· < ·) ∧ (∀ newId ∈ mintedIds tr, db.groups[newId]? = none) := by
  have h₀ := startup_inv hdb
  have h := run_inv hr h₀
  refine ⟨?_, ?_, ?_, fun _ => no_orphans h, fun n => ?_, exists_drain _ rfl, (run_minted hr).1,
    fun _ => minted_new hr⟩
  · intro n m t t' hn hm hkey
    exact h.mirror.single n m _ _ _ _ (inFlight_eq_some.mpr hn) (inFlight_eq_some.mpr hm) hkey
  · intro e he hne
    obtain ⟨_, hstep, _⟩ := hr.forall_mem (fun _ _ _ _ hs hst => (step_effect hst).inv hs) h₀ e he
    exact (step_effect hstep).registry_change hne
  · intro groupId hfree
    exact (h.mirror.agree_of_free fun n op out hn => hfree n _ (inFlight_eq_some.mp hn)).symm
  · have hanswers := run_answers hr h₀ n
    have hwaiting : waiting (startup db agentRegistry).pending n = 0 := rfl
    have hmade : made (startup db agentRegistry).nextRequest n = 0 := if_neg (Nat.not_lt_zero n)
    omega

/-- A group is made, joined by one agent and left while nothing else is in flight. -/
def oneGroup : List Input :=
  let agents : AgentRegistry := { agents := (∅ : ExtTreeMap UInt64 AgentRecord).insert 7 { id := 7 } }
  [.requestCreate {}, .transactionEnds 0 true, .callback 0, .requestJoin 4 7 100 agents,
    .transactionEnds 1 true, .requestLeave 4 7, .callback 1]

theorem group_lifecycle_agrees_oneGroup : ∃ tr s, machine.Run
    (startup { nextGroupId := some 4 } {}) tr s ∧ answeredRequests tr = [0, 2, 1] ∧
      mintedIds tr = [4] ∧ (s.registry.content 4).memberIds = [7] ∧
      s.registry.content 4 = s.database.content 4 := by
  have h : (machine.exec (startup { nextGroupId := some 4 } {}) oneGroup).map (fun p =>
      (answeredRequests p.1, mintedIds p.1, (p.2.registry.content 4).memberIds,
        p.2.pending.keys)) = some ([0, 2, 1], [4], [7], []) := by decide +kernel
  obtain ⟨⟨tr, s⟩, hexec, h⟩ := Option.map_eq_some_iff.mp h
  simp only [Prod.mk.injEq] at h
  obtain ⟨hanswered, hminted, hmembers, hpending⟩ := h
  have hdb : Database.Loadable { nextGroupId := some 4 } {} := by
    refine ⟨fun groupId row hrow => ?_, by simp, by simp⟩
    simp at hrow
  have hrun := Machine.run_of_exec hexec
  have hagree := (group_lifecycle_agrees hdb hrun).2.2.1 4 fun n t hn => by
    have hmem := (OrdMap.mem_keys_iff s.pending n).mpr ⟨t, hn⟩
    simp [hpending] at hmem
  exact ⟨tr, s, hrun, hanswered, hminted, hmembers, hagree⟩

end LifecycleState

end AIWorld.Groups
