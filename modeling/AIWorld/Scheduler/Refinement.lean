import AIWorld.Scheduler.QueueInvariant

/-! The scheduler with its queue does what the plain schedule does: every call from a
state reached is defined, answers the same and leaves the same times, as long as the
clock does not go back and no time saturates. -/

namespace AIWorld.Scheduler

open Std (ExtTreeMap)
open Lib

/-- A queue entry as what the plain schedule sorts by. -/
def Entry.due (e : Entry) : Due := (e.atMs, e.id)

theorem later_eq_false_iff {a b : Entry} : later a b = false ↔ a.due.Before b.due := by
  unfold later Due.Before Entry.due
  rw [← Bool.not_eq_true]
  split_ifs with h
  · rw [decide_eq_true_eq, not_lt]
    exact ⟨fun hle => .inl (lt_of_le_of_ne hle h), fun hb => (hb.resolve_right fun hc => h hc.1).le⟩
  · rw [not_not] at h
    simp [h]

/-- Dropping what is filtered out anyway. -/
theorem filter_dropWhile {α : Type*} (keep : α → Bool) (l : List α) :
    (l.dropWhile fun a => !keep a).filter keep = l.filter keep := by
  induction l with
  | nil => rfl
  | cons a l ih =>
    cases hkeep : keep a with
    | true => simp [hkeep]
    | false => simpa [hkeep] using ih

theorem head?_dropWhile {α : Type*} (keep : α → Bool) (l : List α) :
    (l.dropWhile fun a => !keep a).head? = (l.filter keep).head? := by
  induction l with
  | nil => rfl
  | cons a l ih =>
    cases hkeep : keep a with
    | true => simp [hkeep]
    | false => simpa [hkeep] using ih

/-- The clock leaves room for one interval. -/
def Op.Below (current : UInt32) : Op → Prop
  | .sync _ nowMs intervalMs _ => nowMs.toNat + (max 1 intervalMs).toNat < 2 ^ 64
  | .popDue nowMs | .popDueAgent _ nowMs => nowMs.toNat + current.toNat < 2 ^ 64
  | .wake _ _ | .dueAgents _ _ | .oldestLateMs _ => True

instance (current : UInt32) : (i : Op) → Decidable (i.Below current)
  | .sync _ _ _ _ | .popDue _ | .popDueAgent _ _ => inferInstanceAs (Decidable (_ < _))
  | .wake _ _ | .dueAgents _ _ | .oldestLateMs _ => inferInstanceAs (Decidable True)

namespace AgentUpdateScheduler

variable {P : PriorityQueue Entry later} {s s' : AgentUpdateScheduler P} {clock nowMs id : UInt64}
  {state state' : State} {e : Entry}

theorem plain_slot (s : AgentUpdateScheduler P) (id : UInt64) :
    s.plain.slots[id]? = (s.states[id]?).map State.toSlot := ExtTreeMap.getElem?_map

theorem plain_insert (states : ExtTreeMap UInt64 State) (id : UInt64) (state : State) :
    (states.insert id state).map (fun _ state => state.toSlot) =
      (states.map fun _ state => state.toSlot).insert id state.toSlot := by
  refine ExtTreeMap.ext_getElem? fun k => ?_
  simp only [ExtTreeMap.getElem?_map, OrdMap.getElem?_insert]
  split_ifs <;> rfl

/-! ### The order of the live entries -/

theorem live_nodup (h : Inv clock s) : ((P.toList s.due).filter s.live).Nodup := by
  rw [List.nodup_iff_count_le_one]
  intro e
  by_cases he : s.live e = true
  · obtain ⟨state, hstate, heq⟩ := (live_iff h).mp he
    rw [List.count_filter he, heq, h.once e.id state hstate]
  · have hnot : e ∉ (P.toList s.due).filter s.live := fun hmem => he (List.mem_filter.mp hmem).2
    rw [List.count_eq_zero_of_not_mem hnot]
    exact Nat.zero_le 1

theorem live_due_nodup (h : Inv clock s) : (((P.toList s.due).filter s.live).map Entry.due).Nodup := by
  refine (List.nodup_map_iff_inj_on (live_nodup h)).mpr fun a ha b hb hab => ?_
  obtain ⟨state, hstate, ha⟩ := (live_iff h).mp (List.mem_filter.mp ha).2
  obtain ⟨state', hstate', hb⟩ := (live_iff h).mp (List.mem_filter.mp hb).2
  have hid : a.id = b.id := congrArg Prod.snd hab
  rw [hid, hstate'] at hstate
  rw [ha, hb, hid, Option.some.inj hstate]

theorem mem_live_due (h : Inv clock s) {d : Due} :
    d ∈ ((P.toList s.due).filter s.live).map Entry.due ↔
      ∃ state : State, s.states[d.2]? = some state ∧ state.nextMs = d.1 := by
  rw [List.mem_map]
  constructor
  · rintro ⟨e, he, rfl⟩
    obtain ⟨state, hstate, heq⟩ := (live_iff h).mp (List.mem_filter.mp he).2
    exact ⟨state, hstate, (congrArg Entry.atMs heq).symm⟩
  · rintro ⟨state, hstate, hd⟩
    refine ⟨state.entry d.2, List.mem_filter.mpr ⟨?_, live_entry h hstate⟩, Prod.ext hd rfl⟩
    rw [← List.count_pos_iff, h.once d.2 state hstate]
    exact Nat.one_pos

/-- The live entries that are due, in the order of the queue, are the agents that are due. -/
theorem inOrder_eq (h : Inv clock s) (nowMs : UInt64) : s.plain.inOrder nowMs =
    (((P.toList s.due).filter s.live).filter fun e => e.atMs ≤ nowMs).map Entry.due := by
  have hsorted : (((P.toList s.due).filter s.live).filter fun e => e.atMs ≤ nowMs).Pairwise
      fun a b => a.due.Before b.due :=
    ((P.sorted s.due).imp later_eq_false_iff.mp).sublist
      (List.filter_sublist.trans List.filter_sublist)
  have hdues : s.plain.dues.Perm (((P.toList s.due).filter s.live).map Entry.due) := by
    refine (List.perm_ext_iff_of_nodup s.plain.dues_nodup.of_map (live_due_nodup h)).mpr fun d => ?_
    rw [mem_live_due h, PlainSchedule.mem_dues, plain_slot]
    cases s.states[d.2]? <;> simp
  refine List.Perm.eq_of_pairwise (fun _ _ _ _ (hab : Due.Before _ _) => hab.antisymm)
    (s.plain.inOrder_pairwise nowMs) (List.pairwise_map.mpr hsorted) ?_
  refine (s.plain.inOrder_perm nowMs).trans ((hdues.filter _).trans ?_)
  rw [List.filter_map]
  rfl

/-! ### Pruning -/

theorem toList_pruneStale (s : AgentUpdateScheduler P) :
    P.toList s.pruneStale.due = (P.toList s.due).dropWhile fun e => !s.live e :=
  PriorityQueue.toList_skip s.live le_rfl

theorem filter_pruneStale (s : AgentUpdateScheduler P) :
    (P.toList s.pruneStale.due).filter s.live = (P.toList s.due).filter s.live := by
  rw [toList_pruneStale, filter_dropWhile]

/-- Pruning drops only entries that fit no state. -/
theorem Inv.pruneStale (h : Inv clock s) : Inv clock s.pruneStale := by
  have hsub : ∀ e ∈ P.toList s.pruneStale.due, e ∈ P.toList s.due := by
    rw [toList_pruneStale]
    exact fun e he => List.dropWhile_sublist _ |>.subset he
  refine ⟨h.interval_pos, h.good, fun e he => h.reach e (hsub e he),
    fun e he => h.fits e (hsub e he), fun id state hstate => ?_⟩
  have hlive := live_entry h hstate
  rw [← List.count_filter hlive, filter_pruneStale, List.count_filter hlive]
  exact h.once id state hstate

/-- What is on top after pruning is first in order, if it is due. -/
theorem head?_inOrder (h : Inv clock s) (nowMs : UInt64) : (s.plain.inOrder nowMs).head? =
    ((P.top s.pruneStale.due).filter fun e => e.atMs ≤ nowMs).map Entry.due := by
  have htop : P.top s.pruneStale.due = ((P.toList s.due).filter s.live).head? := by
    rw [P.top_eq, toList_pruneStale, head?_dropWhile]
  have hsorted : ((P.toList s.due).filter s.live).Pairwise fun a b => a.due.Before b.due :=
    ((P.sorted s.due).imp later_eq_false_iff.mp).sublist List.filter_sublist
  have hwithin : ∀ a b : Entry, a.due.Before b.due → decide (b.atMs ≤ nowMs) = true →
      decide (a.atMs ≤ nowMs) = true := by
    intro a b hab hb
    rw [decide_eq_true_eq] at hb ⊢
    exact (hab.elim le_of_lt fun heq => heq.1.le).trans hb
  rw [inOrder_eq h, htop, List.head?_map, ← takeWhile_eq_filter hsorted hwithin,
    List.head?_takeWhile]

/-- The entry on top after pruning is the one of its agent. -/
theorem top_pruneStale (h : Inv clock s) (htop : P.top s.pruneStale.due = some e) :
    ∃ state : State, s.states[e.id]? = some state ∧ e = state.entry e.id := by
  rw [P.top_eq, toList_pruneStale, head?_dropWhile, List.head?_filter] at htop
  exact (live_iff h).mp (List.find?_some htop)

/-! ### Passes -/

theorem advance_eq {elapsedMs : UInt32} {lateMs : UInt64} {next : Slot}
    (hstate : s.states[id]? = some state)
    (hslot : state.toSlot.advance s.intervalMs nowMs = some (elapsedMs, lateMs, next)) :
    s.advance id nowMs = some ({ agent := id, elapsedMs, lateMs }, { s with
      states := s.states.insert id { next with generation := state.generation + 1 }
      due := P.push s.due ⟨next.nextMs, id, state.generation + 1⟩ }) := by
  simp [advance, hstate, hslot]

theorem plain_advance_eq {p : PlainSchedule} {slot : Slot} {elapsedMs : UInt32} {lateMs : UInt64}
    {next : Slot} (hstate : p.slots[id]? = some slot)
    (hslot : slot.advance p.intervalMs nowMs = some (elapsedMs, lateMs, next)) :
    p.advance id nowMs = some ({ agent := id, elapsedMs, lateMs },
      { p with slots := p.slots.insert id next }) := by
  simp [PlainSchedule.advance, hstate, hslot]

/-- A due pass, from the queue with or without the agent's entry. -/
theorem advance_refines (h : Inv clock s) (hclock : clock ≤ nowMs)
    (hstate : s.states[id]? = some state) (hdue : state.nextMs ≤ nowMs)
    (hbelow : nowMs.toNat + s.intervalMs.toNat < 2 ^ 64) {q : P.Q}
    (hsub : ∀ e ∈ P.toList q, e ∈ P.toList s.due)
    (hcount : ∀ e, e.id ≠ id → (P.toList q).count e = (P.toList s.due).count e) :
    ∃ update s', { s with due := q }.advance id nowMs = some (update, s') ∧
      s.plain.advance id nowMs = some (update, s'.plain) ∧ Inv nowMs s' := by
  have hgood := (h.good id state hstate).2
  obtain ⟨elapsedMs, lateMs, next, hslot, hadvanced⟩ :=
    hgood.advance hclock hdue h.interval_pos hbelow
  have hnext : ({ next with generation := state.generation + 1 } : State).toSlot.Good nowMs
    s.intervalMs := hadvanced.good
  have hinv := h.replace hclock hstate hnext (fun e he _ hfits => ?_) hsub hcount
  · have hplain : s.plain.slots[id]? = some state.toSlot := by
      rw [plain_slot, hstate]
      rfl
    refine ⟨_, _, advance_eq (s := { s with due := q }) hstate hslot, ?_, hinv⟩
    rw [plain_advance_eq hplain hslot, plain, plain, plain_insert]
  · refine State.Outlived.advance hadvanced.last rfl hdue
      (lt_of_lt_of_le hgood.last_lt hdue) ?_ hfits
    have := h.reach e he
    have := UInt64.le_iff_toNat_le.mp hclock
    omega

theorem popDue_refines (h : Inv clock s) (hclock : clock ≤ nowMs)
    (hbelow : nowMs.toNat + s.intervalMs.toNat < 2 ^ 64) :
    ∃ update s', s.popDue nowMs = some (update, s') ∧
      s.plain.popDue nowMs = some (update, s'.plain) ∧ Inv nowMs s' := by
  have hpruned := h.pruneStale
  have hhead := head?_inOrder h nowMs
  simp only [popDue, PlainSchedule.popDue, hhead]
  cases htop : P.top s.pruneStale.due with
  | none => exact ⟨none, s.pruneStale, rfl, rfl, hpruned.mono hclock⟩
  | some e =>
    by_cases hdue : e.atMs ≤ nowMs
    · obtain ⟨state, hstate, he⟩ := top_pruneStale h htop
      have hlist := PriorityQueue.toList_of_top htop
      obtain ⟨update, s', hstep, hplain, hinv⟩ := advance_refines hpruned hclock hstate
        ((congrArg Entry.atMs he).symm.le.trans hdue) hbelow (q := P.pop s.pruneStale.due)
        (fun a ha => hlist ▸ List.mem_cons_of_mem e ha)
        (fun a ha => by rw [hlist, List.count_cons_of_ne (ne_of_apply_ne Entry.id (Ne.symm ha))])
      refine ⟨some update, s', ?_, ?_, hinv⟩
      · simp only [gt_iff_lt, not_lt.mpr hdue, if_false, hstep, Option.map_some]
      · have hplain : s.plain.advance e.due.2 nowMs = some (update, s'.plain) := hplain
        simp only [Option.filter_some, hdue, decide_true, if_true, Option.map_some, hplain]
    · refine ⟨none, s.pruneStale, ?_, ?_, hpruned.mono hclock⟩
      · simp only [gt_iff_lt, lt_of_not_ge hdue, if_true]
      · simp only [Option.filter_some, hdue, decide_false, Bool.false_eq_true, if_false, Option.map_none]
        rfl

theorem popDueAgent_refines (h : Inv clock s) (hclock : clock ≤ nowMs)
    (hbelow : nowMs.toNat + s.intervalMs.toNat < 2 ^ 64) (id : UInt64) :
    ∃ update s', s.popDueAgent id nowMs = some (update, s') ∧
      s.plain.popDueAgent id nowMs = some (update, s'.plain) ∧ Inv nowMs s' := by
  unfold popDueAgent PlainSchedule.popDueAgent
  rw [plain_slot]
  cases hstate : s.states[id]? with
  | none => exact ⟨none, s, rfl, rfl, h.mono hclock⟩
  | some state =>
    have hid := (h.good id state hstate).1
    simp only [Option.map_some]
    by_cases hdue : state.nextMs ≤ nowMs ∧ state.lastMs < nowMs
    · obtain ⟨update, s', hstep, hplain, hinv⟩ := advance_refines h hclock hstate hdue.1 hbelow
        (q := s.due) (fun _ he => he) (fun _ _ => rfl)
      have hskip : ¬ (id = 0 ∨ state.nextMs > nowMs ∨ nowMs ≤ state.lastMs) := by
        simp only [gt_iff_lt, hid, false_or, not_or, not_lt, not_le]
        exact hdue
      refine ⟨some update, s', ?_, ?_, hinv⟩
      · rw [if_neg hskip, hstep]
        rfl
      · rw [if_pos hdue, hplain]
        rfl
    · have hskip : id = 0 ∨ state.nextMs > nowMs ∨ nowMs ≤ state.lastMs := by
        rcases not_and_or.mp hdue with hlate | hlast
        · exact .inr (.inl (lt_of_not_ge hlate))
        · exact .inr (.inr (le_of_not_gt hlast))
      exact ⟨none, s, if_pos hskip, if_neg hdue, h.mono hclock⟩

theorem wake_refines (h : Inv clock s) (hclock : clock ≤ nowMs) (id : UInt64) :
    (s.wake id nowMs).1 = (s.plain.wake id nowMs).1 ∧
      (s.wake id nowMs).2.plain = (s.plain.wake id nowMs).2 ∧ Inv nowMs (s.wake id nowMs).2 := by
  unfold wake PlainSchedule.wake
  rw [plain_slot]
  cases hstate : s.states[id]? with
  | none => exact ⟨rfl, rfl, h.mono hclock⟩
  | some state =>
    obtain ⟨hid, hgood⟩ := h.good id state hstate
    simp only [Option.map_some]
    by_cases hearly : state.lastMs < nowMs ∧ nowMs < state.nextMs
    · have hskip : ¬ (id = 0 ∨ nowMs ≤ state.lastMs ∨ nowMs ≥ state.nextMs) := by
        simp only [hid, false_or, not_or, not_le, ge_iff_le]
        exact hearly
      rw [if_neg hskip, if_pos hearly]
      have hperiodic : state.nextMs = state.periodicNextMs :=
        hgood.early.resolve_right fun hle => absurd (hle.trans hclock) (not_le.mpr hearly.2)
      have hbefore : nowMs < state.periodicNextMs := hperiodic ▸ hearly.2
      have hlater := hgood.later hclock
      refine ⟨rfl, ?_, h.replace hclock hstate ?_ (fun e _ _ hfits => ?_) (fun _ he => he)
        (fun _ _ => rfl)⟩
      · simp only [plain, plain_insert]
      · exact ⟨hearly.1, hbefore.le, hlater.last_le, hlater.reach, .inr le_rfl⟩
      · exact State.Outlived.wake (if_pos hperiodic) rfl rfl (if_neg hbefore.ne) hfits
    · have hskip : id = 0 ∨ nowMs ≤ state.lastMs ∨ nowMs ≥ state.nextMs := by
        rcases not_and_or.mp hearly with hlast | hnext
        · exact .inr (.inl (le_of_not_gt hlast))
        · exact .inr (.inr (le_of_not_gt hnext))
      rw [if_pos hskip, if_neg hearly]
      exact ⟨rfl, rfl, h.mono hclock⟩

/-! ### Looking -/

theorem dueAgents_refines (h : Inv clock s) (nowMs : UInt64) (limit : ℕ) :
    (s.dueAgents nowMs limit).1 = ((s.plain.inOrder nowMs).take limit).map Prod.snd := by
  have hsorted := (P.sorted s.pruneStale.due).imp later_eq_false_iff.mp
  have hwithin : ∀ a b : Entry, a.due.Before b.due → decide (b.atMs ≤ nowMs) = true →
      decide (a.atMs ≤ nowMs) = true := by
    intro a b hab hb
    rw [decide_eq_true_eq] at hb ⊢
    exact (hab.elim le_of_lt fun heq => heq.1.le).trans hb
  have hlist := filter_pruneStale s
  unfold dueAgents
  simp only
  rw [PriorityQueue.take_eq _ _ _ le_rfl, takeWhile_eq_filter hsorted hwithin, List.filter_comm]
  change (([] ++ ((List.filter s.live _).filter _).take _).map Entry.id) = _
  rw [hlist, inOrder_eq h, List.nil_append, List.length_nil, Nat.sub_zero, ← List.map_take,
    List.map_map]
  rfl

theorem oldestLateMs_refines (h : Inv clock s) (nowMs : UInt64) : s.oldestLateMs nowMs =
    some (((s.plain.inOrder nowMs).head?.map fun d => nowMs - d.1).getD 0, s.pruneStale) := by
  have hhead := head?_inOrder h nowMs
  simp only [oldestLateMs, hhead]
  cases htop : P.top s.pruneStale.due with
  | none => rfl
  | some e =>
    simp only [Option.filter_some]
    by_cases hlate : nowMs > e.atMs
    · rw [if_pos hlate, checkedSub_of_le hlate.le]
      simp only [hlate.le, decide_true, if_true, Option.map_some, Option.getD_some]
      rfl
    · rw [if_neg hlate]
      rcases eq_or_lt_of_le (le_of_not_gt hlate) with heq | hlt
      · simp [heq, Entry.due]
      · simp [not_le.mpr hlt]

/-! ### Refreshes -/

section Sync
variable {new : UInt64 → State} {acc : ExtTreeMap UInt64 State × List Entry}

/-- The states and entries made so far are those of the agents looked at. -/
structure Synced (new : UInt64 → State) (acc : ExtTreeMap UInt64 State × List Entry) : Prop where
  states : ∀ (id : UInt64) (state : State), acc.1[id]? = some state → id ≠ 0 ∧ state = new id
  entries : ∀ e ∈ acc.2, acc.1[e.id]? = some (new e.id) ∧ e = (new e.id).entry e.id
  once : ∀ (id : UInt64) (state : State), acc.1[id]? = some state →
    acc.2.count ((new id).entry id) = 1

theorem Synced.insert (h : Synced new acc) (hid : id ≠ 0) (hnew : id ∉ acc.1) :
    Synced new (acc.1.insert id (new id), acc.2 ++ [(new id).entry id]) := by
  have hnone : acc.1[id]? = none := ExtTreeMap.getElem?_eq_none hnew
  have hfree : ∀ e ∈ acc.2, e.id ≠ id := by
    rintro e he rfl
    rw [(h.entries e he).1] at hnone
    contradiction
  refine ⟨OrdMap.forall_insert (P := fun k state => k ≠ 0 ∧ state = new k) ⟨hid, rfl⟩
    fun k state _ => h.states k state, fun e he => ?_, ?_⟩
  · rcases List.mem_append.mp he with he | he
    · rw [OrdMap.getElem?_insert, if_neg (hfree e he).symm]
      exact h.entries e he
    · obtain rfl := List.mem_singleton.mp he
      exact ⟨ExtTreeMap.getElem?_insert_self, rfl⟩
  · refine OrdMap.forall_insert (P := fun k (_ : State) =>
      (acc.2 ++ [(new id).entry id]).count ((new k).entry k) = 1) ?_ fun k state hne hk => ?_
    · have hnot : (new id).entry id ∉ acc.2 := fun hmem => hfree _ hmem rfl
      rw [List.count_append, List.count_eq_zero_of_not_mem hnot, List.count_singleton_self]
    · have hother : (new id).entry id ≠ (new k).entry k := ne_of_apply_ne Entry.id hne
      rw [List.count_append, h.once k state hk, List.count_singleton, beq_eq_false_iff_ne.mpr hother]
      rfl

theorem Synced.foldl (s : AgentUpdateScheduler P) (nowMs : UInt64) (intervalMs : UInt32)
    (salt : UInt64) (agents : List UInt64) (h : Synced (s.syncState nowMs intervalMs salt) acc) :
    Synced (s.syncState nowMs intervalMs salt) (agents.foldl (s.syncOne nowMs intervalMs salt) acc) ∧
      ∀ id, id ∈ (agents.foldl (s.syncOne nowMs intervalMs salt) acc).1 ↔
        id ∈ acc.1 ∨ id ≠ 0 ∧ id ∈ agents := by
  induction agents generalizing acc with
  | nil => exact ⟨h, by simp⟩
  | cons a agents ih =>
    rw [List.foldl_cons, syncOne]
    split_ifs with hskip
    · refine (ih h).imp_right fun hmem id => (hmem id).trans ?_
      rw [List.mem_cons]
      refine ⟨fun hor => hor.imp_right (And.imp_right .inr), ?_⟩
      rintro (hin | ⟨hne, rfl | hin⟩)
      · exact .inl hin
      · exact .inl (hskip.resolve_left hne)
      · exact .inr ⟨hne, hin⟩
    · obtain ⟨ha, hnew⟩ := not_or.mp hskip
      refine (ih (h.insert ha hnew)).imp_right fun hmem id => (hmem id).trans ?_
      rw [List.mem_cons, ExtTreeMap.mem_insert, Std.LawfulEqCmp.compare_eq_iff_eq]
      constructor
      · rintro ((rfl | hin) | hin)
        · exact .inr ⟨ha, .inl rfl⟩
        · exact .inl hin
        · exact .inr (hin.imp_right .inr)
      · rintro (hin | ⟨hne, rfl | hin⟩)
        · exact .inl (.inr hin)
        · exact .inl (.inl rfl)
        · exact .inr ⟨hne, hin⟩

end Sync

theorem sync_refines (h : Inv clock s) (hclock : clock ≤ nowMs) (agents : List UInt64)
    (intervalMs : UInt32) (salt : UInt64)
    (hbelow : nowMs.toNat + (max 1 intervalMs).toNat < 2 ^ 64) :
    (s.sync agents nowMs intervalMs salt).plain = s.plain.sync agents nowMs intervalMs salt ∧
      Inv nowMs (s.sync agents nowMs intervalMs salt) := by
  have hpos : 0 < max 1 intervalMs := by
    rw [UInt32.lt_iff_toNat_lt, UInt32.toNat_max]
    have hone : (1 : UInt32).toNat = 1 := rfl
    have hzero : (0 : UInt32).toNat = 0 := rfl
    omega
  have hnone : Synced (s.syncState nowMs (max 1 intervalMs) salt) (∅, []) :=
    ⟨by simp, by simp, by simp⟩
  obtain ⟨hsynced, hmem⟩ := hnone.foldl s nowMs (max 1 intervalMs) salt agents
  generalize hacc : agents.foldl (s.syncOne nowMs (max 1 intervalMs) salt) (∅, []) = acc at *
  have hsync : s.sync agents nowMs intervalMs salt =
      { states := acc.1, due := P.ofList acc.2, intervalMs := max 1 intervalMs } := by
    rw [sync, hacc]
  have hgood : ∀ (id : UInt64) (state : State), acc.1[id]? = some state →
      state.toSlot.Good nowMs (max 1 intervalMs) := by
    intro id state hstate
    obtain ⟨hafter, hreach⟩ := toNat_firstTime id salt hpos hbelow
    rw [(hsynced.states id state hstate).2, syncState, State.sync_toSlot]
    refine Slot.Good.sync (fun slot hslot => ?_) hclock
      (UInt64.lt_iff_toNat_lt.mpr hafter) hreach
    obtain ⟨old, hold, rfl⟩ := Option.map_eq_some_iff.mp hslot
    exact (h.good id old hold).2
  rw [hsync]
  have hperm := P.toList_ofList acc.2
  refine ⟨?_, hpos, fun id state hstate => ⟨(hsynced.states id state hstate).1, hgood id state hstate⟩,
    fun e he => ?_, fun e he state hstate => ?_, fun id state hstate => ?_⟩
  · have hslots : (acc.1.map fun _ state => state.toSlot) =
        (s.plain.sync agents nowMs intervalMs salt).slots := by
      refine ExtTreeMap.ext_getElem? fun id => ?_
      rw [PlainSchedule.sync_slot, ExtTreeMap.getElem?_map, plain_slot]
      split_ifs with hin
      · obtain ⟨state, hstate⟩ : ∃ state, acc.1[id]? = some state :=
          ⟨_, ExtTreeMap.getElem?_eq_some_getElem ((hmem id).mpr (.inr hin))⟩
        rw [hstate, (hsynced.states id state hstate).2, Option.map_some, syncState,
          State.sync_toSlot]
        rfl
      · have hnot : id ∉ acc.1 := fun hc => hin (((hmem id).mp hc).resolve_left (by simp))
        rw [ExtTreeMap.getElem?_eq_none hnot, Option.map_none]
    rw [plain, hslots]
    rfl
  · obtain ⟨hstate, heq⟩ := hsynced.entries e (hperm.mem_iff.mp he)
    have hstate_good := hgood e.id _ hstate
    have hnext := UInt64.le_iff_toNat_le.mp hstate_good.next_le
    have hreach := hstate_good.reach
    have hlt := (max 1 intervalMs).toNat_lt
    rw [heq]
    change (State.toSlot _).nextMs.toNat < _
    omega
  · obtain ⟨hnew, heq⟩ := hsynced.entries e (hperm.mem_iff.mp he)
    change acc.1[e.id]? = some state at hstate
    rw [hnew] at hstate
    exact .inl (Option.some.inj hstate ▸ heq)
  · rw [hperm.count_eq, (hsynced.states id state hstate).2]
    exact hsynced.once id state hstate

/-! ### Runs -/

/-- Each call is defined and is the plain schedule's call. -/
theorem step_refines {i : Op} (h : Inv clock s) (hclock : clock ≤ i.nowMs)
    (hbelow : i.Below s.intervalMs) : ∃ o s', (machine P).step s i = some (o, s') ∧
      PlainSchedule.machine.step s.plain i = some (o, s'.plain) ∧ Inv i.nowMs s' := by
  cases i with
  | sync agents nowMs intervalMs salt =>
    obtain ⟨hplain, hinv⟩ := sync_refines h hclock agents intervalMs salt hbelow
    exact ⟨.synced, _, rfl, congrArg (fun p => some (Outcome.synced, p)) hplain.symm, hinv⟩
  | wake id nowMs =>
    obtain ⟨hwoken, hplain, hinv⟩ := wake_refines h hclock id
    refine ⟨.woken (s.wake id nowMs).1, _, rfl, ?_, hinv⟩
    exact congrArg₂ (fun woken p => some (Outcome.woken woken, p)) hwoken.symm hplain.symm
  | popDue nowMs =>
    obtain ⟨update, s', hstep, hplain, hinv⟩ := popDue_refines h hclock hbelow
    refine ⟨.popped update, s', ?_, ?_, hinv⟩
    · exact congrArg (Option.map _) hstep
    · exact congrArg (Option.map _) hplain
  | dueAgents nowMs limit =>
    refine ⟨.due (s.dueAgents nowMs limit).1, s.pruneStale, rfl, ?_, h.pruneStale.mono hclock⟩
    exact congrArg (fun agents => some (Outcome.due agents, s.plain))
      (dueAgents_refines h nowMs limit).symm
  | popDueAgent id nowMs =>
    obtain ⟨update, s', hstep, hplain, hinv⟩ := popDueAgent_refines h hclock hbelow id
    refine ⟨.popped update, s', ?_, ?_, hinv⟩
    · exact congrArg (Option.map _) hstep
    · exact congrArg (Option.map _) hplain
  | oldestLateMs nowMs =>
    exact ⟨_, _, congrArg (Option.map _) (oldestLateMs_refines h nowMs), rfl, h.pruneStale.mono hclock⟩

variable {tr : List (Event (AgentUpdateScheduler P) Op Outcome)}

/-- The clock does not go back and never comes near its end. -/
structure Clocked (tr : List (Event (AgentUpdateScheduler P) Op Outcome)) : Prop where
  nondecreasing : (tr.map fun e => e.input.nowMs).Pairwise (· ≤ ·)
  below : ∀ e ∈ tr, e.input.Below e.pre.intervalMs

instance (tr : List (Event (AgentUpdateScheduler P) Op Outcome)) : Decidable (Clocked tr) :=
  decidable_of_iff ((tr.map fun e => e.input.nowMs).Pairwise (· ≤ ·) ∧
    ∀ e ∈ tr, e.input.Below e.pre.intervalMs) ⟨fun h => ⟨h.1, h.2⟩, fun h => ⟨h.1, h.2⟩⟩

theorem step_inv {i : Op} {o : Outcome} (h : Inv clock s) (hclock : clock ≤ i.nowMs)
    (hbelow : i.Below s.intervalMs) (hstep : (machine P).step s i = some (o, s')) :
    PlainSchedule.machine.step s.plain i = some (o, s'.plain) ∧ Inv i.nowMs s' := by
  obtain ⟨o', s'', hstep', hplain, hinv⟩ := step_refines h hclock hbelow
  cases hstep.symm.trans hstep'
  exact ⟨hplain, hinv⟩

/-- Every state around an event is one of the invariant. -/
theorem run_inv (hr : (machine P).Run s tr s') (hclocked : Clocked tr) (h : Inv 0 s) :
    (∀ e ∈ tr, ∃ clock ≤ e.input.nowMs, Inv clock e.pre ∧ Inv e.input.nowMs e.post) ∧
      ∃ clock, Inv clock s' ∧ ∀ i : Op, (∀ e ∈ tr, e.input.nowMs ≤ i.nowMs) → clock ≤ i.nowMs := by
  have hzero : ((0 : UInt64) :: tr.map fun e => e.input.nowMs).Pairwise (· ≤ ·) :=
    List.pairwise_cons.mpr ⟨fun _ _ => UInt64.zero_le, hclocked.nondecreasing⟩
  obtain ⟨hevents, clock, hinv, hmin⟩ := hr.clocked (P := Inv)
    (C := fun e => e.input.Below e.pre.intervalMs)
    (fun t s i o s' h hle hb hstep => (step_inv h hle hb hstep).2) hzero hclocked.below h
  exact ⟨hevents, clock, hinv, fun i hi => hmin i.nowMs UInt64.zero_le hi⟩

theorem run_refines (hr : (machine P).Run s tr s') (hclocked : Clocked tr) (h : Inv 0 s) :
    PlainSchedule.machine.Run s.plain (tr.map (Event.map plain)) s'.plain := by
  refine hr.map plain fun e he => ?_
  obtain ⟨clock, hle, hpre, -⟩ := (run_inv hr hclocked h).1 e he
  obtain ⟨_, _, _, _, hstep, _⟩ := hr.at_mem he
  exact (step_inv hpre hle (hclocked.below e he) hstep).1

/-- Exactly one entry of an agent is live. -/
theorem live_entries (h : Inv clock s) (hstate : s.states[id]? = some state) :
    ((P.toList s.due).filter fun e => e.id == id && s.live e) = [state.entry id] := by
  rw [← List.perm_singleton, ← List.filter_filter]
  refine (List.perm_ext_iff_of_nodup ((live_nodup h).filter _) (List.nodup_singleton _)).mpr fun e => ?_
  rw [List.mem_filter, List.mem_filter, List.mem_singleton, beq_iff_eq]
  constructor
  · rintro ⟨⟨-, hlive⟩, rfl⟩
    obtain ⟨state', hstate', heq⟩ := (live_iff h).mp hlive
    rw [hstate] at hstate'
    rw [heq, Option.some.inj hstate']
    rfl
  · rintro rfl
    refine ⟨⟨?_, live_entry h hstate⟩, rfl⟩
    rw [← List.count_pos_iff, h.once id state hstate]
    exact Nat.one_pos

/-- The scheduler refines a plain map from agents to their times: a run is a run of the
plain schedule with the same answers; each registered agent has exactly one live entry;
a pop takes the first due agent, if there is one; a look at the due agents lists the
first of them and takes none; and no subtraction underflows, so each further call is
defined. -/
theorem scheduler_refines_map (hr : (machine P).Run {} tr s) (hclocked : Clocked tr) :
    PlainSchedule.machine.Run {} (tr.map (Event.map plain)) s.plain ∧
    (∀ (id : UInt64) (state : State), s.states[id]? = some state →
      ((P.toList s.due).filter fun e => e.id == id && s.live e) = [state.entry id]) ∧
    (∀ e ∈ tr, ∀ nowMs update, e.input = .popDue nowMs → e.output = .popped update →
      update = none ∧ (∀ (id : UInt64) (state : State), e.pre.states[id]? = some state →
        nowMs < state.nextMs) ∨
      ∃ u, ∃ state : State, update = some u ∧ e.pre.states[u.agent]? = some state ∧
        state.nextMs ≤ nowMs ∧ ∀ (id : UInt64) (state' : State), e.pre.states[id]? = some state' →
          state'.nextMs ≤ nowMs → Due.Before (state.nextMs, u.agent) (state'.nextMs, id)) ∧
    (∀ e ∈ tr, ∀ nowMs limit agents, e.input = .dueAgents nowMs limit → e.output = .due agents →
      e.post.states = e.pre.states ∧ ∃ order : List Due, order.Pairwise Due.Before ∧
        (order.map Prod.snd).Nodup ∧ (∀ d, d ∈ order ↔ d.1 ≤ nowMs ∧ ∃ state : State,
          e.pre.states[d.2]? = some state ∧ state.nextMs = d.1) ∧
        agents = (order.take limit).map Prod.snd) ∧
    (∀ i : Op, (∀ e ∈ tr, e.input.nowMs ≤ i.nowMs) → i.Below s.intervalMs →
      ∃ o s', (machine P).step s i = some (o, s')) := by
  have hevents := (run_inv hr hclocked inv_empty).1
  obtain ⟨clock, hinv, hlast⟩ := (run_inv hr hclocked inv_empty).2
  have hplain (e) (he : e ∈ tr) : PlainSchedule.machine.step e.pre.plain e.input =
      some (e.output, e.post.plain) := by
    obtain ⟨clock, hle, hpre, -⟩ := hevents e he
    obtain ⟨_, _, _, _, hstep, _⟩ := hr.at_mem he
    exact (step_inv hpre hle (hclocked.below e he) hstep).1
  refine ⟨?_, fun id state => live_entries hinv, fun e he nowMs update hi ho => ?_,
    fun e he nowMs limit agents hi ho => ?_, fun i hi hbelow => ?_⟩
  · have hempty : ({} : AgentUpdateScheduler P).plain = {} := by
      rw [plain]
      congr 1
    exact hempty ▸ run_refines hr hclocked inv_empty
  · have hstep := hplain e he
    rw [hi, ho] at hstep
    obtain ⟨⟨update', p⟩, hpop, heq⟩ := Option.map_eq_some_iff.mp hstep
    cases heq
    rcases PlainSchedule.popDue_spec hpop with ⟨rfl, hnone⟩ | ⟨u, slot, rfl, hslot, hdue, hfirst⟩
    · refine .inl ⟨rfl, fun id state hstate => hnone id state.toSlot ?_⟩
      rw [plain_slot, hstate]
      rfl
    · rw [plain_slot, Option.map_eq_some_iff] at hslot
      obtain ⟨state, hstate, rfl⟩ := hslot
      refine .inr ⟨u, state, rfl, hstate, hdue, fun id state' hstate' => hfirst id state'.toSlot ?_⟩
      rw [plain_slot, hstate']
      rfl
  · obtain ⟨clock, _, hpre, -⟩ := hevents e he
    obtain ⟨_, _, _, _, hstep, _⟩ := hr.at_mem he
    simp only [Machine.IsStep, machine, step, hi, ho, Option.some.injEq, Prod.mk.injEq,
      Outcome.due.injEq] at hstep
    refine ⟨by rw [← hstep.2]; rfl, e.pre.plain.inOrder nowMs, e.pre.plain.inOrder_pairwise nowMs,
      e.pre.plain.inOrder_nodup nowMs, fun d => ?_, ?_⟩
    · rw [PlainSchedule.mem_inOrder, plain_slot, and_comm]
      cases e.pre.states[d.2]? <;> simp
    · rw [← hstep.1, dueAgents_refines hpre]
  · obtain ⟨o, s', hstep, -⟩ := step_refines hinv (hlast i hi) hbelow
    exact ⟨o, s', hstep⟩

/-- Entries in their order, as sorted lists. -/
def sortedEntries : PriorityQueue Entry later :=
  PriorityQueue.sortedList later
    (fun a b => by simpa only [later_eq_false_iff] using Due.Before.total a.due b.due)
    (fun a b c => by simpa only [later_eq_false_iff] using Due.Before.trans)

/-- Three agents, an early wake, and pops through both ways. -/
def smallDay : List Op :=
  [.sync [5, 3, 5, 8] 100 1000 7, .wake 3 150, .popDue 160, .dueAgents 1100 2, .popDueAgent 8 1100,
    .popDue 1100, .popDue 1100, .popDue 1100]

theorem scheduler_refines_map_smallDay : ∃ tr s, (machine sortedEntries).Run {} tr s ∧
    tr.map Event.output = [.synced, .woken true, .popped (some ⟨3, 60, 10⟩), .due [8, 5],
      .popped (some ⟨8, 1000, 570⟩), .popped (some ⟨5, 1000, 552⟩), .popped (some ⟨3, 940, 2⟩),
      .popped none] ∧
    PlainSchedule.machine.Run {} (tr.map (Event.map plain)) s.plain := by
  have h : ((machine sortedEntries).exec {} smallDay).map (fun p =>
      (decide (Clocked p.1), p.1.map Event.output)) = some (true, [.synced, .woken true,
        .popped (some ⟨3, 60, 10⟩), .due [8, 5], .popped (some ⟨8, 1000, 570⟩),
        .popped (some ⟨5, 1000, 552⟩), .popped (some ⟨3, 940, 2⟩), .popped none]) := by
    decide +kernel
  obtain ⟨⟨tr, s⟩, hexec, h⟩ := Option.map_eq_some_iff.mp h
  obtain ⟨hclocked, houtputs⟩ := Prod.mk.inj h
  have hrun := Machine.run_of_exec hexec
  exact ⟨tr, s, hrun, houtputs, (scheduler_refines_map hrun (of_decide_eq_true hclocked)).1⟩

end AgentUpdateScheduler

end AIWorld.Scheduler
