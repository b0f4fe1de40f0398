import AIWorld.Agent.AdviceQueue

/-! Safety of the budget, whatever the clock does: admissions are two seconds apart, only
the offered agent is admitted, and an agent leaves the queue for no other reason than
its own call or a sweep that finds it unseen. -/

namespace AIWorld.Agent

open Lib

namespace LivingAdviceBudget

variable {s s' : LivingAdviceBudget} {id now : UInt64} {w : Waiting} {returning : Bool}
  {i : AdviceOp} {o : Bool} {tr : List (Event LivingAdviceBudget AdviceOp Bool)}

/-! ### Parts of a call -/

theorem ids_cancel (s : LivingAdviceBudget) (id : UInt64) :
    (s.cancel id).ids = s.ids.filter fun k => k != id := by
  have hids : (s.waiting.filter fun w => w.id != id).map Waiting.id = s.ids.filter fun k => k != id := by
    rw [ids, List.filter_map]
    rfl
  simp only [cancel]
  split_ifs
  · rw [ids, waiting_passOffer, hids]
  · exact hids

@[simp] theorem admittedAt_cancel (s : LivingAdviceBudget) (id : UInt64) :
    (s.cancel id).admittedAt = s.admittedAt := by
  unfold cancel
  simp only
  split_ifs
  · exact admittedAt_passOffer _
  · rfl

/-- A cancelled agent is no longer offered the budget. -/
theorem cancel_offered {k : UInt64} (h : (s.cancel id).offeredId = some k) :
    s.offeredId = some k ∧ k ≠ id := by
  unfold cancel at h
  simp only at h
  split_ifs at h with hid
  · rw [offeredId_passOffer] at h
    contradiction
  · refine ⟨h, ?_⟩
    rintro rfl
    exact hid (beq_iff_eq.mpr h)

theorem sweepDue_refresh {dispatchable : Bool} :
    (s.refresh id now true returning dispatchable).sweepDue now = false := by
  simp only [refresh, Bool.not_true, if_neg Bool.false_ne_true]
  exact sweepDue_offer _ now

/-- An eligible refresh sweeps the queue and may move one agent. -/
theorem ids_refresh_perm {dispatchable : Bool} :
    (s.refresh id now true returning dispatchable).ids.Perm (s.expire now).ids := by
  simp only [refresh, Bool.not_true, if_neg Bool.false_ne_true]
  refine (ids_offer_perm _ now).trans ?_
  rw [expire_eq_self (by exact sweepDue_expire s now), ids, map_id_restate, ids]

theorem ids_enqueue (s : LivingAdviceBudget) (id now : UInt64) (returning : Bool) :
    (s.enqueue id now returning).ids = s.ids ∨
      id ∉ s.ids ∧ s.ids.length < 2048 ∧ (s.enqueue id now returning).ids = s.ids ++ [id] := by
  unfold enqueue
  split_ifs with h
  · rw [Bool.and_eq_true, decide_eq_true_eq, List.all_eq_true] at h
    refine .inr ⟨fun hmem => ?_, by rw [ids, List.length_map]; exact h.2, List.map_append⟩
    obtain ⟨w, hw, rfl⟩ := List.mem_map.mp hmem
    simpa using h.1 w hw
  · exact .inl rfl

theorem enqueue_frame (s : LivingAdviceBudget) (id now : UInt64) (returning : Bool) :
    (s.enqueue id now returning).admittedAt = s.admittedAt ∧
      (s.enqueue id now returning).sweptAt = s.sweptAt := by
  unfold enqueue
  split_ifs <;> exact ⟨rfl, rfl⟩

/-- The state in which an acquisition decides. -/
def deciding (s : LivingAdviceBudget) (id now : UInt64) (returning : Bool) : LivingAdviceBudget :=
  (s.request id now returning).offer now

theorem acquire_eq (s : LivingAdviceBudget) (id now : UInt64) (returning : Bool) :
    s.acquire id now returning =
      if (s.deciding id now returning).offeredId = some id then
        (true, (s.deciding id now returning).admitAgent id now returning)
      else (false, s.deciding id now returning) := by
  simp only [acquire, ready, deciding, beq_iff_eq]
  rfl

theorem acquire_cases (h : s.acquire id now returning = (o, s')) :
    o = true ∧ (s.deciding id now returning).offeredId = some id ∧
        s' = (s.deciding id now returning).admitAgent id now returning ∨
      o = false ∧ s' = s.deciding id now returning := by
  rw [acquire_eq] at h
  split_ifs at h with hid
  · exact .inl ⟨(congrArg Prod.fst h).symm, hid, (congrArg Prod.snd h).symm⟩
  · exact .inr ⟨(congrArg Prod.fst h).symm, (congrArg Prod.snd h).symm⟩

theorem sweepDue_request (s : LivingAdviceBudget) (id now : UInt64) (returning : Bool) :
    (s.request id now returning).sweepDue now = false := by
  have hdue : (s.refresh id now true returning true).sweepDue now = false := sweepDue_refresh
  rw [sweepDue, request, (enqueue_frame _ id now returning).2, ← sweepDue, hdue]

/-- Before it decides, an acquisition has swept the queue and may have added its agent. -/
theorem ids_deciding (s : LivingAdviceBudget) (id now : UInt64) (returning : Bool) :
    (s.deciding id now returning).ids.Perm (s.expire now).ids ∨
      id ∉ (s.expire now).ids ∧ (s.expire now).ids.length < 2048 ∧
        (s.deciding id now returning).ids.Perm ((s.expire now).ids ++ [id]) := by
  have hrefresh : (s.refresh id now true returning true).ids.Perm (s.expire now).ids := ids_refresh_perm
  have hperm := (s.request id now returning).ids_offer_perm now
  rw [expire_eq_self (sweepDue_request s id now returning)] at hperm
  rcases ids_enqueue (s.refresh id now true returning true) id now returning with hids | ⟨hnew, hlen, hids⟩
  · rw [request, hids] at hperm
    exact .inl (hperm.trans hrefresh)
  · rw [request, hids] at hperm
    refine .inr ⟨fun h => hnew (hrefresh.mem_iff.mpr h), hrefresh.length_eq ▸ hlen, ?_⟩
    exact hperm.trans (hrefresh.append_right [id])

@[simp] theorem admittedAt_deciding (s : LivingAdviceBudget) (id now : UInt64) (returning : Bool) :
    (s.deciding id now returning).admittedAt = s.admittedAt := by
  rw [deciding, admittedAt_offer, request, (enqueue_frame _ id now returning).1]
  simp only [refresh, Bool.not_true, if_neg Bool.false_ne_true, admittedAt_offer, admittedAt_expire]

theorem admit_frame (s : LivingAdviceBudget) (id now : UInt64) (returning : Bool) :
    (s.admitAgent id now returning).ids = (s.ids.filter fun k => k != id) ∧
      (s.admitAgent id now returning).offeredId = none ∧
      (s.admitAgent id now returning).admittedAt = some now := by
  refine ⟨?_, ?_, rfl⟩
  · exact ids_cancel _ id
  · change (cancel _ id).offeredId = none
    simp only [cancel]
    rfl

/-! ### Calls -/

/-- The queue holds each agent once and is bounded. -/
def Bounded (s : LivingAdviceBudget) : Prop := s.ids.Nodup ∧ s.ids.length ≤ 2048

theorem Bounded.of_perm_sublist {l : List UInt64} (h : Bounded s) (hperm : s'.ids.Perm l)
    (hsub : l.Sublist s.ids) : Bounded s' :=
  ⟨hperm.nodup_iff.mpr (h.1.sublist hsub), hperm.length_eq ▸ hsub.length_le.trans h.2⟩

theorem ids_expire_sublist (s : LivingAdviceBudget) (now : UInt64) : (s.expire now).ids.Sublist s.ids :=
  (s.waiting_expire_sublist now).map Waiting.id

theorem Bounded.deciding (h : Bounded s) (id now : UInt64) (returning : Bool) :
    Bounded (s.deciding id now returning) := by
  have hsub := s.ids_expire_sublist now
  rcases ids_deciding s id now returning with hperm | ⟨hnew, hlen, hperm⟩
  · exact h.of_perm_sublist hperm hsub
  · refine ⟨hperm.nodup_iff.mpr ?_, ?_⟩
    · exact List.Nodup.append (h.1.sublist hsub) (List.nodup_singleton id) (by simpa using hnew)
    · rw [hperm.length_eq, List.length_append]
      exact hlen

theorem Bounded.cancel (h : Bounded s) (id : UInt64) : Bounded (s.cancel id) :=
  h.of_perm_sublist (List.Perm.of_eq (ids_cancel s id)) List.filter_sublist

theorem step_bounded (h : Bounded s) (hstep : machine.step s i = some (o, s')) : Bounded s' := by
  cases i with
  | cancel id =>
    cases hstep
    exact h.cancel id
  | refresh id now eligible returning dispatchable =>
    cases hstep
    have hexpire : Bounded (s.expire now) := h.of_perm_sublist (List.Perm.refl _) (s.ids_expire_sublist now)
    cases eligible with
    | false => exact hexpire.cancel id
    | true => exact h.of_perm_sublist ids_refresh_perm (s.ids_expire_sublist now)
  | ready id now =>
    cases hstep
    exact h.of_perm_sublist (s.ids_offer_perm now) (s.ids_expire_sublist now)
  | acquire id now returning =>
    have hmid := h.deciding id now returning
    obtain ⟨-, -, rfl⟩ | ⟨-, rfl⟩ := acquire_cases (Option.some.inj hstep)
    · exact hmid.of_perm_sublist (List.Perm.of_eq (admit_frame _ id now returning).1) List.filter_sublist
    · exact hmid

/-- A call sweeps the queue and finds an entry unseen for half a minute, or seen in the future. -/
def SweepsAway (s : LivingAdviceBudget) (i : AdviceOp) (w : Waiting) : Prop :=
  ∃ now, i.now = some now ∧ s.sweepDue now = true ∧
    (now < w.seenAt ∨ w.seenAt.toNat + 30000 < now.toNat)

instance (s : LivingAdviceBudget) (i : AdviceOp) (w : Waiting) : Decidable (s.SweepsAway i w) :=
  match h : i.now with
  | none => .isFalse fun ⟨_, hi, _⟩ => Option.some_ne_none _ (hi.symm.trans h)
  | some now =>
    decidable_of_iff (s.sweepDue now = true ∧
        (now < w.seenAt ∨ w.seenAt.toNat + 30000 < now.toNat))
      ⟨fun hs => ⟨now, h, hs⟩, fun ⟨_, hi, hs⟩ => Option.some.inj (hi.symm.trans h) ▸ hs⟩

/-- A call by which an agent itself leaves the queue. -/
inductive Leaves (w : Waiting) : AdviceOp → Bool → Prop
  | acquired (now : UInt64) (returning : Bool) : Leaves w (.acquire w.id now returning) true
  | cancelled : Leaves w (.cancel w.id) false
  | ineligible (now : UInt64) (returning dispatchable : Bool) :
      Leaves w (.refresh w.id now false returning dispatchable) false

theorem mem_ids_expire (hw : w ∈ s.waiting) (hi : i.now = some now) :
    w.id ∈ (s.expire now).ids ∨ s.SweepsAway i w := by
  have hswept : w ∈ (s.expire now).waiting ∨ _ := mem_expire hw
  rcases hswept with hmem | ⟨hdue, hunseen⟩
  · exact .inl (List.mem_map_of_mem hmem)
  · exact .inr ⟨now, hi, hdue, w.unseen_iff now |>.mp hunseen⟩

theorem mem_ids_filter_of_ne {l : List UInt64} {k : UInt64} (hk : k ∈ l) (hne : k ≠ id) :
    k ∈ l.filter fun j => j != id := List.mem_filter.mpr ⟨hk, by simpa using hne⟩

theorem mem_ids_deciding {k : UInt64} (hk : k ∈ (s.expire now).ids) :
    k ∈ (s.deciding id now returning).ids := by
  rcases ids_deciding s id now returning with hperm | ⟨-, -, hperm⟩
  · exact hperm.mem_iff.mpr hk
  · exact hperm.mem_iff.mpr (List.mem_append_left _ hk)

/-- Why an agent is no longer queued after a call. -/
theorem step_leaves (hw : w ∈ s.waiting) (hstep : machine.step s i = some (o, s'))
    (hgone : w.id ∉ s'.ids) : Leaves w i o ∨ s.SweepsAway i w := by
  cases i with
  | cancel id =>
    cases hstep
    by_cases hid : w.id = id
    · exact .inl (hid ▸ .cancelled)
    · rw [ids_cancel] at hgone
      exact absurd (mem_ids_filter_of_ne (List.mem_map_of_mem hw) hid) hgone
  | refresh id now eligible returning dispatchable =>
    cases hstep
    refine (mem_ids_expire hw rfl).elim (fun hmem => .inl ?_) .inr
    cases eligible with
    | true => exact absurd (ids_refresh_perm.mem_iff.mpr hmem) hgone
    | false =>
      by_cases hid : w.id = id
      · exact hid ▸ .ineligible now returning dispatchable
      · change w.id ∉ ((s.expire now).cancel id).ids at hgone
        rw [ids_cancel] at hgone
        exact absurd (mem_ids_filter_of_ne hmem hid) hgone
  | ready id now =>
    cases hstep
    refine (mem_ids_expire hw rfl).elim (fun hmem => ?_) .inr
    exact absurd ((s.ids_offer_perm now).mem_iff.mpr hmem) hgone
  | acquire id now returning =>
    refine (mem_ids_expire hw rfl).elim (fun hmem => .inl ?_) .inr
    have hmid : w.id ∈ (s.deciding id now returning).ids := mem_ids_deciding hmem
    obtain ⟨rfl, -, rfl⟩ | ⟨rfl, rfl⟩ := acquire_cases (Option.some.inj hstep)
    · by_cases hid : w.id = id
      · exact hid ▸ .acquired now returning
      · rw [(admit_frame _ id now returning).1] at hgone
        exact absurd (mem_ids_filter_of_ne hmid hid) hgone
    · exact absurd hmid hgone

/-- An agent that is offered the budget and not queued was offered it before, and if it was
queued then, the sweep of this call has removed it. -/
theorem step_offered (hstep : machine.step s i = some (o, s')) (hid : s'.offeredId = some id)
    (hgone : id ∉ s'.ids) :
    s.offeredId = some id ∧ ∀ w ∈ s.waiting, w.id = id → s.SweepsAway i w := by
  cases i with
  | cancel k =>
    cases hstep
    obtain ⟨hoffered, hne⟩ := cancel_offered hid
    refine ⟨hoffered, fun w hw hwid => absurd ?_ hgone⟩
    rw [ids_cancel]
    exact mem_ids_filter_of_ne (hwid ▸ List.mem_map_of_mem hw) hne
  | refresh k now eligible returning dispatchable =>
    cases hstep
    cases eligible with
    | true => exact absurd (offer_offered _ now hid).1 hgone
    | false =>
      obtain ⟨hoffered, hne⟩ := cancel_offered hid
      rw [offeredId_expire] at hoffered
      refine ⟨hoffered, fun w hw hwid => (mem_ids_expire hw rfl).resolve_left fun hmem => hgone ?_⟩
      change id ∈ ((s.expire now).cancel k).ids
      rw [ids_cancel]
      exact mem_ids_filter_of_ne (hwid ▸ hmem) hne
  | ready k now =>
    cases hstep
    exact absurd (offer_offered s now hid).1 hgone
  | acquire k now returning =>
    obtain ⟨-, -, rfl⟩ | ⟨-, rfl⟩ := acquire_cases (Option.some.inj hstep)
    · rw [(admit_frame _ k now returning).2.1] at hid
      contradiction
    · exact absurd (offer_offered _ now hid).1 hgone

/-! ### Runs -/

/-- The event is an acquisition that succeeds at the given time. -/
def Admits (e : Event LivingAdviceBudget AdviceOp Bool) (now : UInt64) : Prop :=
  ∃ id returning, e.input = .acquire id now returning ∧ e.output = true

/-- Only an admission moves the gate, and it needs the gate open. -/
theorem step_admittedAt (hstep : machine.step s i = some (o, s')) :
    s'.admittedAt = s.admittedAt ∧ (∀ id now returning, i = .acquire id now returning → o = false) ∨
      ∃ id now returning, i = .acquire id now returning ∧ o = true ∧ s.isOpen now = true ∧
        s'.admittedAt = some now := by
  cases i with
  | cancel id =>
    cases hstep
    exact .inl ⟨admittedAt_cancel s id, fun _ _ _ h => by contradiction⟩
  | refresh id now eligible returning dispatchable =>
    cases hstep
    refine .inl ⟨?_, fun _ _ _ h => by contradiction⟩
    cases eligible with
    | true => exact (admittedAt_offer _ now).trans (admittedAt_expire s now)
    | false => exact (admittedAt_cancel _ id).trans (admittedAt_expire s now)
  | ready id now =>
    cases hstep
    exact .inl ⟨admittedAt_offer s now, fun _ _ _ h => by contradiction⟩
  | acquire id now returning =>
    obtain ⟨rfl, hid, rfl⟩ | ⟨rfl, rfl⟩ := acquire_cases (Option.some.inj hstep)
    · refine .inr ⟨id, now, returning, rfl, rfl, ?_, (admit_frame _ id now returning).2.2⟩
      have hopen := (offer_offered _ now hid).2
      rw [isOpen, ← admittedAt_offer, ← deciding, admittedAt_deciding] at hopen
      exact hopen
    · exact .inl ⟨admittedAt_deciding s id now returning, fun _ _ _ _ => rfl⟩

/-- Admissions are two seconds apart. -/
theorem admissions_spaced (hr : machine.Run s tr s') :
    tr.Pairwise fun e e' => ∀ now now', Admits e now → Admits e' now' → now.toNat + 2000 ≤ now'.toNat := by
  refine hr.pairwise (P := fun _ => True)
    (Q := fun e s => ∀ now, Admits e now → ∃ a, s.admittedAt = some a ∧ now.toNat ≤ a.toNat)
    (fun _ _ _ _ _ _ => trivial) (fun e _ hstep now hadmits => ?_)
    (fun e s i o s' _ hQ hstep now hadmits => ?_) (fun e e' _ hstep hQ now now' hadmits hadmits' => ?_) trivial
  · obtain ⟨id, returning, hi, ho⟩ := hadmits
    obtain ⟨-, hnot⟩ | ⟨id', now', returning', hi', -, -, hat⟩ := step_admittedAt hstep
    · exact absurd (ho.symm.trans (hnot id now returning hi)) Bool.false_ne_true.symm
    · cases hi.symm.trans hi'
      exact ⟨now, hat, le_rfl⟩
  · obtain ⟨a, ha, hle⟩ := hQ now hadmits
    obtain ⟨hsame, -⟩ | ⟨_, now', _, -, -, hopen, hat⟩ := step_admittedAt hstep
    · exact ⟨a, hsame.trans ha, hle⟩
    · have := isOpen_iff.mp hopen a ha
      exact ⟨now', hat, by omega⟩
  · obtain ⟨a, ha, hle⟩ := hQ now hadmits
    obtain ⟨id, returning, hi, ho⟩ := hadmits'
    obtain ⟨-, hnot⟩ | ⟨_, _, _, hi', -, hopen, -⟩ := step_admittedAt hstep
    · exact absurd (ho.symm.trans (hnot id now' returning hi)) Bool.false_ne_true.symm
    · cases hi.symm.trans hi'
      have := isOpen_iff.mp hopen a ha
      omega

/-- An agent that is offered the budget without being queued was so at the start already, or
a sweep has removed it while it was offered the budget. -/
theorem offered_after_run (hr : machine.Run s tr s') (hid : s'.offeredId = some id) (hgone : id ∉ s'.ids) :
    (s.offeredId = some id ∧ id ∉ s.ids ∧ ∀ e ∈ tr, e.post.offeredId = some id ∧ id ∉ e.post.ids) ∨
      ∃ tr₁ e tr₂, tr = tr₁ ++ e :: tr₂ ∧ e.pre.offeredId = some id ∧
        (∃ w ∈ e.pre.waiting, w.id = id ∧ e.pre.SweepsAway e.input w) ∧
        ∀ e' ∈ e :: tr₂, e'.post.offeredId = some id ∧ id ∉ e'.post.ids := by
  induction hr with
  | nil => exact .inl ⟨hid, hgone, by simp⟩
  | @cons s m s' i o tr hstep hrun ih =>
    obtain ⟨hm, hmgone, hrest⟩ | ⟨tr₁, e, tr₂, rfl, hsplit⟩ := ih hid hgone
    · obtain ⟨hs, hsweep⟩ := step_offered hstep hm hmgone
      have hall : ∀ e ∈ ⟨s, i, o, m⟩ :: tr, e.post.offeredId = some id ∧ id ∉ e.post.ids :=
        List.forall_mem_cons.mpr ⟨⟨hm, hmgone⟩, hrest⟩
      by_cases hmem : id ∈ s.ids
      · obtain ⟨w, hw, hwid⟩ := List.mem_map.mp hmem
        exact .inr ⟨[], _, tr, rfl, hs, ⟨w, hw, hwid, hsweep w hw hwid⟩, hall⟩
      · exact .inl ⟨hs, hmem, hall⟩
    · exact .inr ⟨_ :: tr₁, e, tr₂, rfl, hsplit⟩

/-- The queue under any order of calls and any clock. -/
theorem budget_safe (hr : machine.Run {} tr s) :
    (tr.Pairwise fun e e' =>
      ∀ now now', Admits e now → Admits e' now' → now.toNat + 2000 ≤ now'.toNat) ∧
    (∀ e ∈ tr, ∀ id now returning, e.input = .acquire id now returning → e.output = true →
      (e.pre.deciding id now returning).offeredId = some id ∧
      id ∈ (e.pre.deciding id now returning).ids ∧
      e.post.offeredId = none ∧ e.post.ids.Perm ((e.pre.expire now).ids.filter fun k => k != id)) ∧
    (s.ids.Nodup ∧ s.ids.length ≤ 2048) ∧
    (∀ id, s.offeredId = some id → id ∈ s.ids ∨
      ∃ tr₁ e tr₂, tr = tr₁ ++ e :: tr₂ ∧ e.pre.offeredId = some id ∧
        (∃ w ∈ e.pre.waiting, w.id = id ∧ e.pre.SweepsAway e.input w) ∧
        ∀ e' ∈ e :: tr₂, e'.post.offeredId = some id ∧ id ∉ e'.post.ids) ∧
    ∀ e ∈ tr, ∀ w ∈ e.pre.waiting, w.id ∉ e.post.ids →
      Leaves w e.input e.output ∨ e.pre.SweepsAway e.input w := by
  refine ⟨admissions_spaced hr, fun e he id now returning hi ho => ?_,
    hr.invariant (P := Bounded) (fun _ _ _ _ => step_bounded) ⟨List.nodup_nil, Nat.zero_le _⟩,
    fun id hid => ?_, fun e he w hw hgone => ?_⟩
  · obtain ⟨_, _, _, _, hstep, _⟩ := hr.at_mem he
    rw [Machine.IsStep, hi] at hstep
    obtain ⟨-, hid, hpost⟩ | ⟨hfalse, -⟩ := acquire_cases (Option.some.inj hstep)
    · obtain ⟨hids, hoffered, -⟩ := (e.pre.deciding id now returning).admit_frame id now returning
      refine ⟨hid, (offer_offered _ now hid).1, hpost ▸ hoffered, ?_⟩
      rw [hpost, hids]
      rcases ids_deciding e.pre id now returning with hperm | ⟨-, -, hperm⟩
      · exact hperm.filter _
      · refine (hperm.filter _).trans (List.Perm.of_eq ?_)
        simp
    · exact absurd (ho.symm.trans hfalse) Bool.false_ne_true.symm
  · by_cases hmem : id ∈ s.ids
    · exact .inl hmem
    · obtain ⟨hnone, -⟩ | hswept := offered_after_run hr hid hmem
      · contradiction
      · exact .inr hswept
  · obtain ⟨_, _, _, _, hstep, _⟩ := hr.at_mem he
    exact step_leaves hw hstep hgone

/-- A missed turn, a jump back of the clock that sweeps the offered agent, and its return. -/
def missedTurn : List AdviceOp :=
  [.acquire 99 1000 false, .acquire 1 1000 false, .acquire 2 1000 true, .ready 1 3000,
    .refresh 2 8000 true true true, .refresh 3 20 false false true, .acquire 2 9000 true,
    .acquire 1 40000 false, .cancel 7, .acquire 1 40001 true]

theorem budget_safe_missedTurn : ∃ tr s, machine.Run {} tr s ∧
    tr.map Event.output = [true, false, false, false, false, false, true, true, false, false] ∧
    s.ids.Nodup := by
  have h : (machine.exec {} missedTurn).map (fun p => p.1.map Event.output) =
      some [true, false, false, false, false, false, true, true, false, false] := by decide +kernel
  obtain ⟨⟨tr, s⟩, hexec, houtputs⟩ := Option.map_eq_some_iff.mp h
  have hrun := Machine.run_of_exec hexec
  exact ⟨tr, s, hrun, houtputs, (budget_safe hrun).2.2.1.1⟩

end LivingAdviceBudget

end AIWorld.Agent
