import AIWorld.Scheduler.BudgetSteps

/-! Any run of the thread, with permits moved, finished early and destroyed in any order,
charges each budget and each actor scope for exactly the periods in which permits held it. -/

namespace AIWorld.Scheduler

open Std (ExtTreeMap)
open Lib

namespace PlanningThread

variable {s s' : PlanningThread} {a b p q : ℕ} {limits : ℕ → ℕ} {walks : ℕ → List Tick}
  {budgets : ℕ → ℤ × ℕ} {schedulers : ℕ → PlanningWorkScheduler}
  {tr : List (Event PlanningThread BudgetOp BudgetOutcome)}

/-! ### Runs -/

theorem Books.run (hr : machine.Run s tr s') (h : Books limits walks s) (hs : ∀ b, s.holders b < 2 ^ 32)
    (hfew : ∀ e ∈ tr, ∀ b, e.post.holders b < 2 ^ 32) :
    Books limits (fun b => walks b ++ ticks b tr) s' := by
  induction hr generalizing walks with
  | nil =>
    simp only [ticks, List.filterMap_nil, List.append_nil]
    exact h
  | cons hstep _ ih =>
    obtain ⟨hfirst, hrest⟩ := List.forall_mem_cons.mp hfew
    have hnext := ih (Books.step ⟨_, _, _, _⟩ hstep h hs) hfirst hrest
    convert hnext using 2 with b
    rw [ticks, List.filterMap_cons]
    cases tickOf b _ with
    | none => simp [ticks]
    | some t => simp [ticks]

theorem holders_fresh (b : ℕ) : (fresh budgets schedulers).holders b = 0 := OrdMap.total_empty _

theorem books_fresh : Books (fun b => (budgets b).2) (fun _ => []) (fresh budgets schedulers) := by
  refine ⟨⟨?_, ?_, ?_, ?_, fun b => ⟨rfl, Nat.zero_le _⟩, ?_, ?_⟩, fun b => ⟨[], [], ?_⟩⟩
  · intro a ha
    contradiction
  · intro a ha
    contradiction
  · intro a ha
    contradiction
  · intro b a ha
    contradiction
  · intro a ha
    contradiction
  · intro a ha
    contradiction
  · refine ⟨.nil, by rw [holders_fresh]; rfl, by rw [holders_fresh]; rfl, by simp [begun], by simp [begun], by simp,
      fun _ => rfl, rfl, rfl, ?_, ?_⟩
    · intro a ha
      contradiction
    · intro a ha
      contradiction

/-- The books of a run from the start. -/
theorem books_run (hr : machine.Run (fresh budgets schedulers) tr s)
    (hfew : ∀ e ∈ tr, ∀ b, e.post.holders b < 2 ^ 32) :
    Books (fun b => (budgets b).2) (fun b => ticks b tr) s := by
  have h := books_fresh.run hr (fun b => by rw [holders_fresh]; exact Nat.two_pow_pos 32) hfew
  simpa only [List.nil_append] using h

/-- At every point of a run few permits are outstanding, if after each event. -/
theorem holders_lt (hr : machine.Run (fresh budgets schedulers) tr s)
    (hfew : ∀ e ∈ tr, ∀ b, e.post.holders b < 2 ^ 32) (b : ℕ) : s.holders b < 2 ^ 32 := by
  rcases List.eq_nil_or_concat' tr with rfl | ⟨before, e, rfl⟩
  · cases hr
    rw [holders_fresh]
    exact Nat.two_pow_pos 32
  · obtain ⟨-, -, hend⟩ := hr.split_cons
    cases hend
    exact hfew e (by simp) b

/-- Only acquisitions are made under an actor scope. -/
theorem up_of_actor {t : Tick} (ht : t ∈ ticks b tr) (ha : t.actor = some a) : t.up = true := by
  obtain ⟨e, -, htick⟩ := List.mem_filterMap.mp ht
  unfold tickOf at htick
  cases hi : e.input with
  | tryAcquire p now =>
    simp only [hi] at htick
    split_ifs at htick
    cases htick
    rfl
  | finish p now | destroy p now | moveAssign p q now =>
    simp only [hi] at htick
    split_ifs at htick
    cases htick
    contradiction
  | _ =>
    simp only [hi] at htick
    contradiction

/-- An actor scope started some operation if and only if some permit was acquired under it. -/
theorem Books.worked (h : Books limits (fun b => ticks b tr) s) (ha : a < s.entered) :
    (s.actors a).started ≠ 0 ↔ ∃ b, (s.actors a).budget = some b ∧ ∃ t ∈ ticks b tr, t.actor = some a := by
  cases hbudget : (s.actors a).budget with
  | none =>
    rw [h.valid.unbound a ha hbudget]
    simp
  | some b =>
    obtain ⟨closed, current, haccounts⟩ := h.accounts b
    have hbegun : (begun closed current).flatten = ticks b tr := by
      rw [haccounts.cut.eq, begun]
      split_ifs with hnil
      · rw [hnil, List.append_nil]
      · rw [List.flatten_append, List.flatten_singleton]
    rw [haccounts.actorStarted a ha hbudget, ← Nat.pos_iff_ne_zero, List.countP_pos_iff]
    constructor
    · rintro ⟨part, hpart, hopener⟩
      obtain ⟨t, hhead, htime⟩ := Option.bind_eq_some_iff.mp (of_decide_eq_true hopener)
      refine ⟨b, rfl, t, ?_, htime⟩
      rw [← hbegun]
      exact List.mem_flatten.mpr ⟨part, hpart, List.mem_of_mem_head? hhead⟩
    · rintro ⟨b', hb', t, ht, htime⟩
      cases hb'
      have hup := up_of_actor ht htime
      rw [← hbegun] at ht
      obtain ⟨part, hpart, htpart⟩ := List.mem_flatten.mp ht
      exact ⟨part, hpart, decide_eq_true ((haccounts.opened part hpart t htpart hup).symm.trans htime)⟩

/-- A permit is given out exactly if the check allows it. What is acquired while another permit is
outstanding is free. -/
theorem tryAcquire_granted {e : Event PlanningThread BudgetOp BudgetOutcome} (hstep : machine.IsStep e)
    {now : ℤ} (hi : e.input = .tryAcquire p now) (hactive : e.pre.active = some b) :
    e.post.permits[p]? = some (if e.pre.canStart b then ⟨some b, true⟩ else ⟨none, false⟩) ∧
      ((e.pre.budgets b).queryDepth ≠ 0 → e.post.actors = e.pre.actors ∧ e.post.schedulers = e.pre.schedulers ∧
        (e.post.budgets b).statistics.started = (e.pre.budgets b).statistics.started ∧
        (e.post.budgets b).spent = (e.pre.budgets b).spent) := by
  obtain ⟨s, i, o, s'⟩ := e
  cases hi
  change s.active = some b at hactive
  change s'.permits[p]? = some (if s.canStart b then ⟨some b, true⟩ else ⟨none, false⟩) ∧
    ((s.budgets b).queryDepth ≠ 0 → s'.actors = s.actors ∧ s'.schedulers = s.schedulers ∧
      (s'.budgets b).statistics.started = (s.budgets b).statistics.started ∧
      (s'.budgets b).spent = (s.budgets b).spent)
  have hstep : s.step (.tryAcquire p now) = some (o, s') := hstep
  simp only [PlanningThread.step] at hstep
  split_ifs at hstep
  cases hstep
  have hpermit (t : PlanningThread) (permit : Permit) : (t.setPermit p permit).permits[p]? = some permit :=
    ExtTreeMap.getElem?_insert_self
  have hcases := tryAcquire_cases s now
  generalize s.tryAcquire now = answer at hcases ⊢
  obtain ⟨permit, t⟩ := answer
  rw [hpermit]
  cases hcases with
  | unbounded h =>
    rw [h] at hactive
    contradiction
  | refused h hstart =>
    cases h.symm.trans hactive
    rw [hstart]
    refine ⟨rfl, fun _ => ⟨rfl, rfl, ?_⟩⟩
    change ((s.defer b).budgets b).statistics.started = _ ∧ ((s.defer b).budgets b).spent = _
    rw [defer, budgets_setBudget_self]
    exact ⟨rfl, rfl⟩
  | nested h hdepth hactor =>
    cases h.symm.trans hactive
    have hstart : s.canStart b = true := by simp [canStart, hdepth, hactor]
    rw [hstart]
    refine ⟨rfl, fun _ => ⟨rfl, rfl, ?_⟩⟩
    exact budgets_setBudget_self s b _ ▸ ⟨rfl, rfl⟩
  | alone h hdepth hstart | admitted h hdepth hstart =>
    cases h.symm.trans hactive
    rw [hstart]
    exact ⟨rfl, fun hne => absurd hdepth hne⟩

/-- Only the end of an actor scope reports to a scheduler. -/
theorem ended_cases {i : BudgetOp} {n : ℕ} {id : UInt64} {didWork : Bool}
    (h : s.step i = some (.ended n id didWork, s')) :
    ∃ a frames, s.frames = .actor a :: frames ∧ n = (s.actors a).scheduler ∧ id = (s.actors a).id ∧
      didWork = decide ((s.actors a).started ≠ 0) ∧ s' = { s.leaveActor a with frames } := by
  cases i with
  | leave =>
    obtain ⟨_, _, -, ho, -⟩ | ⟨a, frames, hframes, -, ho, hpost⟩ := leave_cases h
    · contradiction
    · cases ho
      exact ⟨a, frames, hframes, rfl, rfl, rfl, hpost⟩
  | enterScope | enterActor | markDeferred => cases h
  | tryAcquire p now =>
    simp only [PlanningThread.step] at h
    split_ifs at h
    cases h
  | finish p now | destroy p now =>
    obtain ⟨permit, -, h⟩ := Option.bind_eq_some_iff.mp h
    cases h
  | moveConstruct p q =>
    obtain ⟨permit, -, h⟩ := Option.bind_eq_some_iff.mp h
    split_ifs at h
    cases h
  | moveAssign p q now =>
    obtain ⟨permit, -, h⟩ := Option.bind_eq_some_iff.mp h
    obtain ⟨other, -, h⟩ := Option.bind_eq_some_iff.mp h
    split_ifs at h <;> cases h
  | planning n op =>
    obtain ⟨answer, -, h⟩ := Option.bind_eq_some_iff.mp h
    cases h

/-- While fewer than `2 ^ 32` permits hold a budget at a time: its depth is their number; it is
charged for the excursions of its walk, each under the actor scope that opened it; no limit is
exceeded; a permit is refused only by the check, and is free while another is outstanding;
and the end of an actor scope reports work exactly if a permit was acquired under it. -/
theorem budget_accounts (hr : machine.Run (fresh budgets schedulers) tr s)
    (hfew : ∀ e ∈ tr, ∀ b, e.post.holders b < 2 ^ 32) :
    (∀ b, (s.budgets b).queryDepth.toNat = s.holders b ∧ (s.budgets b).statistics.started ≤ (budgets b).2 ∧
      ∃ closed current, CutsInto Tick.up (ticks b tr) closed current ∧
        (∀ part ∈ begun closed current, ∀ t ∈ part, t.up = true → t.actor = opener part) ∧
        (s.budgets b).statistics.started = (begun closed current).length ∧
        (s.budgets b).spent = (closed.map cost).sum ∧
        ∀ a < s.entered, (s.actors a).budget = some b →
          (s.actors a).started = (begun closed current).countP (fun part => opener part = some a) ∧
          (s.actors a).spent = ((closed.filter fun part => opener part = some a).map cost).sum) ∧
    (∀ a < s.entered, (s.actors a).started ≤ (s.actors a).operations) ∧
    (∀ e ∈ tr, ∀ p now b, e.input = .tryAcquire p now → e.pre.active = some b →
      e.post.permits[p]? = some (if e.pre.canStart b then ⟨some b, true⟩ else ⟨none, false⟩) ∧
      (0 < e.pre.holders b → e.post.actors = e.pre.actors ∧ e.post.schedulers = e.pre.schedulers ∧
        (e.post.budgets b).statistics.started = (e.pre.budgets b).statistics.started ∧
        (e.post.budgets b).spent = (e.pre.budgets b).spent)) ∧
    ∀ tr₁ e tr₂, tr = tr₁ ++ e :: tr₂ → ∀ n id didWork, e.output = .ended n id didWork →
      ∃ a frames, e.pre.frames = .actor a :: frames ∧ n = (e.pre.actors a).scheduler ∧ id = (e.pre.actors a).id ∧
        e.post.schedulers n = (e.pre.schedulers n).endActor id didWork ∧
        (didWork = true ↔ ∃ b, (e.pre.actors a).budget = some b ∧ ∃ t ∈ ticks b tr₁, t.actor = some a) := by
  have hbooks := books_run hr hfew
  have hdepth {t : PlanningThread} {tr₁} (h : Books (fun b => (budgets b).2) (fun b => ticks b tr₁) t)
      (hlt : ∀ b, t.holders b < 2 ^ 32) (b : ℕ) : (t.budgets b).queryDepth.toNat = t.holders b := by
    obtain ⟨closed, current, haccounts⟩ := h.accounts b
    rw [haccounts.depth, UInt32.toNat_ofNat_of_lt' (hlt b)]
  have hpre {tr₁ e tr₂} (htr : tr = tr₁ ++ e :: tr₂) :
      machine.Run (fresh budgets schedulers) tr₁ e.pre ∧ machine.IsStep e ∧
        ∀ e' ∈ tr₁, ∀ b, e'.post.holders b < 2 ^ 32 := by
    subst htr
    obtain ⟨hrun, hstep, -⟩ := hr.split_cons
    exact ⟨hrun, hstep, fun e' he' => hfew e' (List.mem_append_left _ he')⟩
  refine ⟨fun b => ?_, hbooks.valid.actorLimit, fun e he p now b hi hactive => ?_, fun tr₁ e tr₂ htr n id didWork ho => ?_⟩
  · obtain ⟨closed, current, haccounts⟩ := hbooks.accounts b
    refine ⟨hdepth hbooks (holders_lt hr hfew) b, (hbooks.valid.limit b).2, closed, current, haccounts.cut,
      haccounts.opened, haccounts.started, haccounts.spent, fun a ha hb => ?_⟩
    exact ⟨haccounts.actorStarted a ha hb, haccounts.actorSpent a ha hb⟩
  · obtain ⟨tr₁, tr₂, htr, -⟩ := hr.at_mem he
    obtain ⟨hrun, hstep, hfew₁⟩ := hpre htr
    obtain ⟨hgranted, hfree⟩ := tryAcquire_granted hstep hi hactive
    refine ⟨hgranted, fun hholders => hfree fun hzero => ?_⟩
    have := hdepth (books_run hrun hfew₁) (holders_lt hrun hfew₁) b
    rw [hzero, UInt32.toNat_zero] at this
    omega
  · obtain ⟨hrun, hstep, hfew₁⟩ := hpre htr
    rw [Machine.IsStep, ho] at hstep
    obtain ⟨a, frames, hframes, hn, hid, hwork, hpost⟩ := ended_cases hstep
    have hold := books_run hrun hfew₁
    have ha : a < e.pre.entered := hold.valid.frames a (by rw [hframes]; exact .head _)
    refine ⟨a, frames, hframes, hn, hid, ?_, ?_⟩
    · rw [hpost, hn, hid, hwork]
      exact Function.update_self ..
    · rw [← hold.worked ha, hwork, decide_eq_true_eq]

/-- Permits are nested, finished early and moved while an agent works. -/
def oneAgent : List BudgetOp :=
  [.enterScope 0, .planning 0 (.request 1 0), .planning 0 (.beginFrame 0 [1]), .enterActor 0 1 500 4,
    .tryAcquire 0 100, .tryAcquire 1 150, .finish 0 200, .moveConstruct 2 1, .destroy 2 400, .finish 0 500, .leave]

theorem holders_le_length (s : PlanningThread) (b : ℕ) : s.holders b ≤ s.permits.toList.length := by
  have hle := List.sum_le_card_nsmul (s.permits.toList.map fun entry => holding b entry.2) 1 fun n hn => by
    obtain ⟨entry, -, rfl⟩ := List.mem_map.mp hn
    unfold holding
    split_ifs <;> omega
  rwa [List.length_map, nsmul_one] at hle

theorem budget_accounts_oneAgent : ∃ tr s, machine.Run (fresh (fun _ => (2000, 8)) fun _ => {}) tr s ∧
    tr.getLast?.map Event.output = some (.ended 0 1 true) ∧
    ((s.budgets 0).queryDepth.toNat = s.holders 0 ∧ (s.budgets 0).statistics.started ≤ 8) ∧
    (s.budgets 0).statistics.started = 1 ∧ (s.budgets 0).spent = 300 ∧ (s.actors 0).spent = 300 := by
  have h : (machine.exec (fresh (fun _ => (2000, 8)) fun _ => {}) oneAgent).map (fun p =>
      (p.1.getLast?.map Event.output, p.1.all fun e => e.post.permits.toList.length < 2 ^ 32,
        (p.2.budgets 0).statistics.started, (p.2.budgets 0).spent, (p.2.actors 0).spent)) =
      some (some (.ended 0 1 true), true, 1, 300, 300) := by decide +kernel
  obtain ⟨⟨tr, s⟩, hexec, h⟩ := Option.map_eq_some_iff.mp h
  simp only [Prod.mk.injEq] at h
  obtain ⟨hlast, hfew, hstarted, hspent, hactor⟩ := h
  have hrun := Machine.run_of_exec hexec
  have hlt : ∀ e ∈ tr, ∀ b, e.post.holders b < 2 ^ 32 := fun e he b =>
    (holders_le_length e.post b).trans_lt (of_decide_eq_true (List.all_eq_true.mp hfew e he))
  obtain ⟨hdepth, hlimit, -⟩ := (budget_accounts hrun hlt).1 0
  exact ⟨tr, s, hrun, hlast, ⟨hdepth, hlimit⟩, hstarted, hspent, hactor⟩

/-! ### When the depth comes round -/

/-- Many permits are outstanding. -/
structure Crowded (n : ℕ) (s : PlanningThread) : Prop where
  active : s.active = some 0
  actor : s.actor = none
  queryActor : (s.budgets 0).queryActor = none
  depth : (s.budgets 0).queryDepth = UInt32.ofNat n
  holders : s.holders 0 = n
  unused : ∀ p ≥ n, s.permits[p]? = none

/-- A permit is handed out. -/
theorem Crowded.next {t : PlanningThread} {n : ℕ} (hpermits : ∀ p ≥ n, s.permits[p]? = none) (hholders : s.holders 0 = n)
    (hacquire : s.tryAcquire 0 = (⟨some 0, true⟩, t)) (hsame : t.permits = s.permits)
    (hactive : t.active = some 0) (hactor : t.actor = none) (hquery : (t.budgets 0).queryActor = none)
    (hdepth : (t.budgets 0).queryDepth = UInt32.ofNat n + 1) :
    ∃ s', machine.step s (.tryAcquire n 0) = some (.acquired true, s') ∧ Crowded (n + 1) s' := by
  have hnew : n ∉ s.permits := fun hmem => by
    have hnone := hpermits n le_rfl
    rw [ExtTreeMap.getElem?_eq_some_getElem hmem] at hnone
    contradiction
  refine ⟨t.setPermit n ⟨some 0, true⟩, ?_, hactive, hactor, hquery, ?_, ?_, fun p hp => ?_⟩
  · change s.step (.tryAcquire n 0) = _
    rw [step, if_neg hnew, hacquire]
  · rw [UInt32.ofNat_add]
    exact hdepth
  · have hheld : t.holders 0 = s.holders 0 := by
      rw [PlanningThread.holders, hsame, PlanningThread.holders]
    rw [holders_setPermit_new (hsame ▸ hpermits n le_rfl), holding_eq_one rfl, hheld, hholders]
  · refine (OrdMap.getElem?_insert_ne _ _ (by omega)).trans ?_
    rw [hsame]
    exact hpermits p (by omega)

theorem Crowded.more {n : ℕ} (h : Crowded n s) (hpos : 0 < n) (hn : n < 2 ^ 32) :
    ∃ s', machine.step s (.tryAcquire n 0) = some (.acquired true, s') ∧ Crowded (n + 1) s' := by
  have hdepth : (s.budgets 0).queryDepth ≠ 0 := fun hzero => by
    have := ofNat_eq_zero (h.depth.symm.trans hzero) hn
    omega
  have hcurrent : s.currentActor 0 = none := by rw [currentActor, h.actor]
  have hstart : s.canStart 0 = true := by simp [canStart, hdepth, hcurrent, h.queryActor]
  have hacquire : s.tryAcquire 0 = (⟨some 0, true⟩,
      s.setBudget 0 { s.budgets 0 with queryDepth := (s.budgets 0).queryDepth + 1 }) := by
    simp [tryAcquire, h.active, hstart, hdepth]
  refine Crowded.next h.unused h.holders hacquire rfl h.active h.actor ?_ ?_
  · rw [budgets_setBudget_self]
    exact h.queryActor
  · rw [budgets_setBudget_self, ← h.depth]

theorem crowded_reachable (n : ℕ) (hn : n < 2 ^ 32) : ∃ s,
    machine.Reachable (fresh (fun _ => (1, 1)) fun _ => {}) s ∧ Crowded (n + 1) s := by
  induction n with
  | zero =>
    let start := (fresh (fun _ => (1, 1)) fun _ => {}).enterScope 0
    have hempty : ∀ p ≥ 0, start.permits[p]? = none := fun p _ => ExtTreeMap.getElem?_empty
    have hnone : start.holders 0 = 0 := OrdMap.total_empty _
    have hentered : machine.step (fresh (fun _ => (1, 1)) fun _ => {}) (.enterScope 0) = some (.done, start) := rfl
    obtain ⟨s, hstep, hs⟩ := Crowded.next (t := start.beginQuery 0 0 none) hempty hnone rfl rfl rfl rfl rfl rfl
    exact ⟨s, ((Machine.Reachable.refl _).step hentered).step hstep, hs⟩
  | succ n ih =>
    obtain ⟨s, hreach, hs⟩ := ih (by omega)
    obtain ⟨s', hstep, hs'⟩ := hs.more n.succ_pos hn
    exact ⟨s', hreach.step hstep, hs'⟩

/-- With as many permits as the depth has values, the budget looks unused. -/
theorem depth_comes_round : ¬ ∀ budgets schedulers tr s, machine.Run (fresh budgets schedulers) tr s →
    ∀ b, (s.budgets b).queryDepth.toNat = s.holders b := by
  intro h
  obtain ⟨s, ⟨tr, hr⟩, hs⟩ := crowded_reachable (2 ^ 32 - 1) (by decide)
  have heq := h _ _ tr s hr 0
  rw [hs.depth, hs.holders] at heq
  exact absurd heq (by decide)

end PlanningThread

end AIWorld.Scheduler
