import AIWorld.Scheduler.BudgetAccounts

/-! Every step of the thread keeps the books of every budget right, as long as the depth
counter, which has 32 bits, can tell the outstanding permits apart. -/

namespace AIWorld.Scheduler

open Std (ExtTreeMap)
open Lib

namespace PlanningThread

variable {s s' : PlanningThread} {a b p q : ℕ} {now : ℤ} {permit : Permit}
  {walk : List Tick} {closed : List (List Tick)} {current : List Tick} {limits : ℕ → ℕ}

/-! ### References and limits -/

/-- No reference is set and nothing is started. -/
structure Quiet (s s' : PlanningThread) : Prop where
  entered : s'.entered = s.entered
  actor : s'.actor = s.actor
  frames : s'.frames = s.frames
  actors : ∀ a, (s'.actors a).budget = (s.actors a).budget ∧ (s'.actors a).previous = (s.actors a).previous ∧
    (s'.actors a).operations = (s.actors a).operations ∧ (s'.actors a).started = (s.actors a).started
  budgets : ∀ b, (s'.budgets b).operations = (s.budgets b).operations ∧
    (s'.budgets b).statistics.started = (s.budgets b).statistics.started ∧
    ∀ a, (s'.budgets b).queryActor = some a → (s.budgets b).queryActor = some a

theorem Quiet.of_eq (hentered : s'.entered = s.entered) (hactor : s'.actor = s.actor)
    (hframes : s'.frames = s.frames) (hactors : s'.actors = s.actors) (hbudgets : s'.budgets = s.budgets) :
    Quiet s s' :=
  ⟨hentered, hactor, hframes, fun _ => hactors ▸ ⟨rfl, rfl, rfl, rfl⟩,
    fun _ => hbudgets ▸ ⟨rfl, rfl, fun _ h => h⟩⟩

theorem Quiet.trans {s'' : PlanningThread} (h : Quiet s s') (h' : Quiet s' s'') : Quiet s s'' where
  entered := h'.entered.trans h.entered
  actor := h'.actor.trans h.actor
  frames := h'.frames.trans h.frames
  actors a := by
    obtain ⟨hb, hp, ho, hs⟩ := h.actors a
    obtain ⟨hb', hp', ho', hs'⟩ := h'.actors a
    exact ⟨hb'.trans hb, hp'.trans hp, ho'.trans ho, hs'.trans hs⟩
  budgets b := by
    obtain ⟨ho, hs, hq⟩ := h.budgets b
    obtain ⟨ho', hs', hq'⟩ := h'.budgets b
    exact ⟨ho'.trans ho, hs'.trans hs, fun a ha => hq a (hq' a ha)⟩

theorem Quiet.setBudget {budget : PlanningWorkBudget} (hoperations : budget.operations = (s.budgets b).operations)
    (hstarted : budget.statistics.started = (s.budgets b).statistics.started)
    (hactor : ∀ a, budget.queryActor = some a → (s.budgets b).queryActor = some a) :
    Quiet s (s.setBudget b budget) := by
  refine ⟨rfl, rfl, rfl, fun _ => ⟨rfl, rfl, rfl, rfl⟩, fun b' => ?_⟩
  by_cases hb : b' = b
  · subst hb
    rw [budgets_setBudget_self]
    exact ⟨hoperations, hstarted, hactor⟩
  · rw [budgets_setBudget_of_ne s budget hb]
    exact ⟨rfl, rfl, fun _ h => h⟩

theorem Quiet.setActor {actor : ActorScope} (hbudget : actor.budget = (s.actors a).budget)
    (hprevious : actor.previous = (s.actors a).previous) (hoperations : actor.operations = (s.actors a).operations)
    (hstarted : actor.started = (s.actors a).started) : Quiet s (s.setActor a actor) := by
  refine ⟨rfl, rfl, rfl, fun a' => ?_, fun _ => ⟨rfl, rfl, fun _ h => h⟩⟩
  by_cases ha : a' = a
  · subst ha
    rw [actors_setActor_self]
    exact ⟨hbudget, hprevious, hoperations, hstarted⟩
  · rw [actors_setActor_of_ne s actor ha]
    exact ⟨rfl, rfl, rfl, rfl⟩

theorem Quiet.charge (s : PlanningThread) (b : ℕ) (elapsed : ℤ) : Quiet s (s.charge b elapsed) := by
  have hset (spent : ℤ) (operationUs maxOperationUs : ℕ) : Quiet s (s.setBudget b
      { s.budgets b with
        spent
        statistics := { (s.budgets b).statistics with operationUs, maxOperationUs }
        queryActor := none }) :=
    Quiet.setBudget rfl rfl fun _ h => absurd h.symm (Option.some_ne_none _)
  unfold PlanningThread.charge
  simp only
  cases (s.budgets b).queryActor with
  | none => exact hset ..
  | some a => exact (hset ..).trans (Quiet.setActor rfl rfl rfl rfl)

theorem Quiet.finish (s : PlanningThread) (p : ℕ) (permit : Permit) (now : ℤ) :
    Quiet s (s.finish p permit now) := by
  unfold PlanningThread.finish
  cases permit.budget with
  | none => exact .of_eq rfl rfl rfl rfl rfl
  | some b =>
    have hpermit (t : PlanningThread) (permit : Permit) : Quiet t (t.setPermit p permit) :=
      .of_eq rfl rfl rfl rfl rfl
    refine Quiet.trans ?_ (hpermit _ _)
    have hdepth : Quiet s (s.setBudget b { s.budgets b with queryDepth := (s.budgets b).queryDepth - 1 }) :=
      Quiet.setBudget rfl rfl fun _ h => h
    unfold PlanningThread.finishQuery
    simp only
    split_ifs
    · exact hdepth
    · exact hdepth.trans (Quiet.charge _ b _)

theorem Valid.quiet (h : Valid limits s) (hs : Quiet s s') : Valid limits s' where
  actor a ha := by
    rw [hs.entered]
    exact h.actor a (hs.actor ▸ ha)
  previous a ha a' ha' := by
    rw [hs.entered] at ha ⊢
    exact h.previous a ha a' ((hs.actors a).2.1 ▸ ha')
  frames a ha := by
    rw [hs.entered]
    exact h.frames a (hs.frames ▸ ha)
  query b a ha := by
    rw [hs.entered, (hs.actors a).1]
    exact h.query b a ((hs.budgets b).2.2 a ha)
  limit b := by
    rw [(hs.budgets b).1, (hs.budgets b).2.1]
    exact h.limit b
  unbound a ha hnone := by
    rw [(hs.actors a).2.2.2]
    exact h.unbound a (hs.entered ▸ ha) ((hs.actors a).1 ▸ hnone)
  actorLimit a ha := by
    rw [(hs.actors a).2.2.1, (hs.actors a).2.2.2]
    exact h.actorLimit a (hs.entered ▸ ha)

/-! ### Acquisitions -/

theorem permits_of_acquires {t : PlanningThread} (h : Acquires s now permit t) : t.permits = s.permits := by
  cases h <;> rfl

theorem Valid.currentActor (h : Valid limits s) (ha : s.currentActor b = some a) :
    a < s.entered ∧ (s.actors a).budget = some b :=
  ⟨h.actor a (currentActor_eq_some ha).1, (currentActor_eq_some ha).2⟩

/-- A query begins under the current actor scope, which is charged one operation if there is one. -/
theorem Valid.beginQuery (h : Valid limits s) (hstart : s.canStart b = true) (hdepth : (s.budgets b).queryDepth = 0)
    {t : PlanningThread} (hentered : t.entered = s.entered) (hactor : t.actor = s.actor)
    (hframes : t.frames = s.frames) (hbudgets : t.budgets = s.budgets)
    (hactors : ∀ a, (t.actors a).budget = (s.actors a).budget ∧ (t.actors a).previous = (s.actors a).previous ∧
      (t.actors a).operations = (s.actors a).operations ∧ (t.actors a).started =
        (s.actors a).started + (if s.currentActor b = some a then 1 else 0)) :
    Valid limits (t.beginQuery b now (s.currentActor b)) := by
  obtain ⟨-, hlimit, hcan⟩ := canStart_outermost hstart hdepth
  refine ⟨fun a ha => ?_, fun a ha a' ha' => ?_, fun a ha => ?_, fun b' a ha => ?_, fun b' => ?_, fun a ha hnone => ?_,
    fun a ha => ?_⟩
  · change a < t.entered
    rw [hentered]
    exact h.actor a (hactor ▸ ha)
  · change (t.actors a).previous = some a' at ha'
    change a < t.entered at ha
    change a' < t.entered
    rw [hentered] at ha ⊢
    exact h.previous a ha a' ((hactors a).2.1 ▸ ha')
  · change a < t.entered
    rw [hentered]
    exact h.frames a (hframes ▸ ha)
  · change a < t.entered ∧ (t.actors a).budget = some b'
    rw [hentered, (hactors a).1]
    by_cases hb : b' = b
    · subst hb
      rw [PlanningThread.beginQuery, budgets_setBudget_self] at ha
      exact h.currentActor ha
    · rw [PlanningThread.beginQuery, budgets_setBudget_of_ne t _ hb, hbudgets] at ha
      exact h.query b' a ha
  · by_cases hb : b' = b
    · subst hb
      rw [PlanningThread.beginQuery, budgets_setBudget_self, hbudgets]
      exact ⟨(h.limit b').1, (h.limit b').1 ▸ hlimit⟩
    · rw [PlanningThread.beginQuery, budgets_setBudget_of_ne t _ hb, hbudgets]
      exact h.limit b'
  · change (t.actors a).started = 0
    change a < t.entered at ha
    change (t.actors a).budget = none at hnone
    obtain ⟨hbudget, -, -, hstarted⟩ := hactors a
    rw [hbudget] at hnone
    have hother : s.currentActor b ≠ some a := fun hcurrent =>
      absurd ((currentActor_eq_some hcurrent).2.symm.trans hnone) (Option.some_ne_none b)
    rw [hstarted, if_neg hother, h.unbound a (hentered ▸ ha) hnone]
  · change (t.actors a).started ≤ (t.actors a).operations
    change a < t.entered at ha
    obtain ⟨-, -, hoperations, hstarted⟩ := hactors a
    rw [hoperations, hstarted]
    have hold := h.actorLimit a (hentered ▸ ha)
    split_ifs with hcurrent
    · exact (actorCanStart_spec (hcan a hcurrent)).1
    · exact hold

theorem Valid.acquires {t : PlanningThread} (h : Valid limits s) (ht : Acquires s now permit t) : Valid limits t := by
  cases ht with
  | unbounded => exact h
  | refused => exact h.quiet (Quiet.setBudget rfl rfl fun _ h => h)
  | nested => exact h.quiet (Quiet.setBudget rfl rfl fun _ h => h)
  | alone hactive hdepth hstart hactor =>
    rw [← hactor]
    refine h.beginQuery hstart hdepth rfl rfl rfl rfl fun a => ⟨rfl, rfl, rfl, ?_⟩
    rw [hactor, if_neg (Option.some_ne_none a).symm, add_zero]
  | @admitted b k scheduler hactive hdepth hstart hactor =>
    rw [← hactor]
    refine h.beginQuery hstart hdepth rfl rfl rfl rfl fun a => ?_
    rw [hactor]
    by_cases ha : a = k
    · subst ha
      rw [actors_setActor_self, if_pos rfl]
      exact ⟨rfl, rfl, rfl, rfl⟩
    · rw [actors_setActor_of_ne _ _ ha, if_neg fun heq => ha (Option.some.inj heq).symm]
      exact ⟨rfl, rfl, rfl, rfl⟩

/-- The books after a permit that the budget does not give out. -/
theorem SameBooks.acquires {t : PlanningThread} (ht : Acquires s now permit t) (hb : permit.budget ≠ some b)
    (hp : s.permits[p]? = none) : SameBooks b s (t.setPermit p permit) := by
  have hpermits := permits_of_acquires ht
  have hholders : (t.setPermit p permit).holders b = s.holders b := by
    rw [holders_setPermit_new (hpermits ▸ hp), holding_eq_zero hb, add_zero, PlanningThread.holders, hpermits,
      PlanningThread.holders]
  have hsame : SameBooks b s t := by
    cases ht with
    | unbounded => exact .refl b s
    | refused => exact SameBooks.defer b _ s
    | nested => exact SameBooks.setBudget (fun h => hb (by rw [h])) s _
    | alone => exact SameBooks.setBudget (fun h => hb (by rw [h])) s _
    | @admitted b₀ a scheduler hactive hdepth hstart hactor =>
      have hne : b ≠ b₀ := fun h => hb (by rw [h])
      have hother : (s.actors a).budget ≠ some b := by
        rw [(currentActor_eq_some hactor).2]
        exact fun h => hne (Option.some.inj h).symm
      let admitted := s.setScheduler (s.actors a).scheduler scheduler
      let charged := admitted.setActor a { s.actors a with started := (s.actors a).started + 1 }
      have hscheduler : SameBooks b s admitted :=
        ⟨rfl, rfl, rfl, rfl, rfl, rfl, rfl, fun _ _ h => ⟨h, rfl, rfl⟩⟩
      have hcharged : SameBooks b admitted charged := SameBooks.setActor hother rfl
      exact (hscheduler.trans hcharged).trans (SameBooks.setBudget hne charged _)
  exact hsame.of_holders hholders rfl rfl rfl

/-- The books after a permit that the budget gives out. -/
theorem Accounts.acquires {t : PlanningThread} (h : Accounts b walk closed current s) (hv : Valid limits s)
    (hfew : s.holders b < 2 ^ 32) (ht : Acquires s now permit t) (hb : permit.budget = some b)
    (hp : s.permits[p]? = none) : ∃ current', Accounts b (walk ++ [⟨true, now, s.currentActor b⟩]) closed current'
      (t.setPermit p permit) := by
  have hpermits := permits_of_acquires ht
  have hholders : (t.setPermit p permit).holders b = s.holders b + 1 := by
    rw [holders_setPermit_new (hpermits ▸ hp), holding_eq_one hb, PlanningThread.holders, hpermits,
      PlanningThread.holders]
  have hzero (hdepth : (s.budgets b).queryDepth = 0) : s.holders b = 0 :=
    ofNat_eq_zero (h.depth.symm.trans hdepth) hfew
  have hknown (a) (ha : s.currentActor b = some a) : a < s.entered := (hv.currentActor ha).1
  cases ht with
  | unbounded => contradiction
  | refused => contradiction
  | nested hactive hdepth hactor =>
    cases hb
    have hne : current ≠ [] := fun hnil => by
      refine hdepth ?_
      rw [h.depth, h.height_eq_zero.mpr hnil]
      rfl
    have hopener : s.currentActor b = opener current := by
      obtain ⟨first, rest, rfl⟩ := List.exists_cons_of_ne_nil hne
      exact hactor.trans (h.running first rfl).2
    refine ⟨_, h.goOn hne (fun _ => hopener) (h.cut.goUp rfl) rfl rfl (budgets_setBudget_self s b _) ?_ ?_⟩
    · rw [hholders, height_concat_up current rfl, ← h.holders]
      rfl
    · rw [hholders, h.depth, UInt32.ofNat_add]
      rfl
  | alone hactive hdepth hstart hactor =>
    cases hb
    refine ⟨_, h.start (hzero hdepth) rfl hknown rfl (by rw [hholders, hzero hdepth]) ?_ fun a _ hab => ?_⟩
    · rw [hactor]
      exact budgets_setBudget_self s b _ ▸ ⟨rfl, rfl, rfl, rfl, rfl⟩
    · refine ⟨hab, ?_, rfl⟩
      rw [hactor, if_neg (Option.some_ne_none a).symm]
      rfl
  | @admitted b k scheduler hactive hdepth hstart hactor =>
    cases hb
    refine ⟨_, h.start (hzero hdepth) rfl hknown rfl (by rw [hholders, hzero hdepth]) ?_ fun a _ hab => ?_⟩
    · rw [hactor]
      exact budgets_setBudget_self s b _ ▸ ⟨rfl, rfl, rfl, rfl, rfl⟩
    · let charged := (s.setScheduler (s.actors k).scheduler scheduler).setActor k
        { s.actors k with started := (s.actors k).started + 1 }
      change (charged.actors a).budget = some b at hab
      change (s.actors a).budget = some b ∧ (charged.actors a).started = _ ∧
        (charged.actors a).spent = (s.actors a).spent
      rw [hactor]
      by_cases ha : a = k
      · subst ha
        rw [actors_setActor_self, if_pos rfl]
        exact ⟨(currentActor_eq_some hactor).2, rfl, rfl⟩
      · rw [actors_setActor_of_ne _ _ ha] at hab ⊢
        rw [if_neg fun heq => ha (Option.some.inj heq).symm]
        exact ⟨hab, rfl, rfl⟩

/-! ### Steps -/

/-- The books of every budget are right, and the references and limits are. -/
structure Books (limits : ℕ → ℕ) (walks : ℕ → List Tick) (s : PlanningThread) : Prop where
  valid : Valid limits s
  accounts : ∀ b, ∃ closed current, Accounts b (walks b) closed current s

variable {walks : ℕ → List Tick}

theorem Books.same (h : Books limits walks s) (hvalid : Valid limits s') (hs : ∀ b, SameBooks b s s') :
    Books limits walks s' := by
  refine ⟨hvalid, fun b => ?_⟩
  obtain ⟨closed, current, haccounts⟩ := h.accounts b
  exact ⟨closed, current, haccounts.congr (hs b)⟩

theorem SameBooks.of_eq (hentered : s'.entered = s.entered) (hholders : s'.holders b = s.holders b)
    (hactors : s'.actors = s.actors) (hbudgets : s'.budgets = s.budgets) : SameBooks b s s' :=
  (SameBooks.refl b s).of_holders hholders hentered hbudgets hactors

/-- A permit is finished. -/
theorem Books.finish (h : Books limits walks s) (hfew : ∀ b, s.holders b < 2 ^ 32)
    (hp : s.permits[p]? = some permit) (now : ℤ) :
    Books limits (fun b => walks b ++ (if permit.budget = some b then [⟨false, now, none⟩] else []))
      (s.finish p permit now) := by
  refine ⟨h.valid.quiet (Quiet.finish s p permit now), fun b => ?_⟩
  obtain ⟨closed, current, haccounts⟩ := h.accounts b
  by_cases hb : permit.budget = some b
  · simp only [if_pos hb]
    exact haccounts.finish (hfew b) hp hb now
  · simp only [if_neg hb, List.append_nil]
    exact ⟨closed, current, haccounts.congr (SameBooks.finish (fun b a ha => (h.valid.query b a ha).2) hp hb now)⟩

/-- A permit is asked for. -/
theorem Books.acquires {t : PlanningThread} (h : Books limits walks s) (hfew : ∀ b, s.holders b < 2 ^ 32)
    (ht : Acquires s now permit t) (hp : s.permits[p]? = none) :
    Books limits (fun b => walks b ++ (if permit.budget = some b then [⟨true, now, s.currentActor b⟩] else []))
      (t.setPermit p permit) := by
  refine ⟨(h.valid.acquires ht).quiet (.of_eq rfl rfl rfl rfl rfl), fun b => ?_⟩
  obtain ⟨closed, current, haccounts⟩ := h.accounts b
  by_cases hb : permit.budget = some b
  · simp only [if_pos hb]
    exact ⟨closed, haccounts.acquires h.valid (hfew b) ht hb hp⟩
  · simp only [if_neg hb, List.append_nil]
    exact ⟨closed, current, haccounts.congr (SameBooks.acquires ht hb hp)⟩

/-- A new actor scope has done nothing yet. -/
theorem Accounts.enterActor (h : Accounts b walk closed current s) (scheduler : ℕ) (id : UInt64)
    (duration : ℤ) (operations : ℕ) :
    Accounts b walk closed current (s.enterActor scheduler id duration operations) := by
  have hunknown : ∀ part ∈ begun closed current, ¬ opener part = some s.entered := fun part hpart hopener =>
    (h.known part hpart _ hopener).false
  have hold (a) (ha : a < s.entered) :
      (s.enterActor scheduler id duration operations).actors a = s.actors a :=
    actors_setActor_of_ne s _ ha.ne
  have hnew : (s.enterActor scheduler id duration operations).actors s.entered =
      { scheduler, id, budget := s.active, previous := s.actor, duration, operations } :=
    actors_setActor_self s _ _
  refine ⟨h.cut, h.holders, h.depth, h.opened, fun part hpart a ha => ?_, h.running, h.idle, h.started,
    h.spent, fun a ha hb => ?_, fun a ha hb => ?_⟩
  · exact (h.known part hpart a ha).trans (Nat.lt_succ_self _)
  · rcases Nat.lt_succ_iff_lt_or_eq.mp ha with ha | rfl
    · rw [hold a ha] at hb ⊢
      exact h.actorStarted a ha hb
    · rw [hnew, List.countP_eq_zero.mpr fun part hpart => by simpa using hunknown part hpart]
  · rcases Nat.lt_succ_iff_lt_or_eq.mp ha with ha | rfl
    · rw [hold a ha] at hb ⊢
      exact h.actorSpent a ha hb
    · have hclosed : ∀ part ∈ closed, ¬ (decide (opener part = some s.entered)) = true := fun part hpart => by
        refine fun hopener => hunknown part ?_ (of_decide_eq_true hopener)
        unfold begun
        split_ifs
        · exact hpart
        · exact List.mem_append_left _ hpart
      rw [hnew, List.filter_eq_nil_iff.mpr hclosed]
      rfl

theorem Valid.enterActor (h : Valid limits s) (scheduler : ℕ) (id : UInt64) (duration : ℤ) (operations : ℕ) :
    Valid limits (s.enterActor scheduler id duration operations) := by
  have hold (a) (ha : a < s.entered) :
      (s.enterActor scheduler id duration operations).actors a = s.actors a :=
    actors_setActor_of_ne s _ ha.ne
  have hnew : (s.enterActor scheduler id duration operations).actors s.entered =
      { scheduler, id, budget := s.active, previous := s.actor, duration, operations } :=
    actors_setActor_self s _ _
  have hlater {a} (ha : a < s.entered) : a < s.entered + 1 := ha.trans (Nat.lt_succ_self _)
  refine ⟨fun a ha => ?_, fun a ha a' ha' => ?_, fun a ha => ?_, fun b a ha => ?_, h.limit, fun a ha hnone => ?_,
    fun a ha => ?_⟩
  · cases ha
    exact Nat.lt_succ_self _
  · rcases Nat.lt_succ_iff_lt_or_eq.mp ha with ha | rfl
    · rw [hold a ha] at ha'
      exact hlater (h.previous a ha a' ha')
    · rw [hnew] at ha'
      exact hlater (h.actor a' ha')
  · rcases List.mem_cons.mp ha with ha | ha
    · cases ha
      exact Nat.lt_succ_self _
    · exact hlater (h.frames a ha)
  · obtain ⟨hentered, hbudget⟩ := h.query b a ha
    rw [hold a hentered]
    exact ⟨hlater hentered, hbudget⟩
  · rcases Nat.lt_succ_iff_lt_or_eq.mp ha with ha | rfl
    · rw [hold a ha] at hnone ⊢
      exact h.unbound a ha hnone
    · rw [hnew]
  · rcases Nat.lt_succ_iff_lt_or_eq.mp ha with ha | rfl
    · rw [hold a ha]
      exact h.actorLimit a ha
    · rw [hnew]
      exact Nat.zero_le _

/-- What leaving the innermost scope does. -/
theorem leave_cases {o : BudgetOutcome} (h : s.step .leave = some (o, s')) :
    (∃ previous frames, s.frames = .scope previous :: frames ∧ o = .done ∧
      s' = { s with active := previous, frames }) ∨
    ∃ a frames, s.frames = .actor a :: frames ∧ s.inUse a = false ∧
      o = .ended (s.actors a).scheduler (s.actors a).id ((s.actors a).started ≠ 0) ∧
      s' = { s.leaveActor a with frames } := by
  unfold step at h
  cases hframes : s.frames with
  | nil =>
    rw [hframes] at h
    contradiction
  | cons frame frames =>
    cases frame with
    | scope previous =>
      simp only [hframes, Option.some.injEq, Prod.mk.injEq] at h
      exact .inl ⟨previous, frames, rfl, h.1.symm, h.2.symm⟩
    | actor a =>
      simp only [hframes] at h
      split_ifs at h with huse
      simp only [Option.some.injEq, Prod.mk.injEq] at h
      exact .inr ⟨a, frames, rfl, by simpa using huse, h.1.symm, h.2.symm⟩

theorem Books.leave {o : BudgetOutcome} (h : Books limits walks s) (hstep : s.step .leave = some (o, s')) :
    Books limits walks s' := by
  obtain ⟨previous, frames, hframes, -, rfl⟩ | ⟨a, frames, hframes, -, -, rfl⟩ := leave_cases hstep
  · refine h.same ?_ fun b => .of_eq rfl rfl rfl rfl
    exact ⟨h.valid.actor, h.valid.previous, fun a ha => h.valid.frames a (by rw [hframes]; exact .tail _ ha),
      h.valid.query, h.valid.limit, h.valid.unbound, h.valid.actorLimit⟩
  · refine h.same ?_ fun b => .of_eq rfl rfl rfl rfl
    have ha : a < s.entered := h.valid.frames a (by rw [hframes]; exact .head _)
    exact ⟨h.valid.previous a ha, h.valid.previous, fun a ha => h.valid.frames a (by rw [hframes]; exact .tail _ ha),
      h.valid.query, h.valid.limit, h.valid.unbound, h.valid.actorLimit⟩

/-- An object takes over what another one holds: nobody holds more or less. -/
theorem holders_exchange (hp : ∀ own, s.permits[p]? = some own → own.budget = none) (hq : s.permits[q]? = some permit)
    (hne : p ≠ q) (b : ℕ) : (s.exchange p q permit).holders b = s.holders b := by
  have hempty := holders_setPermit hq ⟨none, false⟩ b
  have hnone : holding b ⟨none, false⟩ = 0 := holding_eq_zero (Option.some_ne_none b).symm
  have hlookup : (s.setPermit q ⟨none, false⟩).permits[p]? = s.permits[p]? :=
    OrdMap.getElem?_insert_ne _ _ hne.symm
  cases hown : s.permits[p]? with
  | none =>
    have hmove := holders_setPermit_new (hlookup.trans hown) permit b
    rw [exchange]
    omega
  | some own =>
    have hmove := holders_setPermit (hlookup.trans hown) permit b
    have hzero : holding b own = 0 := holding_eq_zero (by rw [hp own hown]; exact (Option.some_ne_none b).symm)
    rw [exchange]
    omega

theorem finish_permit (hp : s.permits[p]? = some permit) (now : ℤ) :
    (s.finish p permit now).permits[p]? = some { permit with budget := none } := by
  unfold PlanningThread.finish
  cases hbudget : permit.budget with
  | none =>
    simp only [hp]
    rw [← hbudget]
  | some b => exact ExtTreeMap.getElem?_insert_self

theorem finish_other_permit (h : q ≠ p) (permit : Permit) (now : ℤ) :
    (s.finish p permit now).permits[q]? = s.permits[q]? := by
  unfold PlanningThread.finish
  cases permit.budget with
  | none => rfl
  | some b =>
    refine (OrdMap.getElem?_insert_ne _ _ h.symm).trans ?_
    rw [permits_finishQuery]

theorem Books.exchange (h : Books limits walks s) (hp : ∀ own, s.permits[p]? = some own → own.budget = none)
    (hq : s.permits[q]? = some permit) (hne : p ≠ q) : Books limits walks (s.exchange p q permit) :=
  h.same (h.valid.quiet (.of_eq rfl rfl rfl rfl rfl)) fun b =>
    .of_eq rfl (holders_exchange hp hq hne b) rfl rfl

/-- A finished permit object goes away. -/
theorem Books.erase (h : Books limits walks s) (hp : s.permits[p]? = some permit) (hnone : permit.budget = none) :
    Books limits walks { s with permits := s.permits.erase p } := by
  refine h.same (h.valid.quiet (.of_eq rfl rfl rfl rfl rfl)) fun b => .of_eq rfl ?_ rfl rfl
  have herase := OrdMap.total_erase hp (fun _ permit => holding b permit)
  have hzero : holding b permit = 0 := holding_eq_zero (by rw [hnone]; exact (Option.some_ne_none b).symm)
  rw [hzero] at herase
  exact herase

theorem Books.step (e : Event PlanningThread BudgetOp BudgetOutcome) (hstep : machine.IsStep e)
    (h : Books limits walks e.pre) (hfew : ∀ b, e.pre.holders b < 2 ^ 32) :
    Books limits (fun b => walks b ++ (tickOf b e).toList) e.post := by
  obtain ⟨s, i, o, s'⟩ := e
  have hstep : s.step i = some (o, s') := hstep
  have hsilent (hsame : Books limits walks s') (hnone : ∀ b, tickOf b ⟨s, i, o, s'⟩ = none) :
      Books limits (fun b => walks b ++ (tickOf b ⟨s, i, o, s'⟩).toList) s' := by
    simp only [hnone, Option.toList_none, List.append_nil]
    exact hsame
  cases i with
  | enterScope b =>
    cases hstep
    refine hsilent (h.same ?_ fun b => .of_eq rfl rfl rfl rfl) fun _ => rfl
    refine ⟨h.valid.actor, h.valid.previous, fun a ha => ?_, h.valid.query, h.valid.limit, h.valid.unbound,
      h.valid.actorLimit⟩
    rcases List.mem_cons.mp ha with ha | ha
    · contradiction
    · exact h.valid.frames a ha
  | enterActor scheduler id duration operations =>
    cases hstep
    refine hsilent ⟨h.valid.enterActor .., fun b => ?_⟩ fun _ => rfl
    obtain ⟨closed, current, haccounts⟩ := h.accounts b
    exact ⟨closed, current, haccounts.enterActor ..⟩
  | leave => exact hsilent (h.leave hstep) fun _ => rfl
  | tryAcquire p now =>
    simp only [PlanningThread.step] at hstep
    split_ifs at hstep with hmem
    cases hstep
    have hnext := h.acquires hfew (tryAcquire_cases s now) (ExtTreeMap.getElem?_eq_none hmem)
    convert hnext using 3 with b
    simp only [tickOf, setPermit, ExtTreeMap.getElem?_insert_self, Option.any_some, decide_eq_true_eq]
    split_ifs <;> rfl
  | finish p now =>
    obtain ⟨permit, hp, hstep⟩ := Option.bind_eq_some_iff.mp hstep
    cases hstep
    convert h.finish hfew hp now using 3 with b
    simp only [tickOf, hp, Option.any_some, decide_eq_true_eq]
    split_ifs <;> rfl
  | moveConstruct p q =>
    obtain ⟨permit, hq, hstep⟩ := Option.bind_eq_some_iff.mp hstep
    split_ifs at hstep with hmem
    cases hstep
    have hp : s.permits[p]? = none := ExtTreeMap.getElem?_eq_none hmem
    have hne : p ≠ q := fun heq => by
      rw [← heq, hp] at hq
      contradiction
    exact hsilent (h.exchange (fun own hown => absurd (hp.symm.trans hown) (Option.some_ne_none own).symm) hq hne)
      fun _ => rfl
  | moveAssign p q now =>
    obtain ⟨permit, hp, hstep⟩ := Option.bind_eq_some_iff.mp hstep
    obtain ⟨other, hq, hstep⟩ := Option.bind_eq_some_iff.mp hstep
    by_cases hne : p = q
    · rw [if_pos hne] at hstep
      cases hstep
      exact hsilent h fun b => if_neg fun hboth => hboth.1 hne
    · rw [if_neg hne] at hstep
      cases hstep
      have hfinish := finish_permit hp now
      have hnext := (h.finish hfew hp now).exchange
        (fun own hown => by rw [← Option.some.inj (hfinish.symm.trans hown)])
        ((finish_other_permit (Ne.symm hne) permit now).trans hq) hne
      convert hnext using 3 with b
      simp only [tickOf, hp, Option.any_some, decide_eq_true_eq, ne_eq, hne, not_false_eq_true, true_and]
      split_ifs <;> rfl
  | destroy p now =>
    obtain ⟨permit, hp, hstep⟩ := Option.bind_eq_some_iff.mp hstep
    cases hstep
    have hnext := (h.finish hfew hp now).erase (finish_permit hp now) rfl
    convert hnext using 3 with b
    simp only [tickOf, hp, Option.any_some, decide_eq_true_eq]
    split_ifs <;> rfl
  | markDeferred =>
    cases hstep
    refine hsilent ?_ fun _ => rfl
    cases s.active with
    | none => exact h
    | some b₀ =>
      exact h.same (h.valid.quiet (Quiet.setBudget rfl rfl fun _ h => h)) fun b => SameBooks.defer b b₀ s
  | planning n op =>
    obtain ⟨⟨answer, scheduler⟩, -, hstep⟩ := Option.bind_eq_some_iff.mp hstep
    cases hstep
    exact hsilent (h.same (h.valid.quiet (.of_eq rfl rfl rfl rfl rfl)) fun b => .of_eq rfl rfl rfl rfl)
      fun _ => rfl

end PlanningThread

end AIWorld.Scheduler
