import AIWorld.Lib.Excursions
import AIWorld.Scheduler.PlanningWorkBudget

/-! What a budget has been used for. Seen from outside, a budget is taken by permits and given
back; it is in use in the excursions of that walk. Its counters and those of the actor
scopes are compared with them. -/

namespace AIWorld.Scheduler

open Std (ExtTreeMap)
open Lib

/-! ### The walk of a budget -/

/-- A permit takes a budget, under some actor scope, or gives it back. -/
structure Tick where
  up : Bool
  time : ℤ
  actor : Option ℕ
  deriving DecidableEq

/-- The actor scope of the first permit. -/
def opener (part : List Tick) : Option ℕ := part.head?.bind Tick.actor

/-- The time from the first acquisition to the last finish. -/
def cost (part : List Tick) : ℤ :=
  match part.head?, part.getLast? with
  | some first, some last => max 0 (last.time - first.time)
  | _, _ => 0

/-- All excursions, with the unfinished one. -/
def begun (closed : List (List Tick)) (current : List Tick) : List (List Tick) :=
  if current = [] then closed else closed ++ [current]

theorem begun_nil (closed : List (List Tick)) : begun closed [] = closed := if_pos rfl

theorem begun_of_ne {closed : List (List Tick)} {current : List Tick} (h : current ≠ []) :
    begun closed current = closed ++ [current] := if_neg h

theorem opener_concat {part : List Tick} (h : part ≠ []) (t : Tick) : opener (part ++ [t]) = opener part := by
  obtain ⟨first, rest, rfl⟩ := List.exists_cons_of_ne_nil h
  rfl

theorem begun_concat (closed : List (List Tick)) (current : List Tick) (t : Tick) :
    begun closed (current ++ [t]) = closed ++ [current ++ [t]] := begun_of_ne (by simp)

section Concat
variable {closed : List (List Tick)} {current : List Tick} (hne : current ≠ []) (t : Tick)
include hne

/-- What holds of each excursion still does when the unfinished one goes on. -/
theorem forall_begun_concat {P : List Tick → Prop} (h : ∀ part ∈ begun closed current, P part)
    (hcurrent : P current → P (current ++ [t])) : ∀ part ∈ closed ++ [current ++ [t]], P part := by
  rw [begun_of_ne hne] at h
  intro part hpart
  rcases List.mem_append.mp hpart with hpart | hpart
  · exact h part (List.mem_append_left _ hpart)
  · rw [List.mem_singleton.mp hpart]
    exact hcurrent (h current (List.mem_append_right _ List.mem_cons_self))

theorem countP_begun_concat (a : ℕ) :
    ((closed ++ [current ++ [t]]).countP fun part => opener part = some a) =
      (begun closed current).countP fun part => opener part = some a := by
  rw [begun_of_ne hne, List.countP_append, List.countP_append]
  simp only [List.countP_singleton, opener_concat hne t]

theorem length_begun_concat : (closed ++ [current ++ [t]]).length = (begun closed current).length := by
  rw [begun_of_ne hne, List.length_append, List.length_append]
  rfl

end Concat

theorem cost_concat {part : List Tick} {first t : Tick} (h : part.head? = some first) :
    cost (part ++ [t]) = max 0 (t.time - first.time) := by
  cases part with
  | nil => contradiction
  | cons x rest =>
    cases h
    have hlast : (first :: rest ++ [t]).getLast? = some t := List.getLast?_concat
    rw [List.cons_append] at hlast ⊢
    simp only [cost, hlast, List.head?_cons]

namespace PlanningThread

variable {s s' : PlanningThread} {a b p q : ℕ} {now : ℤ} {permit : Permit}

/-- One if a permit holds the budget. -/
def holding (b : ℕ) (permit : Permit) : ℕ := if permit.budget = some b then 1 else 0

/-- How many permits hold the budget. -/
def holders (s : PlanningThread) (b : ℕ) : ℕ := OrdMap.total (fun _ permit => holding b permit) s.permits

/-- What a step of the thread is for a budget. -/
def tickOf (b : ℕ) (e : Event PlanningThread BudgetOp BudgetOutcome) : Option Tick :=
  let holds (permits : ExtTreeMap ℕ Permit) (p : ℕ) : Bool := (permits[p]?).any fun permit : Permit => permit.budget = some b
  match e.input with
  | .tryAcquire p now => if holds e.post.permits p then some ⟨true, now, e.pre.currentActor b⟩ else none
  | .finish p now | .destroy p now => if holds e.pre.permits p then some ⟨false, now, none⟩ else none
  | .moveAssign p q now => if p ≠ q ∧ holds e.pre.permits p then some ⟨false, now, none⟩ else none
  | _ => none

def ticks (b : ℕ) (tr : List (Event PlanningThread BudgetOp BudgetOutcome)) : List Tick :=
  tr.filterMap (tickOf b)

/-- The books of a budget are right: they agree with the excursions of its walk. -/
structure Accounts (b : ℕ) (walk : List Tick) (closed : List (List Tick)) (current : List Tick)
    (s : PlanningThread) : Prop where
  cut : CutsInto Tick.up walk closed current
  holders : (s.holders b : ℤ) = height Tick.up current
  depth : (s.budgets b).queryDepth = UInt32.ofNat (s.holders b)
  opened : ∀ part ∈ begun closed current, ∀ t ∈ part, t.up = true → t.actor = opener part
  known : ∀ part ∈ begun closed current, ∀ a, opener part = some a → a < s.entered
  running : ∀ first, current.head? = some first →
    (s.budgets b).queryStart = first.time ∧ (s.budgets b).queryActor = first.actor
  idle : current = [] → (s.budgets b).queryActor = none
  started : (s.budgets b).statistics.started = (begun closed current).length
  spent : (s.budgets b).spent = (closed.map cost).sum
  actorStarted : ∀ a < s.entered, (s.actors a).budget = some b →
    (s.actors a).started = (begun closed current).countP fun part => opener part = some a
  actorSpent : ∀ a < s.entered, (s.actors a).budget = some b →
    (s.actors a).spent = ((closed.filter fun part => opener part = some a).map cost).sum

/-- The references of the thread are to scopes that were entered, and no limit is exceeded. -/
structure Valid (limits : ℕ → ℕ) (s : PlanningThread) : Prop where
  actor : ∀ a, s.actor = some a → a < s.entered
  previous : ∀ a < s.entered, ∀ a', (s.actors a).previous = some a' → a' < s.entered
  frames : ∀ a, Frame.actor a ∈ s.frames → a < s.entered
  query : ∀ b a, (s.budgets b).queryActor = some a → a < s.entered ∧ (s.actors a).budget = some b
  limit : ∀ b, (s.budgets b).operations = limits b ∧ (s.budgets b).statistics.started ≤ limits b
  unbound : ∀ a < s.entered, (s.actors a).budget = none → (s.actors a).started = 0
  actorLimit : ∀ a < s.entered, (s.actors a).started ≤ (s.actors a).operations

/-! ### Updates -/

@[simp] theorem budgets_setBudget_self (s : PlanningThread) (b : ℕ) (budget : PlanningWorkBudget) :
    (s.setBudget b budget).budgets b = budget := Function.update_self ..

theorem budgets_setBudget_of_ne {b' : ℕ} (s : PlanningThread) (budget : PlanningWorkBudget) (h : b' ≠ b) :
    (s.setBudget b budget).budgets b' = s.budgets b' := Function.update_of_ne h ..

@[simp] theorem actors_setActor_self (s : PlanningThread) (a : ℕ) (actor : ActorScope) :
    (s.setActor a actor).actors a = actor := Function.update_self ..

@[simp] theorem budgets_setActor (s : PlanningThread) (a : ℕ) (actor : ActorScope) :
    (s.setActor a actor).budgets = s.budgets := rfl

@[simp] theorem actors_setBudget (s : PlanningThread) (b : ℕ) (budget : PlanningWorkBudget) :
    (s.setBudget b budget).actors = s.actors := rfl

theorem actors_setActor_of_ne {a' : ℕ} (s : PlanningThread) (actor : ActorScope) (h : a' ≠ a) :
    (s.setActor a actor).actors a' = s.actors a' := Function.update_of_ne h ..

theorem holders_setPermit_new (h : s.permits[p]? = none) (permit : Permit) (b : ℕ) :
    (s.setPermit p permit).holders b = s.holders b + holding b permit :=
  OrdMap.total_insert_new h _ _

theorem holders_setPermit (h : s.permits[p]? = some permit) (new : Permit) (b : ℕ) :
    (s.setPermit p new).holders b + holding b permit = s.holders b + holding b new :=
  OrdMap.total_insert h _ _

theorem currentActor_eq_some (h : s.currentActor b = some a) :
    s.actor = some a ∧ (s.actors a).budget = some b := by
  unfold currentActor at h
  cases ha : s.actor with
  | none =>
    rw [ha] at h
    contradiction
  | some a' =>
    simp only [ha] at h
    split_ifs at h with hbudget
    cases h
    exact ⟨rfl, hbudget⟩

variable {walk : List Tick} {closed : List (List Tick)} {current : List Tick} {queryDepth : UInt32}

/-- What the books of a budget are about. -/
structure SameBooks (b : ℕ) (s s' : PlanningThread) : Prop where
  entered : s'.entered = s.entered
  holders : s'.holders b = s.holders b
  depth : (s'.budgets b).queryDepth = (s.budgets b).queryDepth
  start : (s'.budgets b).queryStart = (s.budgets b).queryStart
  actor : (s'.budgets b).queryActor = (s.budgets b).queryActor
  started : (s'.budgets b).statistics.started = (s.budgets b).statistics.started
  spent : (s'.budgets b).spent = (s.budgets b).spent
  actors : ∀ a < s.entered, (s'.actors a).budget = some b → (s.actors a).budget = some b ∧
    (s'.actors a).started = (s.actors a).started ∧ (s'.actors a).spent = (s.actors a).spent

theorem Accounts.congr (h : Accounts b walk closed current s) (hs : SameBooks b s s') :
    Accounts b walk closed current s' where
  cut := h.cut
  holders := hs.holders ▸ h.holders
  depth := by rw [hs.depth, h.depth, hs.holders]
  opened := h.opened
  known part hpart a ha := hs.entered ▸ h.known part hpart a ha
  running first hfirst := by
    rw [hs.start, hs.actor]
    exact h.running first hfirst
  idle hnil := hs.actor ▸ h.idle hnil
  started := hs.started ▸ h.started
  spent := hs.spent ▸ h.spent
  actorStarted a ha hb := by
    rw [hs.entered] at ha
    obtain ⟨hbudget, hstarted, -⟩ := hs.actors a ha hb
    rw [hstarted, h.actorStarted a ha hbudget]
  actorSpent a ha hb := by
    rw [hs.entered] at ha
    obtain ⟨hbudget, -, hspent⟩ := hs.actors a ha hb
    rw [hspent, h.actorSpent a ha hbudget]

/-! ### Acquisitions -/

theorem SameBooks.refl (b : ℕ) (s : PlanningThread) : SameBooks b s s :=
  ⟨rfl, rfl, rfl, rfl, rfl, rfl, rfl, fun _ _ h => ⟨h, rfl, rfl⟩⟩

/-- Another budget is changed. -/
theorem SameBooks.setBudget {b' : ℕ} (h : b ≠ b') (s : PlanningThread) (budget : PlanningWorkBudget) :
    SameBooks b s (s.setBudget b' budget) := by
  refine ⟨rfl, rfl, ?_, ?_, ?_, ?_, ?_, fun _ _ h => ⟨h, rfl, rfl⟩⟩
  all_goals rw [budgets_setBudget_of_ne s budget h]

/-- An actor scope of another budget is changed. -/
theorem SameBooks.setActor {actor : ActorScope} (h : (s.actors a).budget ≠ some b)
    (hbudget : actor.budget = (s.actors a).budget) : SameBooks b s (s.setActor a actor) := by
  refine ⟨rfl, rfl, rfl, rfl, rfl, rfl, rfl, fun a' _ hb => ?_⟩
  by_cases ha : a' = a
  · rw [ha, actors_setActor_self, hbudget] at hb
    exact absurd hb h
  · rw [actors_setActor_of_ne s actor ha] at hb ⊢
    exact ⟨hb, rfl, rfl⟩

theorem SameBooks.trans {s'' : PlanningThread} (h : SameBooks b s s') (h' : SameBooks b s' s'') :
    SameBooks b s s'' where
  entered := h'.entered.trans h.entered
  holders := h'.holders.trans h.holders
  depth := h'.depth.trans h.depth
  start := h'.start.trans h.start
  actor := h'.actor.trans h.actor
  started := h'.started.trans h.started
  spent := h'.spent.trans h.spent
  actors a ha hb := by
    obtain ⟨hb', hstarted, hspent⟩ := h'.actors a (h.entered ▸ ha) hb
    obtain ⟨hb'', hstarted', hspent'⟩ := h.actors a ha hb'
    exact ⟨hb'', hstarted.trans hstarted', hspent.trans hspent'⟩

theorem SameBooks.defer (b b' : ℕ) (s : PlanningThread) : SameBooks b s (s.defer b') := by
  by_cases h : b = b'
  · subst h
    refine ⟨rfl, rfl, ?_, ?_, ?_, ?_, ?_, fun _ _ h => ⟨h, rfl, rfl⟩⟩
    all_goals rw [PlanningThread.defer, budgets_setBudget_self]
  · exact SameBooks.setBudget h s _

/-- What becomes of a thread that asks for a permit. -/
inductive Acquires (s : PlanningThread) (now : ℤ) : Permit → PlanningThread → Prop
  | unbounded (h : s.active = none) : Acquires s now ⟨none, true⟩ s
  | refused {b : ℕ} (h : s.active = some b) (hstart : s.canStart b = false) :
      Acquires s now ⟨none, false⟩ (s.defer b)
  | nested {b : ℕ} (h : s.active = some b) (hdepth : (s.budgets b).queryDepth ≠ 0)
      (hactor : s.currentActor b = (s.budgets b).queryActor) :
      Acquires s now ⟨some b, true⟩
        (s.setBudget b { s.budgets b with queryDepth := (s.budgets b).queryDepth + 1 })
  | alone {b : ℕ} (h : s.active = some b) (hdepth : (s.budgets b).queryDepth = 0)
      (hstart : s.canStart b = true) (hactor : s.currentActor b = none) :
      Acquires s now ⟨some b, true⟩ (s.beginQuery b now none)
  | admitted {b a : ℕ} {scheduler : PlanningWorkScheduler} (h : s.active = some b)
      (hdepth : (s.budgets b).queryDepth = 0) (hstart : s.canStart b = true)
      (hactor : s.currentActor b = some a)
      (hadmits : (s.schedulers (s.actors a).scheduler).tryAdmit (s.actors a).id = (true, scheduler)) :
      Acquires s now ⟨some b, true⟩ (((s.setScheduler (s.actors a).scheduler scheduler).setActor a
        { s.actors a with started := (s.actors a).started + 1 }).beginQuery b now (some a))

theorem canStart_outermost (h : s.canStart b = true) (hdepth : (s.budgets b).queryDepth = 0) :
    (s.budgets b).spent < (s.budgets b).duration * 1000 ∧
      (s.budgets b).statistics.started < (s.budgets b).operations ∧
      ∀ a, s.currentActor b = some a → s.actorCanStart a = true := by
  simp only [canStart, hdepth, ne_eq, not_true_eq_false, if_false, Bool.and_eq_true, decide_eq_true_eq] at h
  refine ⟨h.1.1, h.1.2, fun a ha => ?_⟩
  simpa [ha] using h.2

theorem canStart_nested (h : s.canStart b = true) (hdepth : (s.budgets b).queryDepth ≠ 0) :
    s.currentActor b = (s.budgets b).queryActor := by
  simpa [canStart, hdepth] using h

theorem actorCanStart_spec (h : s.actorCanStart a = true) : (s.actors a).started < (s.actors a).operations ∧
    (s.actors a).spent < (s.actors a).duration * 1000 ∧
    (s.schedulers (s.actors a).scheduler).canAdmit (s.actors a).id = true := by
  simp only [actorCanStart, Bool.and_eq_true, decide_eq_true_eq] at h
  exact ⟨h.1.1, h.1.2, h.2⟩

/-- The check that allows a query to start is the one that admits its agent. -/
theorem tryAcquire_cases (s : PlanningThread) (now : ℤ) :
    Acquires s now (s.tryAcquire now).1 (s.tryAcquire now).2 := by
  unfold tryAcquire
  cases hactive : s.active with
  | none => exact .unbounded hactive
  | some b =>
    simp only
    cases hstart : s.canStart b with
    | false => exact .refused hactive hstart
    | true =>
      simp only [Bool.not_true, Bool.false_eq_true, if_false]
      by_cases hdepth : (s.budgets b).queryDepth = 0
      · rw [if_neg (not_not.mpr hdepth)]
        cases hactor : s.currentActor b with
        | none => exact .alone hactive hdepth hstart hactor
        | some a =>
          obtain ⟨-, -, hcan⟩ := actorCanStart_spec ((canStart_outermost hstart hdepth).2.2 a hactor)
          have hadmits : (s.schedulers (s.actors a).scheduler).tryAdmit (s.actors a).id = (true, _) := if_pos hcan
          simp only [hadmits, Bool.not_true, Bool.false_eq_true, if_false]
          exact .admitted hactive hdepth hstart hactor hadmits
      · rw [if_pos hdepth]
        exact .nested hactive hdepth (canStart_nested hstart hdepth)

/-! ### The books after an acquisition -/

theorem ofNat_eq_zero {n : ℕ} (h : UInt32.ofNat n = 0) (hn : n < 2 ^ 32) : n = 0 := by
  have := congrArg UInt32.toNat h
  rwa [UInt32.toNat_ofNat_of_lt' hn, UInt32.toNat_zero] at this

theorem Accounts.height_eq_zero (h : Accounts b walk closed current s) : s.holders b = 0 ↔ current = [] := by
  constructor
  · intro hzero
    by_contra hne
    have := h.cut.above.height_pos hne
    have := h.holders
    omega
  · rintro rfl
    have := h.holders
    rw [height_nil] at this
    omega

/-- The unfinished excursion goes on, under the scope that opened it. -/
theorem Accounts.opened_concat (h : Accounts b walk closed current s) (hne : current ≠ []) {t : Tick}
    (ht : t.up = true → t.actor = opener current) :
    ∀ part ∈ closed ++ [current ++ [t]], ∀ u ∈ part, u.up = true → u.actor = opener part := by
  refine forall_begun_concat hne t h.opened fun hcurrent u hu hup => ?_
  rw [opener_concat hne t]
  rcases List.mem_append.mp hu with hu | hu
  · exact hcurrent u hu hup
  · rw [List.mem_singleton.mp hu] at hup ⊢
    exact ht hup

theorem Accounts.known_concat (h : Accounts b walk closed current s) (hne : current ≠ []) (t : Tick) :
    ∀ part ∈ closed ++ [current ++ [t]], ∀ a, opener part = some a → a < s.entered :=
  forall_begun_concat hne t h.known fun hcurrent a ha => hcurrent a (opener_concat hne t ▸ ha)

/-- A permit is acquired or finished while others keep the query running. -/
theorem Accounts.goOn (h : Accounts b walk closed current s) (hne : current ≠ []) {t : Tick}
    (ht : t.up = true → t.actor = opener current)
    (hcut : CutsInto Tick.up (walk ++ [t]) closed (current ++ [t])) (hentered : s'.entered = s.entered)
    (hactors : s'.actors = s.actors) (hbudget : s'.budgets b = { s.budgets b with queryDepth })
    (hholders : (s'.holders b : ℤ) = height Tick.up (current ++ [t]))
    (hdepth : queryDepth = UInt32.ofNat (s'.holders b)) :
    Accounts b (walk ++ [t]) closed (current ++ [t]) s' := by
  refine ⟨hcut, hholders, by rw [hbudget, ← hdepth], ?_, ?_, ?_, by simp, ?_, ?_, ?_, ?_⟩
  · rw [begun_concat]
    exact h.opened_concat hne ht
  · rw [begun_concat, hentered]
    exact h.known_concat hne t
  · intro first hfirst
    rw [List.head?_append_of_ne_nil _ hne] at hfirst
    rw [hbudget]
    exact h.running first hfirst
  · rw [hbudget, begun_concat, length_begun_concat hne]
    exact h.started
  · rw [hbudget]
    exact h.spent
  · intro a ha hb
    rw [hactors] at hb ⊢
    rw [begun_concat, countP_begun_concat hne]
    exact h.actorStarted a (hentered ▸ ha) hb
  · intro a ha hb
    rw [hactors] at hb ⊢
    exact h.actorSpent a (hentered ▸ ha) hb

/-- A permit that begins a query. -/
theorem Accounts.start (h : Accounts b walk closed current s) (hzero : s.holders b = 0) {t : Tick}
    (ht : t.up = true) (hknown : ∀ a, t.actor = some a → a < s.entered) (hentered : s'.entered = s.entered)
    (hholders : s'.holders b = 1) (hbudget : (s'.budgets b).queryDepth = 1 ∧
      (s'.budgets b).queryStart = t.time ∧ (s'.budgets b).queryActor = t.actor ∧
      (s'.budgets b).statistics.started = (s.budgets b).statistics.started + 1 ∧
      (s'.budgets b).spent = (s.budgets b).spent)
    (hactors : ∀ a < s.entered, (s'.actors a).budget = some b → (s.actors a).budget = some b ∧
      (s'.actors a).started = (s.actors a).started + (if t.actor = some a then 1 else 0) ∧
      (s'.actors a).spent = (s.actors a).spent) :
    Accounts b (walk ++ [t]) closed [t] s' := by
  obtain ⟨hdepth, hstart, hactor, hstarted, hspent⟩ := hbudget
  cases h.height_eq_zero.mp hzero
  have hbegun : begun closed [t] = closed ++ [[t]] := begun_of_ne (by simp)
  have hold := begun_nil closed
  refine ⟨h.cut.goUp ht, ?_, ?_, ?_, ?_, ?_, by simp, ?_, ?_, ?_, ?_⟩
  · rw [hholders]
    simp [height, ht]
  · rw [hdepth, hholders]
    rfl
  · intro part hpart u hu hup
    rw [hbegun] at hpart
    rcases List.mem_append.mp hpart with hpart | hpart
    · exact h.opened part (hold ▸ hpart) u hu hup
    · rw [List.mem_singleton.mp hpart] at hu ⊢
      rw [List.mem_singleton.mp hu]
      rfl
  · intro part hpart a ha
    rw [hbegun] at hpart
    rw [hentered]
    rcases List.mem_append.mp hpart with hpart | hpart
    · exact h.known part (hold ▸ hpart) a ha
    · rw [List.mem_singleton.mp hpart] at ha
      exact hknown a ha
  · intro first hfirst
    cases hfirst
    exact ⟨hstart, hactor⟩
  · rw [hstarted, h.started, hbegun, List.length_append, hold]
    rfl
  · rw [hspent, h.spent]
  · intro a ha hb
    obtain ⟨hb, hs, -⟩ := hactors a (hentered ▸ ha) hb
    have hopener : opener [t] = t.actor := rfl
    rw [hs, h.actorStarted a (hentered ▸ ha) hb, hbegun, List.countP_append, List.countP_singleton, hold,
      hopener]
    simp only [decide_eq_true_eq]
  · intro a ha hb
    obtain ⟨hb, -, hs⟩ := hactors a (hentered ▸ ha) hb
    rw [hs, h.actorSpent a (hentered ▸ ha) hb]

/-- The last permit of a query is finished, and the query is charged. -/
theorem Accounts.close (h : Accounts b walk closed current s) (hone : height Tick.up current = 1) {t : Tick}
    (ht : t.up = false) (hentered : s'.entered = s.entered) (hholders : s'.holders b = 0)
    (hbudget : (s'.budgets b).queryDepth = 0 ∧ (s'.budgets b).queryActor = none ∧
      (s'.budgets b).statistics.started = (s.budgets b).statistics.started ∧
      (s'.budgets b).spent = (s.budgets b).spent + cost (current ++ [t]))
    (hactors : ∀ a < s.entered, (s'.actors a).budget = some b → (s.actors a).budget = some b ∧
      (s'.actors a).started = (s.actors a).started ∧ (s'.actors a).spent = (s.actors a).spent +
        (if opener current = some a then cost (current ++ [t]) else 0)) :
    Accounts b (walk ++ [t]) (closed ++ [current ++ [t]]) [] s' := by
  obtain ⟨hdepth, hactor, hstarted, hspent⟩ := hbudget
  have hne : current ≠ [] := by
    rintro rfl
    rw [height_nil] at hone
    contradiction
  refine ⟨h.cut.close ht hone, ?_, ?_, ?_, ?_, by simp, fun _ => hactor, ?_, ?_, ?_, ?_⟩
  · rw [hholders]
    rfl
  · rw [hdepth, hholders]
    rfl
  · rw [begun_nil]
    exact h.opened_concat hne fun hup => absurd (ht.symm.trans hup) Bool.false_ne_true
  · rw [begun_nil, hentered]
    exact h.known_concat hne t
  · rw [hstarted, h.started, begun_nil, length_begun_concat hne]
  · rw [hspent, h.spent, List.map_append, List.sum_append, List.map_singleton, List.sum_singleton]
  · intro a ha hb
    obtain ⟨hb, hs, -⟩ := hactors a (hentered ▸ ha) hb
    rw [hs, h.actorStarted a (hentered ▸ ha) hb, begun_nil, countP_begun_concat hne]
  · intro a ha hb
    obtain ⟨hb, -, hs⟩ := hactors a (hentered ▸ ha) hb
    rw [hs, h.actorSpent a (hentered ▸ ha) hb, List.filter_append, List.map_append, List.sum_append,
      List.filter_singleton, opener_concat hne t]
    split_ifs with hopener <;> simp [hopener]

/-! ### Finished permits -/

theorem holding_eq_one (h : permit.budget = some b) : holding b permit = 1 := if_pos h

theorem holding_eq_zero (h : permit.budget ≠ some b) : holding b permit = 0 := if_neg h

/-- A finished permit holds no budget any more. -/
theorem holders_finish (hp : s.permits[p]? = some permit) (hb : permit.budget = some b) {t : PlanningThread}
    (ht : t.permits = s.permits) (b' : ℕ) :
    (t.setPermit p { permit with budget := none }).holders b' + (if b' = b then 1 else 0) = s.holders b' := by
  have hmove := holders_setPermit (s := t) (ht ▸ hp) { permit with budget := none } b'
  have hnone : holding b' { permit with budget := none } = 0 := holding_eq_zero (Option.some_ne_none b').symm
  have hsame : t.holders b' = s.holders b' := by rw [holders, ht, holders]
  have hheld : holding b' permit = if b' = b then 1 else 0 := by
    rw [holding, hb]
    simp only [Option.some.injEq, eq_comm]
  omega

theorem permits_finishQuery (s : PlanningThread) (b : ℕ) (now : ℤ) :
    (s.finishQuery b now).permits = s.permits := by
  unfold finishQuery charge
  simp only
  split_ifs
  · rfl
  · cases ((s.setBudget b _).budgets b).queryActor <;> rfl

theorem SameBooks.of_holders {t : PlanningThread} (h : SameBooks b s t) (hholders : s'.holders b = s.holders b)
    (hentered : s'.entered = t.entered) (hbudgets : s'.budgets = t.budgets) (hactors : s'.actors = t.actors) :
    SameBooks b s s' := by
  refine ⟨hentered.trans h.entered, hholders, ?_, ?_, ?_, ?_, ?_, ?_⟩
  · rw [hbudgets, h.depth]
  · rw [hbudgets, h.start]
  · rw [hbudgets, h.actor]
  · rw [hbudgets, h.started]
  · rw [hbudgets, h.spent]
  · rw [hactors]
    exact h.actors

/-- The query of another budget is finished. -/
theorem SameBooks.finishQuery {b₀ : ℕ} (h : b ≠ b₀)
    (hquery : ∀ a, (s.budgets b₀).queryActor = some a → (s.actors a).budget = some b₀) :
    SameBooks b s (s.finishQuery b₀ now) := by
  unfold PlanningThread.finishQuery
  simp only
  split_ifs
  · exact SameBooks.setBudget h s _
  · refine (SameBooks.setBudget h s { s.budgets b₀ with queryDepth := (s.budgets b₀).queryDepth - 1 }).trans ?_
    unfold charge
    simp only [budgets_setBudget_self]
    cases hactor : (s.budgets b₀).queryActor with
    | none => exact SameBooks.setBudget h _ _
    | some a =>
      refine (SameBooks.setBudget h _ _).trans (SameBooks.setActor ?_ rfl)
      change (s.actors a).budget ≠ some b
      rw [hquery a hactor]
      exact fun heq => h (Option.some.inj heq).symm

theorem elapsed_eq (queryStart now : ℤ) : elapsed queryStart now = max 0 (now - queryStart) := by
  unfold elapsed
  split_ifs <;> omega

theorem finishQuery_eq_of_ne (h : (s.budgets b).queryDepth - 1 ≠ 0) :
    s.finishQuery b now =
      s.setBudget b { s.budgets b with queryDepth := (s.budgets b).queryDepth - 1 } := if_pos h

/-- The last permit of a query: the time is charged to the budget and to the scope of the query. -/
theorem finishQuery_last (h : (s.budgets b).queryDepth - 1 = 0) (now : ℤ) :
    ((s.finishQuery b now).budgets b).queryDepth = 0 ∧
    ((s.finishQuery b now).budgets b).queryActor = none ∧
    ((s.finishQuery b now).budgets b).statistics.started = (s.budgets b).statistics.started ∧
    ((s.finishQuery b now).budgets b).spent =
      (s.budgets b).spent + elapsed (s.budgets b).queryStart now ∧
    (s.finishQuery b now).entered = s.entered ∧
    ∀ a, ((s.finishQuery b now).actors a).budget = (s.actors a).budget ∧
      ((s.finishQuery b now).actors a).started = (s.actors a).started ∧
      ((s.finishQuery b now).actors a).spent = (s.actors a).spent +
        (if (s.budgets b).queryActor = some a then elapsed (s.budgets b).queryStart now else 0) := by
  have hlast : s.finishQuery b now = (s.setBudget b { s.budgets b with queryDepth := 0 }).charge b
      (elapsed (s.budgets b).queryStart now) := by
    rw [PlanningThread.finishQuery, h]
    exact if_neg (not_not.mpr rfl)
  rw [hlast, charge]
  simp only [budgets_setBudget_self]
  cases hactor : (s.budgets b).queryActor with
  | none =>
    simp only [budgets_setBudget_self]
    refine ⟨trivial, trivial, trivial, trivial, rfl, fun a => ⟨rfl, rfl, ?_⟩⟩
    simp
  | some k =>
    simp only [budgets_setActor, budgets_setBudget_self]
    refine ⟨trivial, trivial, trivial, trivial, rfl, fun a => ?_⟩
    by_cases ha : a = k
    · subst ha
      rw [actors_setActor_self, if_pos rfl]
      exact ⟨rfl, rfl, rfl⟩
    · rw [actors_setActor_of_ne _ _ ha, if_neg fun heq => ha (Option.some.inj heq).symm, add_zero]
      exact ⟨rfl, rfl, rfl⟩

theorem Accounts.finish (h : Accounts b walk closed current s) (hfew : s.holders b < 2 ^ 32)
    (hp : s.permits[p]? = some permit) (hb : permit.budget = some b) (now : ℤ) :
    ∃ closed' current', Accounts b (walk ++ [⟨false, now, none⟩]) closed' current' (s.finish p permit now) := by
  have hfinish : s.finish p permit now =
      (s.finishQuery b now).setPermit p { permit with budget := none } := by
    rw [PlanningThread.finish, hb]
  have hholders := holders_finish hp hb (permits_finishQuery s b now) b
  rw [if_pos rfl, ← hfinish] at hholders
  have hdepth : (s.budgets b).queryDepth - 1 = UInt32.ofNat ((s.finish p permit now).holders b) := by
    rw [h.depth, ← hholders, UInt32.ofNat_add]
    exact UInt32.add_sub_cancel _ _
  have hheight := h.holders
  have hne : current ≠ [] := fun hnil => by
    have := h.height_eq_zero.mpr hnil
    omega
  by_cases hlast : (s.budgets b).queryDepth - 1 = 0
  · have hzero := ofNat_eq_zero (hdepth.symm.trans hlast) (by omega)
    obtain ⟨first, rest, rfl⟩ := List.exists_cons_of_ne_nil hne
    obtain ⟨hstart, hactor⟩ := h.running first rfl
    obtain ⟨hd, hq, hstarted, hspent, hentered, hactors⟩ := finishQuery_last hlast now
    have hcost : elapsed (s.budgets b).queryStart now = cost (first :: rest ++ [⟨false, now, none⟩]) := by
      rw [elapsed_eq, hstart, cost_concat rfl]
    rw [hcost] at hspent hactors
    refine ⟨_, _, h.close (by omega) rfl ?_ hzero ?_ fun a _ hab => ?_⟩
    · rw [hfinish]
      exact hentered
    · rw [hfinish]
      exact ⟨hd, hq, hstarted, hspent⟩
    · rw [hfinish] at hab ⊢
      obtain ⟨hbudget, hs, hsp⟩ := hactors a
      refine ⟨hbudget ▸ hab, hs, ?_⟩
      have hopener : opener (first :: rest) = (s.budgets b).queryActor := hactor.symm
      rw [hopener]
      exact hsp
  · have hquery : s.finishQuery b now =
        s.setBudget b { s.budgets b with queryDepth := (s.budgets b).queryDepth - 1 } := finishQuery_eq_of_ne hlast
    have hdown : height Tick.up (current ++ [(⟨false, now, none⟩ : Tick)]) =
        ((s.finish p permit now).holders b : ℤ) := by
      rw [height_concat_down current rfl]
      omega
    have hone : height Tick.up current ≠ 1 := fun hone => by
      rw [hdepth, show (s.finish p permit now).holders b = 0 by omega] at hlast
      exact hlast rfl
    refine ⟨closed, _, h.goOn hne (fun hup => by contradiction) (h.cut.goDown rfl hone hne) ?_ ?_ ?_
      hdown.symm hdepth⟩
    · rw [hfinish, hquery]
      rfl
    · rw [hfinish, hquery]
      rfl
    · rw [hfinish, hquery]
      exact budgets_setBudget_self s b _

/-- A permit that holds another budget, or none, is finished. -/
theorem SameBooks.finish (hquery : ∀ b a, (s.budgets b).queryActor = some a → (s.actors a).budget = some b)
    (hp : s.permits[p]? = some permit) (hb : permit.budget ≠ some b) (now : ℤ) :
    SameBooks b s (s.finish p permit now) := by
  cases hbudget : permit.budget with
  | none =>
    rw [PlanningThread.finish, hbudget]
    exact .refl b s
  | some b₀ =>
    have hne : b ≠ b₀ := fun heq => hb (heq ▸ hbudget)
    have hfinish : s.finish p permit now =
        (s.finishQuery b₀ now).setPermit p { permit with budget := none } := by
      rw [PlanningThread.finish, hbudget]
    have hholders := holders_finish hp hbudget (permits_finishQuery s b₀ now) b
    rw [if_neg hne, add_zero] at hholders
    rw [hfinish]
    exact (SameBooks.finishQuery hne (hquery b₀)).of_holders hholders rfl rfl rfl

end PlanningThread

end AIWorld.Scheduler
