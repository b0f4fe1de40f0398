import AIWorld.Scheduler.PlanningWorkScheduler
import Mathlib.Logic.Function.Basic

/-! The budget of the planning work of one frame. Work is done under a permit; permits are
objects that can be moved, finished early and destroyed in any order. What is nested in
other work of the same agent shares its charge. Scopes are entered and left like a stack;
they say which budget and which agent the work of the thread belongs to.

Times are nanoseconds of a steady clock and durations are microseconds, both as integers:
their overflow is undefined in the source. The depth is the 32-bit counter of the source. -/

namespace AIWorld.Scheduler

open Std (ExtTreeMap)
open Lib

/-! ### Data -/

structure PlanningWorkBudget.Statistics where
  started : ℕ := 0
  deferred : ℕ := 0
  operationUs : ℕ := 0
  maxOperationUs : ℕ := 0

/-- Actor scopes are named by the order in which they were entered. -/
structure PlanningWorkBudget where
  duration : ℤ
  operations : ℕ
  spent : ℤ := 0
  queryStart : ℤ := 0
  queryDepth : UInt32 := 0
  queryActor : Option ℕ := none
  statistics : PlanningWorkBudget.Statistics := {}

structure ActorScope where
  scheduler : ℕ
  id : UInt64
  budget : Option ℕ
  previous : Option ℕ
  duration : ℤ
  spent : ℤ := 0
  operations : ℕ
  started : ℕ := 0

structure Permit where
  budget : Option ℕ
  allowed : Bool
  deriving DecidableEq

/-- What leaving a scope restores. -/
inductive Frame where
  | scope (previous : Option ℕ)
  | actor (scope : ℕ)

/-- The scopes of the thread, and the objects that it works on. -/
structure PlanningThread where
  active : Option ℕ := none
  actor : Option ℕ := none
  frames : List Frame := []
  entered : ℕ := 0
  budgets : ℕ → PlanningWorkBudget
  actors : ℕ → ActorScope
  schedulers : ℕ → PlanningWorkScheduler
  permits : ExtTreeMap ℕ Permit := ∅

namespace PlanningThread

/-! ### Budgets -/

def currentActor (s : PlanningThread) (b : ℕ) : Option ℕ :=
  match s.actor with
  | none => none
  | some a => if (s.actors a).budget = some b then some a else none

/-- An actor scope has work left, and its agent may be admitted. -/
def actorCanStart (s : PlanningThread) (a : ℕ) : Bool :=
  let actor := s.actors a
  actor.started < actor.operations && actor.spent < actor.duration * 1000 &&
    (s.schedulers actor.scheduler).canAdmit actor.id

def canStart (s : PlanningThread) (b : ℕ) : Bool :=
  let budget := s.budgets b
  if budget.queryDepth ≠ 0 then s.currentActor b = budget.queryActor
  else
    budget.spent < budget.duration * 1000 && budget.statistics.started < budget.operations &&
      (s.currentActor b).all s.actorCanStart

def setBudget (s : PlanningThread) (b : ℕ) (budget : PlanningWorkBudget) : PlanningThread :=
  { s with budgets := Function.update s.budgets b budget }

def setActor (s : PlanningThread) (a : ℕ) (actor : ActorScope) : PlanningThread :=
  { s with actors := Function.update s.actors a actor }

def setScheduler (s : PlanningThread) (n : ℕ) (scheduler : PlanningWorkScheduler) : PlanningThread :=
  { s with schedulers := Function.update s.schedulers n scheduler }

def defer (s : PlanningThread) (b : ℕ) : PlanningThread :=
  let budget := s.budgets b
  s.setBudget b
    { budget with statistics := { budget.statistics with deferred := budget.statistics.deferred + 1 } }

/-- The outermost query begins. -/
def beginQuery (s : PlanningThread) (b : ℕ) (now : ℤ) (actor : Option ℕ) : PlanningThread :=
  let budget := s.budgets b
  s.setBudget b
    { budget with
      statistics := { budget.statistics with started := budget.statistics.started + 1 }
      queryDepth := 1
      queryStart := now
      queryActor := actor }

def tryAcquire (s : PlanningThread) (now : ℤ) : Permit × PlanningThread :=
  match s.active with
  | none => (⟨none, true⟩, s)
  | some b =>
    if !s.canStart b then (⟨none, false⟩, s.defer b)
    else
      let budget := s.budgets b
      if budget.queryDepth ≠ 0 then
        (⟨some b, true⟩, s.setBudget b { budget with queryDepth := budget.queryDepth + 1 })
      else
        match s.currentActor b with
        | none => (⟨some b, true⟩, s.beginQuery b now none)
        | some a =>
          let actor := s.actors a
          let (admitted, scheduler) := (s.schedulers actor.scheduler).tryAdmit actor.id
          let s := s.setScheduler actor.scheduler scheduler
          if !admitted then (⟨none, false⟩, s.defer b)
          else
            (⟨some b, true⟩,
              (s.setActor a { actor with started := actor.started + 1 }).beginQuery b now (some a))

/-- The time from the start of a query; none if the clock went back. -/
def elapsed (queryStart now : ℤ) : ℤ := if now ≥ queryStart then now - queryStart else 0

/-- The outermost query ends and is charged. -/
def charge (s : PlanningThread) (b : ℕ) (elapsed : ℤ) : PlanningThread :=
  let budget := s.budgets b
  let spent := budget.spent + elapsed
  let elapsedUs := (elapsed / 1000).toNat
  let maxOperationUs := max budget.statistics.maxOperationUs elapsedUs
  let s' := s.setBudget b
    { budget with
      spent
      statistics := { budget.statistics with operationUs := (spent / 1000).toNat, maxOperationUs }
      queryActor := none }
  match budget.queryActor with
  | none => s'
  | some a => s'.setActor a { s.actors a with spent := (s.actors a).spent + elapsed }

def finishQuery (s : PlanningThread) (b : ℕ) (now : ℤ) : PlanningThread :=
  let budget := s.budgets b
  let queryDepth := budget.queryDepth - 1
  let s := s.setBudget b { budget with queryDepth }
  if queryDepth ≠ 0 then s else s.charge b (elapsed budget.queryStart now)

/-! ### Permits -/

def setPermit (s : PlanningThread) (p : ℕ) (permit : Permit) : PlanningThread :=
  { s with permits := s.permits.insert p permit }

/-- Finish the permit object `p`. -/
def finish (s : PlanningThread) (p : ℕ) (permit : Permit) (now : ℤ) : PlanningThread :=
  match permit.budget with
  | none => s
  | some b => (s.finishQuery b now).setPermit p { permit with budget := none }

/-- The object `p` takes over what `q` holds. -/
def exchange (s : PlanningThread) (p q : ℕ) (permit : Permit) : PlanningThread :=
  (s.setPermit q ⟨none, false⟩).setPermit p permit

/-! ### Scopes -/

def enterScope (s : PlanningThread) (b : ℕ) : PlanningThread :=
  { s with active := some b, frames := .scope s.active :: s.frames }

def enterActor (s : PlanningThread) (scheduler : ℕ) (id : UInt64) (duration : ℤ) (operations : ℕ) :
    PlanningThread :=
  let actor : ActorScope :=
    { scheduler, id, budget := s.active, previous := s.actor, duration, operations }
  { s.setActor s.entered actor with
    actor := some s.entered
    entered := s.entered + 1
    frames := .actor s.entered :: s.frames }

/-- The query of some budget is still charged to an actor scope. -/
def inUse (s : PlanningThread) (a : ℕ) : Bool :=
  (s.actors a).budget.any fun b => (s.budgets b).queryActor = some a

/-- The end of an actor scope. -/
def leaveActor (s : PlanningThread) (a : ℕ) : PlanningThread :=
  let actor := s.actors a
  let scheduler := (s.schedulers actor.scheduler).endActor actor.id (actor.started ≠ 0)
  { s.setScheduler actor.scheduler scheduler with actor := actor.previous }

end PlanningThread

/-! ### Runs -/

inductive BudgetOp where
  | enterScope (budget : ℕ)
  | enterActor (scheduler : ℕ) (id : UInt64) (duration : ℤ) (operations : ℕ)
  | leave
  | tryAcquire (permit : ℕ) (now : ℤ)
  | finish (permit : ℕ) (now : ℤ)
  | moveConstruct (permit other : ℕ)
  | moveAssign (permit other : ℕ) (now : ℤ)
  | destroy (permit : ℕ) (now : ℤ)
  | markDeferred
  | planning (scheduler : ℕ) (op : PlanningOp)

inductive BudgetOutcome where
  | done
  | acquired (allowed : Bool)
  | ended (scheduler : ℕ) (id : UInt64) (didWork : Bool)
  | planned (answer : Bool)
  deriving DecidableEq

namespace PlanningThread

/-- One step of the thread. It is undefined on objects that do not exist, and where a scope is
left that has not been entered or whose permits are not finished. -/
def step (s : PlanningThread) : BudgetOp → Option (BudgetOutcome × PlanningThread)
  | .enterScope b => some (.done, s.enterScope b)
  | .enterActor scheduler id duration operations =>
    some (.done, s.enterActor scheduler id duration operations)
  | .leave =>
    match s.frames with
    | [] => none
    | .scope previous :: frames => some (.done, { s with active := previous, frames })
    | .actor a :: frames =>
      if s.inUse a then none
      else
        let actor := s.actors a
        some (.ended actor.scheduler actor.id (actor.started ≠ 0), { s.leaveActor a with frames })
  | .tryAcquire p now =>
    if p ∈ s.permits then none
    else
      let (permit, s) := s.tryAcquire now
      some (.acquired permit.allowed, s.setPermit p permit)
  | .finish p now => do
    let permit ← s.permits[p]?
    some (.done, s.finish p permit now)
  | .moveConstruct p q => do
    let permit ← s.permits[q]?
    if p ∈ s.permits then none else some (.done, s.exchange p q permit)
  | .moveAssign p q now => do
    let permit ← s.permits[p]?
    let other ← s.permits[q]?
    if p = q then some (.done, s) else some (.done, (s.finish p permit now).exchange p q other)
  | .destroy p now => do
    let permit ← s.permits[p]?
    let s := s.finish p permit now
    some (.done, { s with permits := s.permits.erase p })
  | .markDeferred => some (.done, s.active.elim s s.defer)
  | .planning n op => do
    let (answer, scheduler) ← PlanningWorkScheduler.machine.step (s.schedulers n) op
    some (.planned answer, s.setScheduler n scheduler)

def machine : Machine PlanningThread BudgetOp BudgetOutcome := ⟨step⟩

/-- Before any scope is entered. -/
def fresh (budgets : ℕ → ℤ × ℕ) (schedulers : ℕ → PlanningWorkScheduler) : PlanningThread where
  budgets b := { duration := (budgets b).1, operations := (budgets b).2 }
  actors _ := { scheduler := 0, id := 0, budget := none, previous := none, duration := 0, operations := 0 }
  schedulers := schedulers

end PlanningThread

end AIWorld.Scheduler
