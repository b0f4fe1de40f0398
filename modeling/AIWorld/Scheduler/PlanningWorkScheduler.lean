import AIWorld.Lib.Machine
import AIWorld.Lib.OrdMap
import Mathlib.Data.Finset.Basic
import Mathlib.Data.Finset.Dedup

/-! Which agent may search for a plan. Agents that asked for it are served in the order of
their sequence numbers, but only those that are due in the current frame count. An agent
that has done some work gets a new number and so goes behind all others. -/

namespace AIWorld.Scheduler

open Std (ExtTreeMap)
open Lib

/-- The members of a set are gone through, and not all integers that there are. -/
instance decidableForallMem (s : Finset UInt64) (p : UInt64 → Prop) [DecidablePred p] : Decidable (∀ a ∈ s, p a) :=
  Finset.decidableDforallFinset

/-! ### Data -/

structure PlanningWorkScheduler.Waiting where
  since : UInt64
  seenAt : UInt64
  sequence : UInt64
  deriving DecidableEq

/-- The agent 0 is none. -/
structure PlanningWorkScheduler where
  waiting : ExtTreeMap UInt64 PlanningWorkScheduler.Waiting := ∅
  ready : Finset UInt64 := ∅
  active : UInt64 := 0
  sequence : UInt64 := 0
  nowMs : UInt64 := 0

namespace PlanningWorkScheduler

/-! ### Calls -/

def beginFrame (s : PlanningWorkScheduler) (nowMs : UInt64) (ready : List UInt64) : PlanningWorkScheduler :=
  { s with nowMs, active := 0, ready := (ready.filter (· ≠ 0)).toFinset }

/-- Give an agent the next number. -/
def enqueue (s : PlanningWorkScheduler) (id nowMs : UInt64) : PlanningWorkScheduler :=
  { s with
    sequence := s.sequence + 1
    waiting := s.waiting.insert id ⟨nowMs, nowMs, s.sequence + 1⟩ }

def request (s : PlanningWorkScheduler) (id nowMs : UInt64) : PlanningWorkScheduler :=
  if id = 0 then s
  else
    match s.waiting[id]? with
    | none => s.enqueue id nowMs
    | some entry =>
      if nowMs < entry.seenAt then s.enqueue id nowMs
      else { s with waiting := s.waiting.insert id { entry with seenAt := nowMs } }

def cancel (s : PlanningWorkScheduler) (id : UInt64) : PlanningWorkScheduler :=
  { s with
    waiting := s.waiting.erase id
    ready := s.ready.erase id
    active := if s.active = id then 0 else s.active }

def syncMembership (s : PlanningWorkScheduler) (members : List UInt64) : PlanningWorkScheduler :=
  let live := (members.filter (· ≠ 0)).toFinset
  { s with
    waiting := s.waiting.filter fun id _ => id ∈ live
    ready := s.ready.filter (· ∈ live)
    active := if s.active ≠ 0 ∧ s.active ∉ live then 0 else s.active }

def expireUnseen (s : PlanningWorkScheduler) (nowMs ttlMs : UInt64) : PlanningWorkScheduler :=
  let waiting := s.waiting.filter fun _ entry => !(nowMs < entry.seenAt || nowMs - entry.seenAt ≥ ttlMs)
  { s with
    waiting
    active := if s.active ≠ 0 ∧ s.active ∉ waiting then 0 else s.active }

def canAdmit (s : PlanningWorkScheduler) (id : UInt64) : Bool :=
  if s.active ≠ 0 then s.active = id
  else
    match s.waiting[id]? with
    | none => false
    | some entry =>
      if id = 0 ∨ id ∉ s.ready then false
      else ∀ other ∈ s.ready, (s.waiting[other]?).all fun waiting => !(waiting.sequence < entry.sequence)

def tryAdmit (s : PlanningWorkScheduler) (id : UInt64) : Bool × PlanningWorkScheduler :=
  if s.canAdmit id then (true, { s with active := id }) else (false, s)

def endActor (s : PlanningWorkScheduler) (id : UInt64) (didWork : Bool) : PlanningWorkScheduler :=
  let s := { s with ready := s.ready.erase id, active := if s.active = id then 0 else s.active }
  if didWork ∧ id ∈ s.waiting then s.enqueue id s.nowMs else s

/-! ### Queries -/

def priority (s : PlanningWorkScheduler) (id : UInt64) : UInt64 :=
  match s.waiting[id]? with
  | some entry => entry.sequence
  | none => 0xFFFFFFFFFFFFFFFF

def waitMs (s : PlanningWorkScheduler) (id nowMs : UInt64) : Option UInt64 :=
  (s.waiting[id]?).map fun entry => if nowMs ≥ entry.since then nowMs - entry.since else 0

end PlanningWorkScheduler

/-! ### Runs -/

inductive PlanningOp where
  | beginFrame (nowMs : UInt64) (ready : List UInt64)
  | request (id nowMs : UInt64)
  | cancel (id : UInt64)
  | syncMembership (members : List UInt64)
  | expireUnseen (nowMs ttlMs : UInt64)
  | canAdmit (id : UInt64)
  | tryAdmit (id : UInt64)
  | endActor (id : UInt64) (didWork : Bool)

namespace PlanningWorkScheduler

/-- One call; the answer of a call without one is `false`. -/
def step (s : PlanningWorkScheduler) : PlanningOp → Option (Bool × PlanningWorkScheduler)
  | .beginFrame nowMs ready => some (false, s.beginFrame nowMs ready)
  | .request id nowMs => some (false, s.request id nowMs)
  | .cancel id => some (false, s.cancel id)
  | .syncMembership members => some (false, s.syncMembership members)
  | .expireUnseen nowMs ttlMs => some (false, s.expireUnseen nowMs ttlMs)
  | .canAdmit id => some (s.canAdmit id, s)
  | .tryAdmit id => some (s.tryAdmit id)
  | .endActor id didWork => some (false, s.endActor id didWork)

def machine : Machine PlanningWorkScheduler PlanningOp Bool := ⟨step⟩

end PlanningWorkScheduler

end AIWorld.Scheduler
