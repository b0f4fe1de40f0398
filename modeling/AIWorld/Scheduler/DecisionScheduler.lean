import AIWorld.Lib.OrdMap
import AIWorld.Lib.Ranking

/-! Which agents are admitted in a pass, and which are skipped for lack of capacity: of the
decision scheduler, which computes when an agent is due, and of the coarse scheduler, which is
told. Neither changes the state it reads. -/

namespace AIWorld.Scheduler

open Std (ExtTreeMap)
open Lib.Ranking

/-! ### Data -/

inductive DecisionCadenceClass
  | nearby
  | active
  deriving DecidableEq

/-- A stamp of zero means that no decision was ever submitted. -/
structure DecisionScheduleState where
  lastDecisionSubmittedAtMs : UInt64 := 0
  awaitingResponse : Bool := false
  deriving DecidableEq

structure SimulationScheduleState where
  lastTickAtMs : UInt64 := 0
  nextTickAtMs : UInt64 := 0
  deriving DecidableEq

structure SelectionResult where
  admitted : List UInt64
  skippedCapacity : List UInt64
  deriving DecidableEq

/-! ### Decisions -/

namespace DecisionScheduler

structure Candidate where
  agent : UInt64
  cadenceClass : DecisionCadenceClass
  deriving DecidableEq

def lastSubmittedAtMs (state : ExtTreeMap UInt64 DecisionScheduleState) (agent : UInt64) : UInt64 :=
  match state[agent]? with
  | some entry => entry.lastDecisionSubmittedAtMs
  | none => 0

def intervalMs (cadenceClass : DecisionCadenceClass) (nearbyIntervalMs activeIntervalMs : UInt32) :
    UInt32 :=
  if cadenceClass = .nearby then nearbyIntervalMs else activeIntervalMs

def effectiveDueAtMs (state : ExtTreeMap UInt64 DecisionScheduleState) (candidate : Candidate)
    (nearbyIntervalMs activeIntervalMs : UInt32) : UInt64 :=
  let last := lastSubmittedAtMs state candidate.agent
  if last = 0 then 0
  else last + (intervalMs candidate.cadenceClass nearbyIntervalMs activeIntervalMs).toUInt64

def awaitsResponse (state : ExtTreeMap UInt64 DecisionScheduleState) (agent : UInt64) : Bool :=
  match state[agent]? with
  | some entry => entry.awaitingResponse
  | none => false

def isDue (state : ExtTreeMap UInt64 DecisionScheduleState) (nowMs : UInt64)
    (nearbyIntervalMs activeIntervalMs : UInt32) (candidate : Candidate) : Bool :=
  if awaitsResponse state candidate.agent then false
  else !decide (effectiveDueAtMs state candidate nearbyIntervalMs activeIntervalMs > nowMs)

/-- The comparison of the sort. Who has been due for longer comes first, of whichever class. -/
def outranks (state : ExtTreeMap UInt64 DecisionScheduleState)
    (nearbyIntervalMs activeIntervalMs : UInt32) (a b : Candidate) : Bool :=
  let aDueAtMs := effectiveDueAtMs state a nearbyIntervalMs activeIntervalMs
  let bDueAtMs := effectiveDueAtMs state b nearbyIntervalMs activeIntervalMs
  if aDueAtMs ≠ bDueAtMs then decide (aDueAtMs < bDueAtMs)
  else if a.cadenceClass ≠ b.cadenceClass then decide (a.cadenceClass = .nearby)
  else decide (a.agent < b.agent)

def selectDue (state : ExtTreeMap UInt64 DecisionScheduleState) (candidates : List Candidate)
    (nowMs : UInt64) (maxAdmit nearbyIntervalMs activeIntervalMs : UInt32) : SelectionResult :=
  let due := candidates.filter (isDue state nowMs nearbyIntervalMs activeIntervalMs)
  let due := ranked (outranks state nearbyIntervalMs activeIntervalMs) due
  let admitCount := min due.length maxAdmit.toNat
  { admitted := (due.take admitCount).map Candidate.agent
    skippedCapacity := (due.drop admitCount).map Candidate.agent }

end DecisionScheduler

/-! ### Coarse simulation -/

namespace CoarseSimulationScheduler

def nextTickAtMs (state : ExtTreeMap UInt64 SimulationScheduleState) (agent : UInt64) : UInt64 :=
  match state[agent]? with
  | some entry => entry.nextTickAtMs
  | none => 0

def outranks (state : ExtTreeMap UInt64 SimulationScheduleState) (a b : UInt64) : Bool :=
  let aDueAtMs := nextTickAtMs state a
  let bDueAtMs := nextTickAtMs state b
  if aDueAtMs ≠ bDueAtMs then decide (aDueAtMs < bDueAtMs) else decide (a < b)

def selectDue (state : ExtTreeMap UInt64 SimulationScheduleState) (candidates : List UInt64)
    (nowMs : UInt64) (maxAdmit : UInt32) : SelectionResult :=
  let due := candidates.filter fun agent => nextTickAtMs state agent ≤ nowMs
  let due := ranked (outranks state) due
  let admitCount := min due.length maxAdmit.toNat
  { admitted := due.take admitCount
    skippedCapacity := due.drop admitCount }

end CoarseSimulationScheduler

/-! ### The orders -/

section Orders
variable {state : ExtTreeMap UInt64 DecisionScheduleState} {nowMs : UInt64}
  {maxAdmit nearbyIntervalMs activeIntervalMs : UInt32}

theorem DecisionScheduler.outranks_iff {a b : Candidate} :
    outranks state nearbyIntervalMs activeIntervalMs a b = true ↔
      effectiveDueAtMs state a nearbyIntervalMs activeIntervalMs <
        effectiveDueAtMs state b nearbyIntervalMs activeIntervalMs ∨
      effectiveDueAtMs state a nearbyIntervalMs activeIntervalMs =
        effectiveDueAtMs state b nearbyIntervalMs activeIntervalMs ∧
      (a.cadenceClass = .nearby ∧ b.cadenceClass = .active ∨
        a.cadenceClass = b.cadenceClass ∧ a.agent < b.agent) := by
  obtain ⟨agentA, classA⟩ := a
  obtain ⟨agentB, classB⟩ := b
  unfold outranks
  cases classA <;> cases classB <;> grind

theorem DecisionScheduler.strict_outranks (state : ExtTreeMap UInt64 DecisionScheduleState)
    (nearbyIntervalMs activeIntervalMs : UInt32) :
    Strict (outranks state nearbyIntervalMs activeIntervalMs) where
  irrefl a := by
    rw [Bool.eq_false_iff, ne_eq, outranks_iff]
    grind
  trans a b c hab hbc := by
    rw [outranks_iff] at hab hbc ⊢
    grind
  connected a b hab hba := by
    rw [Bool.eq_false_iff, ne_eq, outranks_iff] at hab hba
    obtain ⟨agentA, classA⟩ := a
    obtain ⟨agentB, classB⟩ := b
    cases classA <;> cases classB <;> grind

theorem CoarseSimulationScheduler.outranks_iff {state : ExtTreeMap UInt64 SimulationScheduleState}
    {a b : UInt64} :
    outranks state a b = true ↔ nextTickAtMs state a < nextTickAtMs state b ∨
      nextTickAtMs state a = nextTickAtMs state b ∧ a < b := by
  unfold outranks
  grind

theorem CoarseSimulationScheduler.strict_outranks
    (state : ExtTreeMap UInt64 SimulationScheduleState) : Strict (outranks state) where
  irrefl a := by
    rw [Bool.eq_false_iff, ne_eq, outranks_iff]
    grind
  trans a b c hab hbc := by
    rw [outranks_iff] at hab hbc ⊢
    grind
  connected a b hab hba := by
    rw [Bool.eq_false_iff, ne_eq, outranks_iff] at hab hba
    grind

end Orders

end AIWorld.Scheduler
