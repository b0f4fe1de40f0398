import AIWorld.Agent.LivingSurfaceCorridor
import AIWorld.Lib.Machine

/-! One unfinished decision of an actor and the clock of its inactivity. Stationary care and
waiting for a turn of the planner suspend the clock; real query work starts it anew. -/

namespace AIWorld.Agent

open Lib

/-! ### Pauses -/

structure LivingPlanningCarePause where
  active : Bool := false
  startedAt : UInt64 := 0
  endedAt : UInt64 := 0
  progressAnchor : UInt64 := 0
  completedMs : UInt64 := 0
  deriving DecidableEq

namespace LivingPlanningCarePause

def begin (p : LivingPlanningCarePause) (now progressAt : UInt64) : Bool × LivingPlanningCarePause :=
  if now < progressAt then (false, p)
  else if p.active then (p.progressAnchor = progressAt ∧ now ≥ p.startedAt, p)
  else
    let p := if p.progressAnchor ≠ progressAt then
      { p with completedMs := 0, endedAt := 0, progressAnchor := progressAt } else p
    if now < p.endedAt then (false, p)
    else (true, { p with startedAt := now, active := true })

/-- The end of a pause that started in an earlier epoch adds nothing. -/
def finish (p : LivingPlanningCarePause) (now progressAt : UInt64) : Bool × LivingPlanningCarePause :=
  if !p.active then (true, p)
  else if now < p.startedAt ∨ now < progressAt then (false, {})
  else
    let p := if p.progressAnchor = progressAt then
      { p with completedMs := p.completedMs + (now - p.startedAt) }
    else { p with completedMs := 0, progressAnchor := progressAt }
    (true, { p with endedAt := now, active := false })

def pausedMs (p : LivingPlanningCarePause) (now progressAt : UInt64) (allowActive : Bool) :
    Option UInt64 :=
  if (p.active ∧ !allowActive) ∨ now < progressAt then none
  else if p.progressAnchor = progressAt then
    if now < p.endedAt ∨ (p.active ∧ now < p.startedAt) then none
    else
      let paused := if p.active then p.completedMs + (now - p.startedAt) else p.completedMs
      some (min paused (now - progressAt))
  else some (min 0 (now - progressAt))

end LivingPlanningCarePause

/-- Real work and administrative waits are kept apart. -/
def livingPlanningFresh (now progressAt : UInt64) (care waiting : LivingPlanningCarePause)
    (timeoutMs : UInt64) : Bool :=
  match care.pausedMs now progressAt false, waiting.pausedMs now progressAt true with
  | some careMs, some waitMs =>
    let elapsed := now - progressAt
    let paused := min careMs elapsed + min waitMs (elapsed - min careMs elapsed)
    elapsed - paused < timeoutMs
  | _, _ => false

/-! ### The decision -/

/-- `G` is the search for a ground to forage on. -/
structure LivingPlanningContext (G : Type) [Inhabited G] where
  deferred : Bool := false
  startedAt : UInt64 := 0
  progressAt : UInt64 := 0
  deferredAt : UInt64 := 0
  resets : UInt32 := 0
  reason : String := "NONE"
  stage : String := "NONE"
  origin : ActionPosition Float32 := ⟨0, 0, 0, 0⟩
  home : ActionPosition Float32 := ⟨0, 0, 0, 0⟩
  danger : Option (ActionPosition Float32) := none
  phaseMask : UInt32 := 0
  capabilities : UInt32 := 0
  forageAttempts : UInt32 := 0
  refugeAttempts : UInt32 := 0
  forageAttemptStarted : Bool := false
  forageGround : G := default
  forageStep : Option (ActionPosition Float32) := none
  huntScanned : Bool := false
  cohesionChecked : Bool := false
  carePause : LivingPlanningCarePause := {}
  budgetPause : LivingPlanningCarePause := {}

namespace LivingPlanningContext

variable {G : Type} [Inhabited G]

def begin (c : LivingPlanningContext G) (now : UInt64) (here home : ActionPosition Float32)
    (danger : Option (ActionPosition Float32)) (phaseMask capabilities : UInt32) :
    LivingPlanningContext G where
  resets := if c.startedAt ≠ 0 ∧ c.deferred then c.resets + 1 else c.resets
  startedAt := now
  progressAt := now
  origin := here
  home := home
  danger := danger
  phaseMask := phaseMask
  capabilities := capabilities
  deferred := false
  deferredAt := 0
  reason := "NONE"
  stage := "DECISION"
  forageAttempts := 0
  refugeAttempts := 0
  huntScanned := false
  cohesionChecked := false
  forageAttemptStarted := false
  forageGround := default
  forageStep := none
  carePause := {}
  budgetPause := {}

def markDeferred (c : LivingPlanningContext G) (now : UInt64) (reason stage : String) :
    LivingPlanningContext G :=
  { c with
    deferredAt := if c.deferredAt = 0 then now else c.deferredAt
    deferred := true
    reason
    stage
    budgetPause := (c.budgetPause.begin now c.progressAt).2 }

def clearWait (c : LivingPlanningContext G) : LivingPlanningContext G :=
  { c with deferred := false, deferredAt := 0, reason := "NONE", budgetPause := {} }

def markProgress (c : LivingPlanningContext G) (now : UInt64) : LivingPlanningContext G :=
  { c with progressAt := now }.clearWait

def resumeWork (c : LivingPlanningContext G) (now : UInt64) : LivingPlanningContext G :=
  { c with
    budgetPause := (c.budgetPause.finish now c.progressAt).2
    deferred := false }

def fresh (c : LivingPlanningContext G) (now : UInt64) : Bool :=
  livingPlanningFresh now c.progressAt c.carePause c.budgetPause 30000

def pauseForCare (c : LivingPlanningContext G) (now : UInt64) : Bool × LivingPlanningContext G :=
  if now < c.startedAt ∨ (!c.carePause.active ∧ !c.fresh now) then (false, c)
  else
    match c.carePause.begin now c.progressAt with
    | (false, carePause) => (false, { c with carePause })
    | (true, carePause) =>
      (true, { c with
        carePause
        budgetPause := (c.budgetPause.finish now c.progressAt).2
        deferred := true })

def resumeAfterCare (c : LivingPlanningContext G) (now : UInt64) : Bool × LivingPlanningContext G :=
  if now < c.startedAt then (false, { c with carePause := {}, deferred := false })
  else
    match c.carePause.finish now c.progressAt with
    | (false, _) => (false, { c with carePause := {}, deferred := false })
    | (true, carePause) => (true, { c with carePause })

/-! ### Runs -/

inductive Op
  | begin (here home : ActionPosition Float32) (danger : Option (ActionPosition Float32))
      (phaseMask capabilities : UInt32)
  | markDeferred (reason stage : String)
  | resumeWork
  | pauseForCare
  | resumeAfterCare
  | markProgress

/-- An operation and its time; the answer of an operation without one is true. -/
def step (c : LivingPlanningContext G) : Op × UInt64 → Bool × LivingPlanningContext G
  | (.begin here home danger phaseMask capabilities, now) =>
    (true, c.begin now here home danger phaseMask capabilities)
  | (.markDeferred reason stage, now) => (true, c.markDeferred now reason stage)
  | (.resumeWork, now) => (true, c.resumeWork now)
  | (.pauseForCare, now) => c.pauseForCare now
  | (.resumeAfterCare, now) => c.resumeAfterCare now
  | (.markProgress, now) => (true, c.markProgress now)

variable (G) in
def machine : Machine (LivingPlanningContext G) (Op × UInt64) Bool := ⟨fun c i => some (c.step i)⟩

end LivingPlanningContext

end AIWorld.Agent
