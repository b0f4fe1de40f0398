import AIWorld.Lib.Machine
import AIWorld.Lib.OrdMap

/-! The queue of agents that wait for advice. At most one of them at a time is offered the
budget; it has five seconds to acquire it. Returning agents are served first, but three
turns of theirs in a row let one of the others pass. All subtractions of times are
guarded in the source, so plain 64-bit arithmetic is used here. -/

namespace AIWorld.Agent

open Lib

/-! ### Data -/

structure Waiting where
  id : UInt64
  since : UInt64
  seenAt : UInt64
  returning : Bool
  dispatchable : Bool
  deriving DecidableEq

/-- A completed turn: who it was offered to, the class of that agent then, the class that
the turn is counted with, and whether it ended by an acquisition. -/
structure Turn where
  id : UInt64
  offeredReturning : Bool
  returning : Bool
  acquired : Bool
  deriving DecidableEq

/-- The budget. The turns are a history that nothing reads. -/
structure LivingAdviceBudget where
  waiting : List Waiting := []
  admittedAt : Option UInt64 := none
  offeredId : Option UInt64 := none
  offeredAt : UInt64 := 0
  sweptAt : UInt64 := 0
  offeredReturning : Bool := false
  urgentRun : ℕ := 0
  turns : List Turn := []
  deriving DecidableEq

/-- An agent that has not been refreshed for half a minute, or was refreshed in the future. -/
def Waiting.unseen (w : Waiting) (now : UInt64) : Bool := now < w.seenAt || now - w.seenAt > 30000

/-- Update the first entry of an agent. -/
def restate (id now : UInt64) (returning dispatchable : Bool) : List Waiting → List Waiting
  | [] => []
  | w :: ws =>
    if w.id == id then { w with seenAt := now, returning, dispatchable } :: ws
    else w :: restate id now returning dispatchable ws

namespace LivingAdviceBudget

/-! ### Turns -/

/-- Two seconds have passed since the last admission. -/
def isOpen (s : LivingAdviceBudget) (now : UInt64) : Bool :=
  match s.admittedAt with
  | none => true
  | some admittedAt => now ≥ admittedAt && now - admittedAt ≥ 2000

def completeTurn (s : LivingAdviceBudget) (returning : Bool) : LivingAdviceBudget :=
  { s with urgentRun := if returning then min 3 (s.urgentRun + 1) else 0 }

/-- Add a completed turn to the history. -/
def record (s : LivingAdviceBudget) (turn : Turn) : LivingAdviceBudget :=
  { s with turns := s.turns ++ [turn] }

def passOffer (s : LivingAdviceBudget) : LivingAdviceBudget :=
  match s.offeredId with
  | none => s
  | some id =>
    let s := (s.completeTurn s.offeredReturning).record ⟨id, s.offeredReturning, s.offeredReturning, false⟩
    { s with offeredId := none }

def sweepDue (s : LivingAdviceBudget) (now : UInt64) : Bool :=
  !(now ≥ s.sweptAt && now - s.sweptAt < 1000)

def expire (s : LivingAdviceBudget) (now : UInt64) : LivingAdviceBudget :=
  if s.sweepDue now then
    { s with sweptAt := now, waiting := s.waiting.filter fun w => !w.unseen now }
  else s

/-- The agent whose turn it is. -/
def next (s : LivingAdviceBudget) : Option Waiting :=
  let urgent := s.waiting.find? fun w => w.returning && w.dispatchable
  let normal := s.waiting.find? fun w => !w.returning && w.dispatchable
  if urgent.isSome && (s.urgentRun < 3 || normal.isNone) then urgent else normal

def offerNext (s : LivingAdviceBudget) (now : UInt64) : LivingAdviceBudget :=
  match s.next with
  | none => s
  | some w => { s with offeredId := some w.id, offeredAt := now, offeredReturning := w.returning }

def offer (s : LivingAdviceBudget) (now : UInt64) : LivingAdviceBudget :=
  let s := s.expire now
  if !s.isOpen now then { s with offeredId := none }
  else
    match s.offeredId with
    | none => s.offerNext now
    | some id =>
      let found := s.waiting.find? fun w => w.id == id
      if now < s.offeredAt then { s with offeredId := none }.offerNext now
      else
        match found with
        | none => s.passOffer.offerNext now
        | some w =>
          if !w.dispatchable then s.passOffer.offerNext now
          else if now - s.offeredAt < 5000 then s
          else
            -- the offer was missed: the agent goes to the back of the queue
            let waiting := s.waiting.eraseP (fun w => w.id == id) ++ [w]
            { s with waiting }.passOffer.offerNext now

/-! ### Calls -/

def cancel (s : LivingAdviceBudget) (id : UInt64) : LivingAdviceBudget :=
  let s := { s with waiting := s.waiting.filter fun w => w.id != id }
  if s.offeredId == some id then s.passOffer else s

def refresh (s : LivingAdviceBudget) (id now : UInt64) (eligible returning dispatchable : Bool) :
    LivingAdviceBudget :=
  let s := s.expire now
  if !eligible then s.cancel id
  else { s with waiting := restate id now returning dispatchable s.waiting }.offer now

def ready (s : LivingAdviceBudget) (id now : UInt64) : Bool × LivingAdviceBudget :=
  let s := s.offer now
  (s.offeredId == some id, s)

/-- A new entry at the back, unless the agent has one or the queue is full. -/
def enqueue (s : LivingAdviceBudget) (id now : UInt64) (returning : Bool) : LivingAdviceBudget :=
  if s.waiting.all (fun w => w.id != id) && s.waiting.length < 2048 then
    { s with waiting := s.waiting ++ [⟨id, now, now, returning, true⟩] }
  else s

/-- What an acquisition does before it asks whether the agent is the offered one. -/
def request (s : LivingAdviceBudget) (id now : UInt64) (returning : Bool) : LivingAdviceBudget :=
  (s.refresh id now true returning true).enqueue id now returning

/-- The admission of the offered agent. -/
def admitAgent (s : LivingAdviceBudget) (id now : UInt64) (returning : Bool) : LivingAdviceBudget :=
  let s := (s.completeTurn returning).record ⟨id, s.offeredReturning, returning, true⟩
  let s := { s with offeredId := none }.cancel id
  { s with admittedAt := some now }

def acquire (s : LivingAdviceBudget) (id now : UInt64) (returning : Bool) : Bool × LivingAdviceBudget :=
  let (isReady, s) := (s.request id now returning).ready id now
  if isReady then (true, s.admitAgent id now returning) else (false, s)

/-! ### Queries -/

def waitMs (s : LivingAdviceBudget) (id now : UInt64) : Option UInt64 :=
  (s.waiting.find? fun w => w.id == id).map fun w => if now ≥ w.since then now - w.since else 0

def ids (s : LivingAdviceBudget) : List UInt64 := s.waiting.map Waiting.id

end LivingAdviceBudget

/-! ### Runs -/

inductive AdviceOp where
  | cancel (id : UInt64)
  | refresh (id now : UInt64) (eligible returning dispatchable : Bool)
  | ready (id now : UInt64)
  | acquire (id now : UInt64) (returning : Bool)

/-- The clock that a call is made with; a cancellation has none. -/
def AdviceOp.now : AdviceOp → Option UInt64
  | .cancel _ => none
  | .refresh _ now _ _ _ | .ready _ now | .acquire _ now _ => some now

namespace LivingAdviceBudget

/-- One call; the answer of a call without one is `false`. -/
def step (s : LivingAdviceBudget) : AdviceOp → Option (Bool × LivingAdviceBudget)
  | .cancel id => some (false, s.cancel id)
  | .refresh id now eligible returning dispatchable =>
    some (false, s.refresh id now eligible returning dispatchable)
  | .ready id now => some (s.ready id now)
  | .acquire id now returning => some (s.acquire id now returning)

def machine : Machine LivingAdviceBudget AdviceOp Bool := ⟨step⟩

end LivingAdviceBudget

end AIWorld.Agent
