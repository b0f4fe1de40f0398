import AIWorld.Lib.Checked
import AIWorld.Lib.Machine
import AIWorld.Lib.OrdMap
import AIWorld.Lib.PriorityQueue

/-! The schedule of periodic work on agents. The due times are kept in a priority queue
whose entries are never changed in place: an entry that no longer fits the state of its
agent is skipped when it comes up. Times are 64-bit milliseconds; a subtraction that
would wrap around is undefined. -/

namespace AIWorld.Scheduler

open Std (ExtTreeMap)
open Lib

/-! ### Data -/

/-- The times of one agent. -/
structure Slot where
  lastMs : UInt64
  nextMs : UInt64
  periodicNextMs : UInt64
  deriving DecidableEq

structure State extends Slot where
  generation : UInt64
  deriving DecidableEq

structure Entry where
  atMs : UInt64
  id : UInt64
  generation : UInt64
  deriving DecidableEq

structure Update where
  agent : UInt64
  elapsedMs : UInt32
  lateMs : UInt64
  deriving DecidableEq

/-- The comparison of the queue: which entry comes later. -/
def later (a b : Entry) : Bool := if a.atMs ≠ b.atMs then a.atMs > b.atMs else a.id > b.id

structure AgentUpdateScheduler (P : PriorityQueue Entry later) where
  states : ExtTreeMap UInt64 State := ∅
  due : P.Q := P.ofList []
  intervalMs : UInt32 := 1

/-! ### Times -/

def addTime (nowMs delay : UInt64) : UInt64 := nowMs + min delay (0xFFFFFFFFFFFFFFFF - nowMs)

def stableAgentHash (value : UInt64) : UInt64 :=
  let value := value ^^^ (value >>> 33)
  let value := value * 0xff51afd7ed558ccd
  let value := value ^^^ (value >>> 33)
  let value := value * 0xc4ceb9fe1a85ec53
  value ^^^ (value >>> 33)

def entryMatches (state : State) (entry : Entry) : Bool :=
  state.nextMs = entry.atMs ∧ state.generation = entry.generation ∧ state.nextMs > state.lastMs

/-- The times of an agent after a pass, and what the pass is told: how long the last one
is ago and how late this one is. -/
def Slot.advance (slot : Slot) (intervalMs : UInt32) (nowMs : UInt64) :
    Option (UInt32 × UInt64 × Slot) := do
  let elapsed ← checkedSub nowMs slot.lastMs
  let lateMs ← checkedSub nowMs slot.nextMs
  let periodicNextMs ←
    if nowMs ≥ slot.periodicNextMs then do
      let past ← checkedSub nowMs slot.periodicNextMs
      let rest ← checkedSub intervalMs.toUInt64 (past % intervalMs.toUInt64)
      some (addTime nowMs rest)
    else some slot.periodicNextMs
  some ((min elapsed 0xFFFFFFFF).toUInt32, lateMs,
    { lastMs := nowMs, nextMs := periodicNextMs, periodicNextMs })

/-- The first time of the phase that the hash of an agent gives it. -/
def firstTime (id nowMs : UInt64) (intervalMs : UInt32) (salt : UInt64) : UInt64 :=
  addTime nowMs (1 + stableAgentHash (id ^^^ salt) % intervalMs.toUInt64)

/-- The state of an agent after a refresh of the registry; `next` is its new first time. -/
def State.sync (old : Option State) (sameInterval : Prop) [Decidable sameInterval]
    (nowMs next : UInt64) : State :=
  let state : State := { lastMs := nowMs, nextMs := next, periodicNextMs := next, generation := 1 }
  match old with
  | none => state
  | some old =>
    if nowMs ≥ old.lastMs then
      let state := { state with lastMs := old.lastMs }
      if sameInterval then old
      else if old.nextMs < old.periodicNextMs then
        { state with nextMs := min state.nextMs old.nextMs }
      else state
    else state

namespace AgentUpdateScheduler

variable {P : PriorityQueue Entry later}

/-! ### Registration -/

/-- The state that a refresh gives to an agent. -/
def syncState (s : AgentUpdateScheduler P) (nowMs : UInt64) (intervalMs : UInt32) (salt id : UInt64) :
    State :=
  State.sync s.states[id]? (intervalMs = s.intervalMs) nowMs (firstTime id nowMs intervalMs salt)

/-- One agent of a refresh: its new state and its one entry. -/
def syncOne (s : AgentUpdateScheduler P) (nowMs : UInt64) (intervalMs : UInt32) (salt : UInt64)
    (acc : ExtTreeMap UInt64 State × List Entry) (id : UInt64) :
    ExtTreeMap UInt64 State × List Entry :=
  if id = 0 ∨ id ∈ acc.1 then acc
  else
    let state := s.syncState nowMs intervalMs salt id
    (acc.1.insert id state, acc.2 ++ [⟨state.nextMs, id, state.generation⟩])

def sync (s : AgentUpdateScheduler P) (agents : List UInt64) (nowMs : UInt64) (intervalMs : UInt32)
    (salt : UInt64) : AgentUpdateScheduler P :=
  let intervalMs := max 1 intervalMs
  let (states, entries) := agents.foldl (s.syncOne nowMs intervalMs salt) (∅, [])
  { states, due := P.ofList entries, intervalMs }

/-- Ask for one early pass. -/
def wake (s : AgentUpdateScheduler P) (id nowMs : UInt64) : Bool × AgentUpdateScheduler P :=
  match s.states[id]? with
  | none => (false, s)
  | some state =>
    if id = 0 ∨ nowMs ≤ state.lastMs ∨ nowMs ≥ state.nextMs then (false, s)
    else
      let state := { state with nextMs := nowMs, generation := state.generation + 1 }
      (true, { s with
        states := s.states.insert id state
        due := P.push s.due ⟨nowMs, id, state.generation⟩ })

/-! ### Passes -/

def advance (s : AgentUpdateScheduler P) (id nowMs : UInt64) :
    Option (Update × AgentUpdateScheduler P) := do
  let state ← s.states[id]?
  let (elapsedMs, lateMs, slot) ← state.toSlot.advance s.intervalMs nowMs
  let generation := state.generation + 1
  some ({ agent := id, elapsedMs, lateMs }, { s with
    states := s.states.insert id { slot with generation }
    due := P.push s.due ⟨slot.nextMs, id, generation⟩ })

/-- An entry that fits the state of its agent. -/
def live (s : AgentUpdateScheduler P) (entry : Entry) : Bool :=
  match s.states[entry.id]? with
  | none => false
  | some state => entryMatches state entry

def pruneStale (s : AgentUpdateScheduler P) : AgentUpdateScheduler P :=
  { s with due := P.skip s.live (P.size s.due) s.due }

def popDue (s : AgentUpdateScheduler P) (nowMs : UInt64) :
    Option (Option Update × AgentUpdateScheduler P) :=
  let s := s.pruneStale
  match P.top s.due with
  | none => some (none, s)
  | some entry =>
    if entry.atMs > nowMs then some (none, s)
    else ({ s with due := P.pop s.due }.advance entry.id nowMs).map fun (update, s) => (some update, s)

/-- The first agents that are due; nothing is popped but stale entries. -/
def dueAgents (s : AgentUpdateScheduler P) (nowMs : UInt64) (limit : ℕ) :
    List UInt64 × AgentUpdateScheduler P :=
  let s := s.pruneStale
  ((P.take (fun entry => entry.atMs ≤ nowMs) s.live limit (P.size s.due) s.due []).map Entry.id, s)

def popDueAgent (s : AgentUpdateScheduler P) (id nowMs : UInt64) :
    Option (Option Update × AgentUpdateScheduler P) :=
  match s.states[id]? with
  | none => some (none, s)
  | some state =>
    if id = 0 ∨ state.nextMs > nowMs ∨ nowMs ≤ state.lastMs then some (none, s)
    else (s.advance id nowMs).map fun (update, s) => (some update, s)

def oldestLateMs (s : AgentUpdateScheduler P) (nowMs : UInt64) :
    Option (UInt64 × AgentUpdateScheduler P) :=
  let s := s.pruneStale
  match P.top s.due with
  | none => some (0, s)
  | some entry =>
    if nowMs > entry.atMs then (checkedSub nowMs entry.atMs).map fun late => (late, s)
    else some (0, s)

end AgentUpdateScheduler

/-! ### Runs -/

inductive Op where
  | sync (agents : List UInt64) (nowMs : UInt64) (intervalMs : UInt32) (salt : UInt64)
  | wake (id nowMs : UInt64)
  | popDue (nowMs : UInt64)
  | dueAgents (nowMs : UInt64) (limit : ℕ)
  | popDueAgent (id nowMs : UInt64)
  | oldestLateMs (nowMs : UInt64)

/-- The clock that a call is made with. -/
def Op.nowMs : Op → UInt64
  | .sync _ nowMs _ _ | .wake _ nowMs | .popDue nowMs | .dueAgents nowMs _
  | .popDueAgent _ nowMs | .oldestLateMs nowMs => nowMs

inductive Outcome where
  | synced
  | woken (woken : Bool)
  | popped (update : Option Update)
  | due (agents : List UInt64)
  | late (lateMs : UInt64)
  deriving DecidableEq

namespace AgentUpdateScheduler

variable (P : PriorityQueue Entry later)

def step (s : AgentUpdateScheduler P) : Op → Option (Outcome × AgentUpdateScheduler P)
  | .sync agents nowMs intervalMs salt => some (.synced, s.sync agents nowMs intervalMs salt)
  | .wake id nowMs => let (woken, s) := s.wake id nowMs; some (.woken woken, s)
  | .popDue nowMs => (s.popDue nowMs).map fun (update, s) => (.popped update, s)
  | .dueAgents nowMs limit => let (agents, s) := s.dueAgents nowMs limit; some (.due agents, s)
  | .popDueAgent id nowMs => (s.popDueAgent id nowMs).map fun (update, s) => (.popped update, s)
  | .oldestLateMs nowMs => (s.oldestLateMs nowMs).map fun (late, s) => (.late late, s)

def machine : Machine (AgentUpdateScheduler P) Op Outcome := ⟨step P⟩

end AgentUpdateScheduler

end AIWorld.Scheduler
