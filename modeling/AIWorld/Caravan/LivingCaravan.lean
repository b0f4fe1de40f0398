import AIWorld.Caravan.LivingCaravanRuntime
import AIWorld.LivingSupply.State

/-! The update of a caravan's member, section by section, and the observer of lives. What the world says during
a call is given with the call: where everyone stands, who is bound, what each does, and the answers of the
ledger, of the planner and of whoever starts an action. Diagnostic texts and the memory of travels are left out. -/

namespace AIWorld.Caravan

open Agent (FloatOps ActionPosition)
open LivingSupply (Result)
open Lib (Machine)

/-! ### Records -/

inductive Phase
  | idle | moving | acting | hunting | feeding | defending | fleeing | seekingSafety | investigating
  deriving DecidableEq

inductive GoalType
  | localActivity
  | other (code : ℕ)
  deriving DecidableEq

inductive ActionType
  | moveTo | ambient
  | other (code : ℕ)
  deriving DecidableEq

inductive RoleActivity
  | none | eat | work
  | other (code : ℕ)
  deriving DecidableEq

inductive Purpose
  | none | caravanRally | caravanVillage | caravanCity | supplyPlanningDeferred
  | other (code : ℕ)
  deriving DecidableEq

structure Goal where
  type : GoalType
  startedAtMs : ℕ

structure Action where
  type : ActionType
  sourceGoal : GoalType
  goalStartedAtMs : ℕ
  startedAtMs : ℕ

/-- What an actor does: its role, its goal and its action. -/
structure Record where
  phase : Phase := .idle
  activity : RoleActivity := .none
  sourceGoal : GoalType := .localActivity
  startedAtMs : ℕ := 0
  nextDecisionAtMs : ℕ := 0
  purpose : Purpose := .none
  carePause : Bool := false
  goal : Option Goal := none
  action : Option Action := none

def caravanMovement (p : Purpose) : Bool := p == .caravanRally || p == .caravanVillage || p == .caravanCity

def ownedGoal (r : Record) : Bool :=
  r.sourceGoal == .localActivity &&
    r.goal.any fun goal => goal.type == .localActivity && goal.startedAtMs == r.startedAtMs

def ownedAction (r : Record) (type : ActionType) : Bool :=
  ownedGoal r && r.action.any fun action => action.type == type && action.sourceGoal == .localActivity &&
    action.goalStartedAtMs == r.startedAtMs && action.startedAtMs == r.startedAtMs

/-- The role of an actor whose GUID is the one of the role. -/
def stopLivingRole (clock : ℕ) (r : Record) : Record :=
  let paused := r.phase = .acting ∧ r.carePause = true
  let owns := fun (goal : GoalType) (startedAtMs : ℕ) =>
    r.phase != .idle && goal == r.sourceGoal && startedAtMs == r.startedAtMs
  { r with
    phase := .idle
    activity := .none
    purpose := .none
    nextDecisionAtMs := if paused then clock else r.nextDecisionAtMs
    carePause := if paused then false else r.carePause
    action := r.action.filter fun action => !owns action.sourceGoal action.goalStartedAtMs
    goal := r.goal.filter fun goal => !owns goal.type goal.startedAtMs }

/-! ### A call -/

structure MemberFacts (F : Type) where
  /-- The record, the creature and both states are there. -/
  found : Bool
  /-- A member of a caravan, bound to its creature and in scope. -/
  admitted : Bool
  guid : ℕ
  foodLive : Bool
  foodGuid : ℕ
  /-- In combat or evading. -/
  fighting : Bool
  record : Record
  /-- Stopped at a point and in sight of it. -/
  isAt : ActionPosition F → Bool
  nearer : ActionPosition F → ActionPosition F → Bool

structure Food where
  eventSerial : ℕ := 0
  nextAtMs : ℕ := 0
  delivered : ℕ := 0
  consumed : ℕ := 0

/-- The world during an update for one of the members. -/
structure Facts (F : Type) where
  now : ℕ
  clock : ℕ
  side : Side
  /-- A member of a caravan that is bound to its creature. -/
  bound : Bool
  /-- The trip and the states of the actor are there. -/
  stored : Bool
  member : Side → MemberFacts F
  food : Food
  /-- Stopped within two yards of the role's destination. -/
  reached : Bool
  /-- Still moving there, as its watchdog sees it. -/
  underway : Bool
  upright : Bool
  step : ActionPosition F → Option (ActionPosition F)
  deferred : Bool
  /-- Whether an action is started, and the record after the attempt. -/
  started : Bool
  attempted : Record
  receipt : Result
  /-- The carrier's cargo, before and after the flow of the call. -/
  cargo : ℕ
  cargoAfter : ℕ
  /-- The stock and the capacity of the city's depot. -/
  city : Option (ℕ × ℕ)
  hungry : Bool

/-- A call to the ledger. -/
structure Flow where
  kind : Activity
  serial : ℕ
  depotId : ℕ
  receipt : Result

structure World (F : Type) where
  trip : State
  actors : Side → ActorState F
  nextTrip : ℕ

/-- What a call has changed so far. -/
structure Call (F : Type) extends World F where
  records : Side → Record
  food : Food
  flow : Option Flow := none

structure Member where
  bound : Bool
  original : Bool
  peaceful : Bool

/-- A section of the update returns or goes on. -/
inductive Next (F : Type)
  | done (handled : Bool) (c : Call F)
  | go (c : Call F)

def Next.andThen {F : Type} (n : Next F) (k : Call F → Next F) : Next F :=
  match n with
  | done handled c => done handled c
  | go c => k c

section Update
variable {F : Type} (ops : FloatOps F) (pair : PairSpec) (slot : Side → F × F) (f : Facts F)

def member (w : World F) (i : Side) : Member :=
  let m := f.member i
  let actor := w.actors i
  let bound := m.found && m.admitted && actor.live && actor.life != 0 && actor.guid == m.guid &&
    m.foodLive && m.foodGuid == m.guid
  { bound
    original := bound && w.trip.guids i == m.guid && w.trip.lives i == actor.life
    peaceful := bound && !m.fighting &&
      (m.record.phase == .idle || m.record.phase == .moving || m.record.phase == .acting) }

variable (ms : Side → Member)

def bothOriginal : Bool := (ms .carrier).original && (ms .escort).original

def clearActivity (actor : ActorState F) : ActorState F :=
  { actor with current := .none, startedAtMs := 0, tripStamp := 0, sourceStamp := 0 }

def Call.setActor (c : Call F) (i : Side) (actor : ActorState F) : Call F :=
  { c with actors := Function.update c.actors i actor }

def Call.setRecord (c : Call F) (i : Side) (r : Record) : Call F :=
  { c with records := Function.update c.records i r }

def Call.setTrip (c : Call F) (trip : State) : Call F := { c with trip }

def Call.setReady (c : Call F) (i : Side) (ready : Bool) : Call F :=
  c.setTrip { c.trip with ready := Function.update c.trip.ready i ready }

/-- Both clocks of the actor. -/
def Call.wait (c : Call F) (delay : ℕ) : Call F :=
  { c with food := { c.food with nextAtMs := f.now + delay } }.setRecord f.side
    { c.records f.side with nextDecisionAtMs := f.now + delay }

def ownRole (r : Record) : Bool :=
  ownedGoal r && (r.action.isNone || ownedAction r (if r.phase = .moving then .moveTo else .ambient))

def stopOwned (i : Side) (c : Call F) : Call F :=
  if (ms i).bound = false then c
  else
    let r := c.records i
    let actor := c.actors i
    let ownMovement := r.phase == .moving && caravanMovement r.purpose && ownedGoal r &&
      (r.action.isNone || ownedAction r .moveTo)
    let ownActivity := actor.current != .none && r.phase == .acting && r.startedAtMs == actor.startedAtMs &&
      ownedAction r .ambient
    (c.setRecord i (if ownMovement || ownActivity then stopLivingRole f.clock r else r)).setActor i
      (clearActivity actor)

def cancelPair (c : Call F) : Call F := stopOwned f ms .escort (stopOwned f ms .carrier c)

def phase (next : Stage) (reason : Reason) (c : Call F) : Call F :=
  (cancelPair f ms c).setTrip (setPhase c.trip next f.now reason)

/-- Back by the waypoint before, or from the village by the last one before it. -/
def returned (s : State) (solo : Bool) : State :=
  let size := (route ops s.sourceDepotId).length
  { s with
    waypoint :=
      if s.current = .toVillage ∧ s.waypoint ≠ 0 then s.waypoint - 1
      else if s.current = .loading then if 1 < size then size - 2 else 0
      else if s.current ≠ .toCity then 0
      else s.waypoint
    returningSolo := solo }

def returnToCity (reason : Reason) (c : Call F) : Call F :=
  phase f ms .toCity reason (c.setTrip (returned ops c.trip (!bothOriginal ms)))

def finish (delay : ℕ) (c : Call F) : Call F :=
  let r := c.records f.side
  let c := c.setRecord f.side (if ownRole r then stopLivingRole f.clock r else r)
  (c.setActor f.side (clearActivity (c.actors f.side))).wait f delay

/-- Take the next number and begin a trip with it. -/
def beginNext (c : Call F) : Option (Call F) × Call F :=
  let numbered : Call F := { c with nextTrip := c.nextTrip + 1 }
  let trip := begin ops c.trip pair f.now numbered.nextTrip (f.member .carrier).guid (f.member .escort).guid
  (trip.map fun trip => numbered.setTrip { trip with lives := fun i => (c.actors i).life }, numbered)

/-! ### Sections -/

def firstTrip (c : Call F) : Next F :=
  if c.trip.trip ≠ 0 then .go c
  else if (ms .carrier).peaceful && (ms .escort).peaceful && c.nextTrip != uint64Max then
    match beginNext ops pair f c with
    | (some begun, _) => .go begun
    | (none, refused) => .done true (finish f 2000 refused)
  else .done true (finish f 2000 c)

def loseMembers (c : Call F) : Call F :=
  let c := c.setTrip (refreshReturnMode c.trip (ms .carrier).original (ms .escort).original)
  let c :=
    if bothOriginal ms = false ∧ c.trip.current ≠ .toCity ∧ c.trip.current ≠ .unloading ∧
        c.trip.current ≠ .rest ∧ c.trip.current ≠ .recover then
      returnToCity ops f ms .memberLostReturning c
    else c
  if (ms .carrier).original = false ∧ (ms .escort).original = false ∧ c.trip.current ≠ .recover then
    let c := phase f ms .recover .reassembleNewLivesAtCity c
    c.setTrip { c.trip with waypoint := 0 }
  else c

def closestFrom (nearer : ActionPosition F → ActionPosition F → Bool) (best : ActionPosition F) (found : ℕ) :
    ℕ → List (Waypoint F) → ℕ
  | _, [] => found
  | i, w :: rest =>
    if nearer w.point best then closestFrom nearer w.point i (i + 1) rest
    else closestFrom nearer best found (i + 1) rest

def closest (nearer : ActionPosition F → ActionPosition F → Bool) : List (Waypoint F) → ℕ
  | [] => 0
  | w :: rest => closestFrom nearer w.point 0 1 rest

def recoverOriginal (c : Call F) : Call F :=
  if c.trip.current = .recover ∧ ((ms .carrier).original ∨ (ms .escort).original) then
    let recovery := route ops c.trip.sourceDepotId
    let npc := f.member (if (ms .carrier).original then .carrier else .escort)
    if recovery = [] then c
    else
      phase f ms .toCity .originalLifeRecovered
        (c.setTrip { c.trip with waypoint := closest npc.nearer recovery, returningSolo := !bothOriginal ms })
  else c

def danger (c : Call F) : Next F :=
  if bothOriginal ms = true ∧ ((ms .carrier).peaceful = false ∨ (ms .escort).peaceful = false) then
    let c := if c.trip.current ≠ .toCity then returnToCity ops f ms .dangerReturning c else c
    .done true (((stopOwned f ms f.side c).setReady f.side false).wait f 2000)
  else .go c

def timeout (c : Call F) : Call F :=
  if timedOut c.trip f.now ∧ c.trip.current ≠ .toCity ∧ c.trip.current ≠ .recover ∧ c.trip.current ≠ .unloading then
    returnToCity ops f ms .tripOrLegTimeout c
  else c

/-- A movement that goes on is left alone; completion alone is no readiness. -/
def movement (c : Call F) : Next F :=
  let r := c.records f.side
  if r.phase = .moving ∧ caravanMovement r.purpose then
    let own := ownedGoal r && (r.action.isNone || ownedAction r .moveTo)
    let arrived := own && f.reached
    if !arrived && own && r.action.isSome && f.underway then .done true c
    else if arrived then .go (finish f 0 c)
    else .done true ((finish f 3000 c).setReady f.side false)
  else .go c

def checkRoute (c : Call F) : Next F :=
  if (route ops c.trip.sourceDepotId).length ≤ c.trip.waypoint then .done true (finish f 10000 c) else .go c

/-- The point at which an activity counts. -/
def expectedPoint (actor : ActorState F) : ActionPosition F :=
  if actor.current = .load then (sourcePoint ops actor.sourceStamp).getD (cityPoint ops) else cityPoint ops

def ownedActivity (c : Call F) : Bool :=
  let r := c.records f.side
  let actor := c.actors f.side
  let expected := expectedPoint ops actor
  ownedAction r .ambient && r.startedAtMs == actor.startedAtMs && actor.tripStamp == c.trip.trip &&
    actor.sourceStamp == c.trip.sourceDepotId && samePosition ops actor.activityPoint expected &&
    r.activity == (if actor.current = .eat then .eat else .work) && (f.member f.side).isAt expected && f.upright &&
    ((actor.current == .load && f.side == .carrier && c.trip.current == .loading && bothOriginal ms &&
        (ms .escort).peaceful && (f.member .escort).isAt expected) ||
      (actor.current == .unload && f.side == .carrier && c.trip.current == .unloading) ||
      (actor.current == .eat && (c.trip.current == .rest || c.trip.current == .unloading)))

/-- The food flows; only a fresh success counts. -/
def exchange (c : Call F) : Call F :=
  let actor := c.actors f.side
  let kind := actor.current
  let serial := c.food.eventSerial + 1
  let portions := if f.receipt.success && !f.receipt.duplicate then f.receipt.portions else 0
  let c : Call F := { c with
    flow := some ⟨kind, serial, if kind = .load then c.trip.sourceDepotId else cityDepot, f.receipt⟩
    food := { c.food with
      eventSerial := serial
      delivered := c.food.delivered + if kind = .unload then portions else 0
      consumed := c.food.consumed + if kind = .eat then portions else 0 } }
  finish f 0 (c.setActor f.side { actor with loaded := actor.loaded + if kind = .load then portions else 0 })

def delivered (s : State) : State :=
  { s with
    completedTrips := s.completedTrips + if f.receipt.success && !f.receipt.duplicate then 1 else 0
    waypoint := 0 }

/-- Time to rest in the city. -/
def repose (reason : Reason) (c : Call F) : Call F :=
  let c := phase f ms .rest reason c
  c.setTrip { c.trip with nextAtMs := f.now + restMs }

/-- The activity has lasted; the food flows and the trip goes on. -/
def complete (c : Call F) : Call F :=
  let kind := (c.actors f.side).current
  let c := exchange f c
  if kind = .load then
    returnToCity ops f ms (if f.receipt.success then .foodOnBoard else .sourceHasNoSurplus) c
  else if kind = .unload ∧ f.cargoAfter = 0 then repose f ms .deliveryFinished (c.setTrip (delivered f c.trip))
  else c

def perform (c : Call F) : Next F :=
  let actor := c.actors f.side
  if (c.records f.side).phase = .acting ∧ actor.current ≠ .none then
    if ownedActivity ops f ms c = false ∨ f.now < actor.startedAtMs then .done true (finish f 2000 c)
    else if f.now - actor.startedAtMs < loadMs then .done true c
    else if c.food.eventSerial = uint64Max then .done true (finish f 60000 c)
    else .done true (complete ops f ms c)
  else .go c

def takeRole (c : Call F) : Next F :=
  let r := c.records f.side
  let c := if (r.phase = .moving ∨ r.phase = .acting) ∧ ownRole r then finish f 0 c else c
  let r := c.records f.side
  if r.phase ≠ .idle ∨ r.action.isSome ∨ (r.goal.isSome ∧ ownedGoal r = false) then .done true c
  else
    let c := c.setActor f.side (clearActivity (c.actors f.side))
    if f.now < c.food.nextAtMs ∨ f.now < r.nextDecisionAtMs then .done true c else .go c

def travel (destination : ActionPosition F) (purpose : Purpose) (c : Call F) : Call F :=
  let c := c.setReady f.side false
  match f.step destination with
  | none =>
    let c := c.wait f (if f.deferred then 100 else 10000)
    if f.deferred then c.setRecord f.side { c.records f.side with purpose := .supplyPlanningDeferred } else c
  | some _ =>
    let c := c.setRecord f.side f.attempted
    if f.started then c.setRecord f.side { f.attempted with purpose } else c.wait f 3000

def activity (kind : Activity) (point : ActionPosition F) (c : Call F) : Call F :=
  if (f.member f.side).isAt point = false then c
  else
    let c := c.setRecord f.side f.attempted
    if f.started then
      (c.setActor f.side { c.actors f.side with
        current := kind
        startedAtMs := f.attempted.startedAtMs
        tripStamp := c.trip.trip
        sourceStamp := c.trip.sourceDepotId
        activityPoint := point }).setReady f.side false
    else c.wait f 3000

def readyAt (c : Call F) (w : Waypoint F) (i : Side) : Bool :=
  (ms i).original && (ms i).peaceful && (target ops slot i w).any (f.member i).isAt &&
    (c.records i).phase == .idle && (c.records i).action.isNone

/-- The way back of a member alone, which is no readiness for the trip. -/
def recoveryWaypoint (c : Call F) : ℕ :=
  let path := route ops c.trip.sourceDepotId
  let actor := c.actors f.side
  let kept := if actor.recoverySource = c.trip.sourceDepotId then actor.recoveryWaypoint else none
  let i := kept.getD (closest (f.member f.side).nearer path)
  let i := if path.length ≤ i then 0 else i
  if path[i]?.any (fun w => (f.member f.side).isAt w.point) then i - 1 else i

def allAtCity (c : Call F) (i : Side) : Bool :=
  (ms i).peaceful && (f.member i).isAt (cityPoint ops) && (c.records i).phase == .idle && (c.records i).action.isNone

/-- Back to the city alone. -/
def goToCity (c : Call F) : Call F :=
  let i := recoveryWaypoint ops f c
  let destination := ((route ops c.trip.sourceDepotId)[i]?.map Waypoint.point).getD (cityPoint ops)
  travel f destination .caravanRally (c.setActor f.side { c.actors f.side with
    recoveryWaypoint := some i, recoverySource := c.trip.sourceDepotId })

def tryBegin (c : Call F) : Call F := (beginNext ops pair f c).1.getD (beginNext ops pair f c).2

def reachCity (c : Call F) : Call F :=
  c.setActor f.side { c.actors f.side with recoveryWaypoint := none, recoverySource := 0 }

/-- With everyone in the city and no food left on board, a new trip begins. -/
def reassemble (c : Call F) : Call F :=
  if allAtCity ops f ms c .carrier && allAtCity ops f ms c .escort && c.trip.nextAtMs ≤ f.now && f.cargo = 0 &&
      c.nextTrip != uint64Max then
    tryBegin ops pair f c
  else c

/-- The next decision, whatever becomes of the food. -/
def Call.decide (c : Call F) (delay : ℕ) : Call F :=
  c.setRecord f.side { c.records f.side with nextDecisionAtMs := f.now + delay }

def rejoin (c : Call F) : Next F :=
  if (ms f.side).original = true ∧ c.trip.current ≠ .recover then .go c
  else if (f.member f.side).isAt (cityPoint ops) = false then .done true (goToCity ops f c)
  else .done true ((reassemble ops pair f ms (reachCity f c)).decide f 1000)

def cityPhase (stage : Stage) : Bool := stage == .rally || stage == .rest || stage == .unloading

def travelPurpose (stage : Stage) : Purpose :=
  if cityPhase stage then .caravanRally else if stage = .toVillage then .caravanVillage else .caravanCity

/-- The waypoint of the stage. -/
def waypointOf (s : State) : Option (Waypoint F) :=
  let path := route ops s.sourceDepotId
  if cityPhase s.current then path.head? else path[s.waypoint]?

/-- One waypoint on, or one back. -/
def Call.progress (c : Call F) (waypoint : ℕ) : Call F :=
  c.setTrip { c.trip with waypoint, ready := fun _ => false, lastProgressAtMs := f.now }

/-- Where everyone who has to be is there. -/
def advance (c : Call F) : Call F :=
  let trip := c.trip
  match trip.current with
  | .rally =>
    if readyBarrier trip then phase f ms .toVillage .departingCity (c.setTrip { trip with waypoint := 1 }) else c
  | .toVillage =>
    if readyBarrier trip then
      if trip.waypoint + 1 < (route ops trip.sourceDepotId).length then c.progress f (trip.waypoint + 1)
      else phase f ms .loading .arrivedVillage c
    else c
  | .loading => c
  | .toCity =>
    if (if trip.returningSolo then trip.ready f.side else readyBarrier trip) then
      if trip.waypoint ≠ 0 then c.progress f (trip.waypoint - 1)
      else if f.side = .carrier ∧ f.cargo ≠ 0 then phase f ms .unloading .arrivedCityWithFood c
      else if f.cargo = 0 then repose f ms .emptyReturnFinished c
      else c
    else c
  | .unloading | .recover => c
  | .rest =>
    if trip.nextAtMs ≤ f.now && readyForNextTrip trip && f.cargo = 0 && c.nextTrip != uint64Max then
      tryBegin ops pair f c
    else c

/-- What a member at the waypoint starts, if anything. -/
def task (point : ActionPosition F) (trip : State) : Option (Activity × ActionPosition F) :=
  let inCity := trip.current = .unloading ∨ trip.current = .rest
  if trip.current = .loading ∧ f.side = .carrier ∧ readyBarrier trip then some (.load, point)
  else if inCity ∧ f.hungry ∧ f.city.any (fun city => city.1 ≠ 0) then some (.eat, cityPoint ops)
  else if trip.current = .unloading ∧ f.side = .carrier ∧ f.cargo ≠ 0 ∧ f.city.any (fun city => city.1 < city.2) then
    some (.unload, cityPoint ops)
  else none

def travelOn (c : Call F) : Next F :=
  match waypointOf ops c.trip with
  | none => .done true (finish f 10000 c)
  | some w =>
    match target ops slot f.side w with
    | none => .done true (finish f 10000 c)
    | some point =>
      if (f.member f.side).isAt point = false then .done true (travel f point (travelPurpose c.trip.current) c)
      else
        let c := c.setTrip { c.trip with ready := readyAt ops slot f ms c w }
        match task ops f point c.trip with
        | some (kind, point) => .done true (activity f kind point c)
        | none => .done true ((advance ops pair f ms c).decide f 500)

/-- The sections once the members are known; a first trip has made both of them its own. -/
def sections (c : Call F) : Next F :=
  (firstTrip ops pair f ms c).andThen fun begun =>
    let ms := if c.trip.trip = 0 then fun i => { ms i with original := true } else ms
    (danger ops f ms (recoverOriginal ops f ms (loseMembers ops f ms begun))).andThen fun c =>
    (movement f (timeout ops f ms c)).andThen fun c =>
    (checkRoute ops f c).andThen fun c =>
    (perform ops f ms c).andThen fun c =>
    (takeRole f c).andThen fun c =>
    (rejoin ops pair f ms c).andThen fun c => travelOn ops pair slot f ms c

def Next.result (n : Next F) : Bool × Call F :=
  match n with
  | done handled c => (handled, c)
  | go c => (true, c)

/-- Whether the call was the caravan's, and what it leaves. -/
def updateLivingCaravan (w : World F) : Bool × Call F :=
  let ms := member f w
  let actor := w.actors f.side
  let npc := f.member f.side
  let c : Call F := { w with records := fun i => (f.member i).record, food := f.food }
  if f.bound = false then (false, c)
  else if f.stored = false ∨ actor.live = false ∨ actor.guid ≠ npc.guid ∨ npc.foodLive = false ∨
      npc.foodGuid ≠ npc.guid then (true, c)
  else if (ms f.side).peaceful = false then
    (false, (c.setActor f.side (clearActivity actor)).setReady f.side false)
  else (sections ops pair slot f ms c).result

end Update

/-! ### Lives -/

section Lives
variable {F : Type}

/-- A new life is counted even where the engine uses a GUID again. -/
def observeCaravanLife (w : World F) (i : Side) (stored foodLive : Bool) (foodGuid : ℕ) : World F :=
  if stored = false then w
  else
    let actor := w.actors i
    let live := foodLive && foodGuid != 0
    let fresh := live && (!actor.live || actor.guid != foodGuid)
    let live := live && !(fresh && actor.life == uint64Max)
    { w with
      actors := Function.update w.actors i { clearActivity actor with
        life := if fresh && actor.life != uint64Max then actor.life + 1 else actor.life
        live := live
        guid := if live then foodGuid else 0
        recoveryWaypoint := none
        recoverySource := 0 }
      trip := { w.trip with
        ready := Function.update w.trip.ready i false
        reason := if live then .memberMaterialized else .memberLost } }

end Lives

/-! ### Runs -/

section Runs
variable {F : Type} (ops : FloatOps F) (pair : PairSpec) (slot : Side → F × F)

/-- What happens to the caravan of a pair; the other pair takes trip numbers of its own. -/
inductive Input (F : Type)
  | update (f : Facts F)
  | observe (i : Side) (stored foodLive : Bool) (foodGuid : ℕ)
  | numbers (n : ℕ)

def World.initial (point : ActionPosition F) : World F where
  trip := {}
  actors := fun _ => { activityPoint := point }
  nextTrip := 0

/-- An update answers whether it was the caravan's, with its call to the ledger. -/
def caravan : Machine (World F) (Input F) (Bool × Option Flow) where
  step w
    | .update f =>
      let result := updateLivingCaravan ops pair slot f w
      some ((result.1, result.2.flow), result.2.toWorld)
    | .observe i stored foodLive foodGuid => some ((true, none), observeCaravanLife w i stored foodLive foodGuid)
    | .numbers n => some ((true, none), { w with nextTrip := w.nextTrip + n })

end Runs

end AIWorld.Caravan
