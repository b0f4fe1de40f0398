import AIWorld.Raid.LivingRaidGroup

/-! One raider's calls: the threat to it, its update, section by section, and the observer of its lives, with the
guard's own share of them. A function that calls the ledger is undefined where the ledger is. -/

namespace AIWorld.Raid

open Agent (LivingRaidMemory.Decision)
open Agent.LivingRaidParty
open LivingSupply (Ledger Result)
open Memory (RetrievedMemory)

/-! ### A call -/

inductive RolePhase
  | idle | moving | acting | other
  deriving DecidableEq

/-- What the living role of an actor does. -/
structure Role where
  phase : RolePhase := .idle
  startedAtMs : UInt64 := 0
  nextDecisionAtMs : UInt64 := 0
  /-- It moves for a raid, or for the guard's duty. -/
  raidMovement : Bool := false
  /-- The goal, and the movement where there is one, are its own. -/
  owned : Bool := true
  /-- Stopped within two yards of its destination. -/
  arrived : Bool := false
  /-- Still moving there, as its watchdog sees it. -/
  underway : Bool := false
  /-- It does its own ambient action. -/
  ambient : Bool := false
  eating : Bool := false
  working : Bool := false
  upright : Bool := true

structure ThreatFacts extends Facts where
  /-- How far a raider is that the guard sees near the village depot. -/
  sight : UInt64 → Option Float32 := fun _ => none
  /-- The guard is seen, and owns an attack on this creature. -/
  guardAttack : Bool := false

structure UpdateFacts extends Facts where
  role : Role := {}
  memories : List RetrievedMemory := []
  /-- Whether the planner finds a step to a point. -/
  routed : Position → Bool := fun _ => true
  deferred : Bool := false
  /-- Whether an action is started. -/
  started : Bool := true
  home : Position := camp
  raidStartedAtMs : UInt64 := 0
  /-- The guard is hungry or on its way to or from its depot's food. -/
  fed : Bool := false

/-- A raid on its way through an update. -/
structure Answer where
  handled : Bool
  /-- Who starts an attempt. -/
  started : List UInt64 := []

def bound (f : Facts) : Bool :=
  f.creature.mapId == 725 && f.record.materialized && f.record.runtimeGuid == f.creature.guid &&
    f.creature.alive && f.record.roleGuid == f.creature.guid && f.creature.free

def World.wait (w : World) (f : Facts) (delay : UInt64) : World :=
  w.setActor f.record.spawnId { w.actors f.record.spawnId with nextAtMs := f.nowMs + delay }

/-- Both phases. -/
def World.setPhase (w : World) (f : Facts) (phase : RaidPhase) : World :=
  (w.setRaid f.record.spawnId { w.raiders f.record.spawnId with phase }).setActor f.record.spawnId
    { w.actors f.record.spawnId with phase }

/-! ### Threats -/

section Threat
variable (profile : Profile) (formation : Formation) (f : ThreatFacts) (w : World)

def nearer (best : Option (UInt64 × Float32)) (spawn : UInt64) : Option (UInt64 × Float32) :=
  match (if (w.raiders spawn).active then f.sight spawn else none), best with
  | none, _ => best
  | some distance, none => if distance < 15 then some (spawn, distance) else none
  | some distance, some (other, nearest) =>
    if distance < nearest || (distance == nearest && decide (spawn < other)) then some (spawn, distance) else best

def notice (other : UInt64) : State :=
  let attempt := (w.raiders other).attemptId
  let fresh := w.guard.lastNoticedAttempt != attempt
  { w.guard with
    targetSpawnId := other
    attemptId := attempt
    phase := .intercepting
    lastNoticedAttempt := attempt
    noticed := if fresh then w.guard.noticed + 1 else w.guard.noticed
    outcome := if fresh then "NOTICED_INTRUDER" else w.guard.outcome }

def guardThreat : Option UInt64 × World :=
  match raiderSpawns.foldl (nearer f w) none with
  | none => (none, w)
  | some (other, _) =>
    if (f.findBySpawn other).any (isSupplyRaider profile) then (some other, { w with guard := notice w other })
    else (none, w)

/-- A fight ends the way out. -/
def intercept (guardAttack : Bool) : World :=
  let spawn := f.record.spawnId
  let raid := w.raiders spawn
  let beforeTheft := (w.actors spawn).stolen == raid.stolenAtStart
  let w := (w.setRaid spawn { raid with
      combatNoted := true
      prevented := if beforeTheft then raid.prevented + 1 else raid.prevented
      active := false
      returning := true
      leg :=
        match sourceFor raid.selectedSourceDepot profile.fields raid.selectedRouteId with
        | some source => min raid.leg (source.count - 1)
        | none => 0
      phase := .fleeing
      outcome :=
        if guardAttack then if beforeTheft then "INTERCEPTED" else "CAUGHT_WITH_CARGO"
        else "INTERRUPTED_COMBAT" }).wait f.toFacts 0
  if raid.partyId ≠ 0 then retreatLivingRaidParty f.toFacts w raid.partyId "MEMBER_IN_COMBAT" else w

def raiderThreat : Option UInt64 × World :=
  let w := updateLivingRaidParty profile formation f.toFacts w
  let raid := w.raiders f.record.spawnId
  let guardAttack := f.guardAttack && w.guard.attemptId == raid.attemptId
  let threat := if guardAttack then some guardSpawn else none
  if raid.attemptId != 0 && (raid.active || raid.returning) && (guardAttack || f.creature.inCombat) &&
      !raid.combatNoted then (threat, intercept profile f w guardAttack)
  else (threat, w)

def livingRaidThreat : Option UInt64 × World :=
  if !bound f.toFacts then (none, w)
  else if isSupplyRaider profile f.record then raiderThreat profile formation f w
  else if isRaidGuard profile f.record then guardThreat profile f w
  else (none, w)

end Threat

/-! ### Travel and activities -/

section Update
variable (profile : Profile) (formation : Formation) (hypot : ℚ → ℚ → ℚ → ℚ) (f : UpdateFacts)
  (source : SourceSpec) (w : World)

/-- A party on its way home breaks up where no way is found. A raider on its way out turns back. -/
def blockRoute : World :=
  let spawn := f.record.spawnId
  let raid := w.raiders spawn
  let w :=
    if raid.partyId ≠ 0 ∧ (w.party raid.partyId).any (·.coordination.stage == .returning) then
      w.setParty raid.partyId (·.setStage .complete)
    else w
  if raid.active && !raid.returning then
    let w := w.setRaid spawn { raid with
      active := false, returning := true, leg := min raid.leg (source.count - 1), outcome := "ROUTE_BLOCKED" }
    if raid.partyId ≠ 0 then retreatLivingRaidParty f.toFacts w raid.partyId "MEMBER_ROUTE_BLOCKED" else w
  else w

def travel (destination : Position) (phase : RaidPhase) : World :=
  let w := w.setPhase f.toFacts phase
  if !f.routed destination then
    (if profile.fields && !f.deferred then blockRoute f source w else w).wait f.toFacts
      (if f.deferred then 100 else 10000)
  else if f.started then w
  else w.wait f.toFacts 10000

def activity (phase : RaidPhase) : World :=
  if f.started then w.setPhase f.toFacts phase else w.wait f.toFacts 10000

def gather (phase : RaidPhase) : World := (w.setPhase f.toFacts phase).wait f.toFacts 500

def goTo (destination : Position) (phase waiting : RaidPhase) : World :=
  if !f.creature.near destination then travel profile f source w destination phase else gather f w waiting

/-! ### The activity that ends -/

def stole (r : Result) : World :=
  let spawn := f.record.spawnId
  let raid := w.raiders spawn
  let actor := w.actors spawn
  if r.success && !r.duplicate then
    (w.setActor spawn { actor with stolen := actor.stolen + r.portions }).setRaid spawn { raid with
      thefts := raid.thefts + 1, returning := true, leg := source.count - 1, phase := .toCamp, outcome := "STOLEN" }
  else
    w.setRaid spawn { raid with
      active := false, returning := true, leg := source.count - 1, phase := .returningEmpty
      outcome := "SOURCE_EMPTY" }

def brought (r : Result) : World :=
  let spawn := f.record.spawnId
  let raid := w.raiders spawn
  let actor := w.actors spawn
  if r.success && !r.duplicate then
    let left := getCargo w.ledger spawn != 0
    (w.setActor spawn { actor with delivered := actor.delivered + r.portions }).setRaid spawn { raid with
      delivered := raid.delivered + 1
      returning := left
      active := left
      phase := if left then .toCamp else .cooldown
      outcome := "DELIVERED"
      nextAtMs := f.nowMs + cooldownMs }
  else w

def ate (r : Result) : World :=
  let spawn := f.record.spawnId
  let actor := w.actors spawn
  if r.success && !r.duplicate then
    (w.setActor spawn { actor with consumed := actor.consumed + r.portions }).setRaid spawn
      { w.raiders spawn with phase := .cooldown }
  else w

/-- The flow of a completed activity. -/
def perform : Option World :=
  let spawn := f.record.spawnId
  let raid := w.raiders spawn
  let serial := (w.actors spawn).eventSerial + 1
  let w := w.setActor spawn { w.actors spawn with eventSerial := serial }
  if raid.phase = .stealing then
    (w.ledger.steal spawn.toNat serial.toNat raid.selectedSourceDepot.toNat portions.toNat true).map fun (r, ledger) =>
      stole f source { w with ledger } r
  else if raid.phase = .delivering then
    (w.ledger.deliver spawn.toNat serial.toNat campDepot.toNat portions.toNat true).map fun (r, ledger) =>
      brought f { w with ledger } r
  else
    (w.ledger.eatDepot spawn.toNat serial.toNat campDepot.toNat 1 true).map fun (r, ledger) =>
      ate f { w with ledger } r

def interruptActivity : World :=
  let spawn := f.record.spawnId
  let raid := w.raiders spawn
  let raid :=
    if raid.phase = .stealing then
      { raid with
        active := false, returning := true, leg := source.count - 1, outcome := "ACTIVITY_INTERRUPTED" }
    else raid
  (w.setRaid spawn { raid with phase := if raid.returning then .returningEmpty else .cooldown }).wait f.toFacts 1000

def acting (role : Role) : Option World :=
  let phase := (w.raiders f.record.spawnId).phase
  if phase ≠ .stealing ∧ phase ≠ .delivering ∧ phase ≠ .eatingCamp then some (w.wait f.toFacts 1000)
  else
    let owned := role.ambient && (if phase = .eatingCamp then role.eating else role.working) &&
      f.creature.near (if phase = .stealing then source.point else camp) && f.creature.stopped &&
      !f.creature.inCombat && role.upright
    if !owned || decide (f.nowMs < role.startedAtMs) then some (interruptActivity f source w)
    else if f.nowMs - role.startedAtMs < 5000 then some w
    else if (w.actors f.record.spawnId).eventSerial = uint64Max then some (w.wait f.toFacts 60000)
    else (perform f source w).map (·.wait f.toFacts 1000)

/-! ### With the party -/

/-- A section of the update returns or goes on. -/
inductive Next
  | done (w : World)
  | go (w : World)

def marching : Next :=
  let spawn := f.record.spawnId
  if !profile.defias || (w.raiders spawn).partyId == 0 then .go w
  else
    let w := updateLivingRaidParty profile formation f.toFacts w
    match w.party (w.raiders spawn).partyId with
    | none => .go w
    | some p =>
      let shared := p.coordination
      let led := w.setRaid spawn { w.raiders spawn with leg := shared.leg }
      match shared.stage with
      | .assembling =>
        .done (goTo profile f source w (livingRaidPartyDestination formation w f.record camp true)
          .assembling .assembling)
      | .outbound =>
        .done (goTo profile f source led (livingRaidPartyDestination formation led f.record
          (source.anchor (min shared.leg (source.count - 1))) (decide (shared.leg + 1 < source.count)))
          .toSource .waitingParty)
      | .raiding => if (w.raiders spawn).returning then .done (gather f w .waitingParty) else .go w
      | .returning =>
        if shared.leg = 0 then .go w
        else
          .done (goTo profile f source led (livingRaidPartyDestination formation led f.record
            (source.anchor (min shared.leg source.count - 1)) true) .toCamp .waitingParty)
      | _ => .go w

/-! ### Home -/

open Agent.LivingRaidMemory (shouldAvoidGuard distance spot dangerRadius) in
def unsafeHint (destination : Position) : Bool :=
  f.memories.any fun memory => shouldAvoidGuard f.record.id f.creature.mapId f.nowMs memory &&
    decide (distance hypot destination (spot memory.location.mapId memory) < dangerRadius)

def homeAnchor (leg : UInt32) : Position :=
  if leg ≠ 0 then source.anchor (min leg source.count - 1) else camp

/-- The anchors reached on the way back, and where to go next. An unsafe one is skipped. -/
def retrace : ℕ → UInt32 → UInt32 × Option Position
  | 0, leg => (leg, none)
  | n + 1, leg =>
    let destination := homeAnchor source leg
    if leg ≠ 0 ∧ unsafeHint hypot f destination then retrace n (leg - 1)
    else if !f.creature.near destination then (leg, some destination)
    else if leg = 0 then (leg, none)
    else retrace n (leg - 1)

/-- The leg, and the clock if any anchor was reached. -/
def setLeg (leg : UInt32) : World :=
  let raid := w.raiders f.record.spawnId
  if leg = raid.leg then w else (w.setRaid f.record.spawnId { raid with leg }).wait f.toFacts 0

def unload : World :=
  if (w.ledger.getDepot campDepot.toNat).any fun depot => decide (depot.capacity ≤ depot.stock) then
    if f.record.hungry then activity f w .eatingCamp else w.wait f.toFacts 10000
  else activity f w .delivering

def homeward : Next :=
  let spawn := f.record.spawnId
  let raid := w.raiders spawn
  let cargo := getCargo w.ledger spawn != 0
  if cargo || raid.returning then
    let (leg, destination) := retrace hypot f source (source.count.toNat + 1) raid.leg
    let w := setLeg f w leg
    match destination with
    | some destination => .done (travel profile f source w destination (if cargo then .toCamp else .returningEmpty))
    | none =>
      if cargo then .done (unload f w)
      else .done (w.setRaid spawn { w.raiders spawn with
        returning := false, active := false, phase := .cooldown, nextAtMs := f.nowMs + cooldownMs })
  else .go w

def stocked : Bool := (w.ledger.getDepot campDepot.toNat).any fun depot => depot.stock != 0

def supper : Next :=
  if f.record.hungry && stocked w then
    if !f.creature.near camp then .done (travel profile f source w camp .toCamp) else .done (activity f w .eatingCamp)
  else .go w

/-! ### A new attempt -/

def offers : List Agent.LivingRaidMemory.Candidate :=
  (sources ++ [rightBypass]).map fun spec => ⟨spec.depot, spec.routeId, spec.point, spec.route⟩

def plan : Agent.LivingRaidMemory.Decision :=
  Agent.LivingRaidMemory.choose hypot f.record.id f.nowMs
    ⟨f.creature.mapId, f.creature.x, f.creature.y, f.creature.z⟩ (w.raiders f.record.spawnId).previousSourceDepot
    offers f.memories

/-- The depot and the route of a new attempt, and the raider with what it learnt from its memories. -/
def selected : Option (UInt32 × UInt32) × World :=
  let spawn := f.record.spawnId
  let raid := w.raiders spawn
  if profile.fields then
    let plan := plan hypot f w
    let raid := { raid with planningReason := plan.reason, memoryRisk := plan.risk }
    if plan.depotId ≠ 0 then (some (plan.depotId, plan.routeId), w.setRaid spawn raid)
    else
      let retry := if f.nowMs < plan.retryAtMs then plan.retryAtMs else f.nowMs + 30000
      (none, (w.setRaid spawn { raid with nextAtMs := retry, phase := .waitingMemory }).setActor spawn
        { w.actors spawn with nextAtMs := retry, phase := .waitingMemory })
  else
    let stock := (w.ledger.getDepot sourceDepot.toNat).elim 0 (·.stock)
    match selectSource raid.previousSourceDepot false [stock, 0, 0, 0] with
    | some depot => (some (depot, 1), w)
    | none => (none, w.wait f.toFacts 1000)

def aim (depot routeId : UInt32) : World :=
  w.setRaid f.record.spawnId { w.raiders f.record.spawnId with
    selectedSourceDepot := depot, previousSourceDepot := depot, selectedRouteId := routeId }

def begin : World :=
  let spawn := f.record.spawnId
  let raid := w.raiders spawn
  w.setRaid spawn { raid with
    attemptId := raid.attemptId + 1
    active := true
    leg := 0
    startedAtMs := f.nowMs
    combatNoted := false
    stolenAtStart := (w.actors spawn).stolen
    outcome := "STARTED" }

/-- With its party, or back to waiting for one. -/
def beginParty (roster : List UInt64) : List UInt64 × World :=
  let spawn := f.record.spawnId
  let (created, w) := createLivingRaidParty profile f.toFacts w roster
  if created then (roster, w)
  else ([spawn], w.setRaid spawn { w.raiders spawn with
    active := false, phase := .waitingParty, nextAtMs := f.nowMs + 5000 })

/-- The anchors reached on the way out, and where to go next. -/
def pressOn (source : SourceSpec) : ℕ → UInt32 → UInt32 × Option Position
  | 0, leg => (leg, none)
  | n + 1, leg =>
    let destination := source.anchor (min leg (source.count - 1))
    if !f.creature.near destination then (leg, some destination)
    else if leg + 1 < source.count then pressOn source n (leg + 1)
    else (leg, none)

def sally : World :=
  let (leg, destination) := pressOn f source source.count.toNat (w.raiders f.record.spawnId).leg
  let w := setLeg f w leg
  match destination with
  | some destination => travel profile f source w destination .toSource
  | none => activity f w .stealing

def launch (roster : List UInt64) : List UInt64 × World :=
  let spawn := f.record.spawnId
  match selected profile hypot f w with
  | (none, w) => ([], w)
  | (some (depot, routeId), w) =>
    if (w.raiders spawn).attemptId = uint64Max then ([], w.wait f.toFacts 60000)
    else
      let w := aim f w depot routeId
      match sourceFor depot profile.fields routeId with
      | none => ([], w.wait f.toFacts 30000)
      | some source =>
        let w := begin f w
        if profile.defias then beginParty profile f w roster else ([spawn], sally profile f source w)

def ready : World :=
  let raid := w.raiders f.record.spawnId
  if profile.defias && raid.campReadyAtMs == 0 then
    w.setRaid f.record.spawnId { raid with campReadyAtMs := f.nowMs }
  else w

def depart : List UInt64 × World :=
  let raid := w.raiders f.record.spawnId
  if raid.active then ([], sally profile f source w)
  else
    let w := w.setPhase f.toFacts (if f.nowMs < raid.nextAtMs then .cooldown else .waitingSupply)
    if decide (f.nowMs < raid.nextAtMs) || !f.record.hungry || stocked w then ([], w.wait f.toFacts 1000)
    else if !f.creature.near camp then ([], travel profile f source w camp .toCamp)
    else
      let w := ready profile f w
      let roster := if profile.defias then livingRaidPartyRoster profile f.toFacts w else []
      if profile.defias && roster.isEmpty then ([], (w.setPhase f.toFacts .waitingParty).wait f.toFacts 1000)
      else launch profile hypot f w roster

/-! ### The update -/

/-- A raider whose role has come to rest. -/
def decision : List UInt64 × World :=
  match marching profile formation f source w with
  | .done w => ([], w)
  | .go w =>
    match homeward profile hypot f source w with
    | .done w => ([], w)
    | .go w =>
      match supper profile f source w with
      | .done w => ([], w)
      | .go w => depart profile hypot f source w

/-- The movement that goes on, or the role after one that ended. -/
def movement : Option Role × World :=
  let role := f.role
  if role.phase = .moving ∧ role.raidMovement then
    if role.owned && role.arrived then
      (some { role with phase := .idle, nextDecisionAtMs := f.nowMs }, w.wait f.toFacts 0)
    else if role.owned && role.underway then (none, w)
    else (none, w.wait f.toFacts 10000)
  else (some role, w)

/-- Not yet time to decide. -/
def early (role : Role) : Bool :=
  decide (f.nowMs < (w.actors f.record.spawnId).nextAtMs) || decide (f.nowMs < role.nextDecisionAtMs)

def updateRaider : Option (Answer × World) :=
  let raid := w.raiders f.record.spawnId
  match sourceFor raid.selectedSourceDepot profile.fields raid.selectedRouteId with
  | none => some (⟨false, []⟩, w)
  | some source =>
    match movement f w with
    | (none, w) => some (⟨true, []⟩, w)
    | (some role, w) =>
      if role.phase = .acting then (acting f source w role).map (Prod.mk ⟨true, []⟩)
      else if role.phase ≠ .idle then some (⟨false, []⟩, w)
      else if early f w role then some (⟨true, []⟩, w)
      else
        let (started, w) := decision profile formation hypot f source w
        some (⟨true, started⟩, w)

/-- The guard walks between its home and its post, and looks around at both. -/
def guardDuty : World :=
  let atPost := (f.nowMs - f.raidStartedAtMs) / dutyMs % 2 != 0
  let phase := if atPost then RaidPhase.guardPost else .guardHome
  let on := ({ w with guard := { w.guard with dutyAtPost := atPost, phase } }).setActor f.record.spawnId
    { w.actors f.record.spawnId with phase }
  let off := { w with guard := { w.guard with dutyAtPost := atPost } }
  let destination := if atPost then guardPost else f.home
  if !f.creature.near destination then
    if !f.routed destination then on.wait f.toFacts (if f.deferred then 100 else 10000)
    else if f.started then on
    else on.wait f.toFacts 10000
  else if f.started then on
  else off.wait f.toFacts 10000

def updateGuard : Answer × World :=
  match movement f w with
  | (none, w) => (⟨true, []⟩, w)
  | (some role, w) =>
    if f.fed then (⟨false, []⟩, w)
    else if role.phase = .acting then
      if role.ambient && decide (role.startedAtMs ≤ f.nowMs) && decide (f.nowMs - role.startedAtMs < 5000) then
        (⟨true, []⟩, w)
      else (⟨true, []⟩, w.wait f.toFacts 1000)
    else if role.phase ≠ .idle then (⟨false, []⟩, w)
    else if early f w role then (⟨true, []⟩, w)
    else (⟨true, []⟩, guardDuty f w)

def updateLivingRaid : Option (Answer × World) :=
  if !bound f.toFacts then some (⟨false, []⟩, w)
  else if isSupplyRaider profile f.record then updateRaider profile formation hypot f w
  else if isRaidGuard profile f.record then some (updateGuard f w)
  else some (⟨false, []⟩, w)

end Update

end AIWorld.Raid
