import AIWorld.Agent.LivingSurfaceCorridor
import AIWorld.Reconciliation.SpawnReconciliationPlan
import Mathlib.Data.Fintype.Basic
import Mathlib.Logic.Function.Basic

/-! The trips of a caravan: its pair, its routes, and what the two members share of a trip. Identities and
times are natural numbers; the empty GUID is zero. -/

namespace AIWorld.Caravan

open Agent (FloatOps ActionPosition)
open Reconciliation (AgentType)

def mapId : UInt32 := 725
def cityDepot : ℕ := 7
def cargoCapacity : ℕ := 6
def loadMs : ℕ := 5000
def restMs : ℕ := 45000
def rallyTimeoutMs : ℕ := 180000
def legTimeoutMs : ℕ := 180000
def tripTimeoutMs : ℕ := 1800000

/-- The largest 64-bit value. -/
def uint64Max : ℕ := 2 ^ 64 - 1

/-! ### Pairs -/

/-- The place of a member in its pair. -/
inductive Side
  | carrier
  | escort
  deriving DecidableEq

instance : Fintype Side := ⟨{.carrier, .escort}, by intro i; cases i <;> simp⟩

structure PairSpec where
  id : ℕ
  carrierSpawn : ℕ
  carrierType : AgentType
  escortSpawn : ℕ
  sources : ℕ × ℕ
  deriving DecidableEq

def pairs : List PairSpec :=
  [⟨1, 901040, .merchant, 901042, (4, 5)⟩, ⟨2, 901041, .civilian, 901043, (6, 1)⟩]

def findPair (id : ℕ) : Option PairSpec := pairs.find? fun pair => pair.id = id

/-- A fixed rotation. -/
def selectSource (pair : PairSpec) (previous : ℕ) : ℕ :=
  if previous = pair.sources.1 then pair.sources.2 else pair.sources.1

/-! ### Routes -/

section Routes
variable {F : Type} (ops : FloatOps F)

def place (x y z : ℚ) : ActionPosition F := ⟨mapId, ops.lit x, ops.lit y, ops.lit z⟩

def cityPoint : ActionPosition F := place ops 78.84711682419382 591.7054193209677 0.15

def sourcePoint : ℕ → Option (ActionPosition F)
  | 1 => some (place ops (-372.4611532703) 492.6821677284 0.15)
  | 4 => some (place ops 378.03635207966687 626.4014701827371 0.15)
  | 5 => some (place ops 44.97056274847714 859.9705627484772 0.15)
  | 6 => some (place ops 151.18440237676216 282.17310878027087 0.15)
  | _ => none

structure Waypoint (F : Type) where
  point : ActionPosition F
  singleFile : Bool := false

def top : List (Waypoint F) :=
  [⟨cityPoint ops, true⟩, ⟨place ops 160 620 0.15, false⟩, ⟨place ops 260 640 0.15, false⟩,
    ⟨place ops 362.66656494140625 661.333251953125 0.15, false⟩,
    ⟨place ops 378.03635207966687 626.4014701827371 0.15, true⟩]

def left : List (Waypoint F) :=
  [⟨cityPoint ops, true⟩, ⟨place ops 63.999980926513672 661.333251953125 0.15, false⟩,
    ⟨place ops 58 740 0.15, false⟩, ⟨place ops 44 820 0.15, false⟩,
    ⟨place ops 44.97056274847714 859.9705627484772 0.15, true⟩]

def right : List (Waypoint F) :=
  [⟨cityPoint ops, true⟩, ⟨place ops 85.33331298828125 597.33331298828125 0.15, false⟩,
    ⟨place ops 97.499969482421875 539.73333740234375 0.48, true⟩,
    ⟨place ops 108.16663360595703 426.66653442382812 0.15, true⟩, ⟨place ops 132 350 0.15, false⟩,
    ⟨place ops 151.18440237676216 282.17310878027087 0.15, true⟩]

def south : List (Waypoint F) :=
  [⟨cityPoint ops, true⟩, ⟨place ops 63.999980926513672 661.333251953125 0.15, false⟩,
    ⟨place ops 40 740 0.15, false⟩, ⟨place ops (-20) 790 0.15, false⟩, ⟨place ops (-80) 840 0.15, false⟩,
    ⟨place ops (-160) 860 0.15, true⟩, ⟨place ops (-201.6000671387) 861.0665283203 (-2.2201099396), true⟩,
    ⟨place ops (-214) 861.0665283203 0.15, true⟩, ⟨place ops (-235) 790 (-0.62), false⟩,
    ⟨place ops (-235) 725 0.15, false⟩, ⟨place ops (-264) 680 0.15, false⟩,
    ⟨place ops (-340) 580 0.15, false⟩, ⟨place ops (-372.4611532703) 492.6821677284 0.15, true⟩]

def route : ℕ → List (Waypoint F)
  | 4 => top ops
  | 5 => left ops
  | 6 => right ops
  | 1 => south ops
  | _ => []

def finite (p : ActionPosition F) : Bool := ops.isFinite p.x && ops.isFinite p.y && ops.isFinite p.z

def distance (a b : ActionPosition F) : F := ops.hypot3 (ops.sub a.x b.x) (ops.sub a.y b.y) (ops.sub a.z b.z)

def samePosition (a b : ActionPosition F) : Bool :=
  a.mapId == b.mapId && ops.eq a.x b.x && ops.eq a.y b.y && ops.eq a.z b.z

def legsFit : List (Waypoint F) → Bool
  | a :: b :: rest => !ops.lt (ops.lit 150) (distance ops a.point b.point) && legsFit (b :: rest)
  | _ => true

def validRoute (depot : ℕ) : Bool :=
  match sourcePoint ops depot, (route ops depot).head?, (route ops depot).getLast? with
  | some source, some front, some back =>
    2 ≤ (route ops depot).length && (route ops depot).length ≤ 20 &&
      samePosition ops front.point (cityPoint ops) && samePosition ops back.point source &&
      (route ops depot).all (fun w => finite ops w.point && w.point.mapId == mapId) && legsFit ops (route ops depot)
  | _, _, _ => false

/-- Where a member stands at a waypoint. The slots of the formation come from trigonometry. -/
def target (slot : Side → F × F) (i : Side) (w : Waypoint F) : Option (ActionPosition F) :=
  if finite ops w.point = false ∨ w.point.mapId ≠ mapId then none
  else if w.singleFile then some w.point
  else some ⟨mapId, ops.add w.point.x (slot i).1, ops.add w.point.y (slot i).2, w.point.z⟩

end Routes

/-! ### Trips -/

inductive Stage
  | rally | toVillage | loading | toCity | unloading | rest | recover
  deriving DecidableEq

inductive Reason
  | notStarted | assemblingAtCity | departingCity | arrivedVillage | foodOnBoard | sourceHasNoSurplus
  | memberLostReturning | reassembleNewLivesAtCity | originalLifeRecovered | dangerReturning | tripOrLegTimeout
  | arrivedCityWithFood | emptyReturnFinished | deliveryFinished | memberMaterialized | memberLost
  deriving DecidableEq

/-- What the two members share. -/
structure State where
  current : Stage := .rally
  trip : ℕ := 0
  startedAtMs : ℕ := 0
  phaseStartedAtMs : ℕ := 0
  lastProgressAtMs : ℕ := 0
  nextAtMs : ℕ := 0
  completedTrips : ℕ := 0
  sourceDepotId : ℕ := 0
  waypoint : ℕ := 0
  sourceCursor : ℕ := 0
  guids : Side → ℕ := fun _ => 0
  lives : Side → ℕ := fun _ => 0
  ready : Side → Bool := fun _ => false
  returningSolo : Bool := false
  reason : Reason := .notStarted

inductive Activity
  | none | load | unload | eat
  deriving DecidableEq

structure ActorState (F : Type) where
  guid : ℕ := 0
  life : ℕ := 0
  live : Bool := false
  current : Activity := .none
  startedAtMs : ℕ := 0
  tripStamp : ℕ := 0
  sourceStamp : ℕ := 0
  loaded : ℕ := 0
  activityPoint : ActionPosition F
  recoveryWaypoint : Option ℕ := Option.none
  recoverySource : ℕ := 0

def elapsed (now since limit : ℕ) : Bool := since != 0 && since ≤ now && limit ≤ now - since

def setPhase (s : State) (phase : Stage) (now : ℕ) (reason : Reason) : State :=
  { s with current := phase, phaseStartedAtMs := now, lastProgressAtMs := now, ready := fun _ => false, reason }

def readyBarrier (s : State) : Bool :=
  !s.returningSolo && s.guids .carrier != 0 && s.guids .escort != 0 && s.ready .carrier && s.ready .escort

def readyForNextTrip (s : State) : Bool :=
  s.current == .rest && s.trip != 0 && s.guids .carrier != 0 && s.guids .escort != 0 &&
    s.lives .carrier != 0 && s.lives .escort != 0 && s.ready .carrier && s.ready .escort

/-- A survivor on the way back does not wait for a member that is gone. -/
def refreshReturnMode (s : State) (carrierOriginal escortOriginal : Bool) : State :=
  if s.current = .toCity ∧ (carrierOriginal = false ∨ escortOriginal = false) then { s with returningSolo := true }
  else s

def timedOut (s : State) (now : ℕ) : Bool :=
  s.current != .rest && (elapsed now s.startedAtMs tripTimeoutMs ||
    elapsed now s.lastProgressAtMs (if s.current = .rally then rallyTimeoutMs else legTimeoutMs))

/-- The next trip, none where it is refused. -/
def begin {F : Type} (ops : FloatOps F) (s : State) (pair : PairSpec) (now trip carrier escort : ℕ) : Option State :=
  match findPair pair.id with
  | none => none
  | some registered =>
    if registered.carrierSpawn ≠ pair.carrierSpawn ∨ registered.escortSpawn ≠ pair.escortSpawn ∨
        registered.carrierType ≠ pair.carrierType ∨ registered.sources ≠ pair.sources ∨
        now = 0 ∨ trip = 0 ∨ trip ≤ s.trip ∨ carrier = 0 ∨ escort = 0 ∨ carrier = escort then none
    else
      let source := selectSource pair s.sourceDepotId
      if validRoute ops source = false then none
      else
        let s := { s with
          trip := trip
          startedAtMs := now
          nextAtMs := now
          sourceDepotId := source
          sourceCursor := if source = pair.sources.2 then 1 else 0
          waypoint := 0
          guids := fun i => match i with | .carrier => carrier | .escort => escort
          lives := fun _ => 0
          returningSolo := false }
        some (setPhase s .rally now .assemblingAtCity)

end AIWorld.Caravan
