import AIWorld.Agent.LivingSurfaceCorridor
import AIWorld.Lib.OrdMap
import AIWorld.Quest.Instance

/-! What an agent proposes to do, and what the world thread has found out about the agent at that moment. A
request is an intent: it names a goal, a destination, a target, and none of that is believed. The context
repeats the same things as facts. -/

namespace AIWorld.Quest.ObjectGuid

def hasEntry (g : ObjectGuid) : Bool :=
  g.getHigh ∉ [0x4000, 0x0000, 0xF100, 0xF101, 0x1FC0, 0x1F40, 0x1F50]

def getEntry (g : ObjectGuid) : UInt32 :=
  if g.hasEntry then ((g.raw >>> 24) &&& 0xFFFFFF).toUInt32 else 0

def isPet (g : ObjectGuid) : Bool := g.getHigh = 0xF140

def isVehicle (g : ObjectGuid) : Bool := g.getHigh = 0xF150

def isUnit (g : ObjectGuid) : Bool := (g.isCreature || g.isPet || g.isVehicle) || g.isPlayer

end AIWorld.Quest.ObjectGuid

namespace AIWorld.Action

open Agent (ActionPosition)
open Quest (ObjectGuid)

/-! ### Kinds -/

inductive ActionType
  | flee | moveTo | eat | work | rest | attack | ambient
  deriving DecidableEq

inductive GoalType
  | getFood | fleeDanger | goToWork | goHome | regroup | roam | hunt | defend | feed | wildlifeRest
  | localActivity | predatorHunt | seekSafety | investigateDanger
  deriving DecidableEq

inductive RoutineActivityType
  | work | rest
  deriving DecidableEq

inductive AgentControlMode
  | observeOnly | aiWorldControlled
  deriving DecidableEq

inductive Role
  | none | predator | prey | guard | combatant | civilian | worker | traveler | service | hunter | raider
  deriving DecidableEq

inductive Activity
  | none | roam | look | talk | work | graze | eat | rest
  deriving DecidableEq

/-! ### Roles -/

def knownRole (role : Role) : Bool := role ≠ .none

def wildlife (role : Role) : Bool := role = .predator || role = .prey

def roamRadius : Role → ℕ
  | .predator | .traveler => 12
  | .combatant | .hunter | .raider => 10
  | .guard => 8
  | .prey => 6
  | .civilian | .worker => 4
  | .service | .none => 0

def allows (role : Role) (activity : Activity) : Bool :=
  if !knownRole role || activity = .none then false
  else match activity with
    | .roam => 0 < roamRadius role
    | .look => true
    | .talk => !wildlife role
    | .work => role = .worker || role = .hunter || role = .raider
    | .graze => role = .prey
    | .eat => !wildlife role
    | .rest => role ≠ .service && role ≠ .guard
    | .none => false

def usesFormationBearing (goal : GoalType) : Bool := goal ≠ .predatorHunt

/-! ### Where agents may be -/

structure SimulationBounds where
  minX : Float32 := 0
  maxX : Float32 := 0
  minY : Float32 := 0
  maxY : Float32 := 0
  deriving DecidableEq

def SimulationBounds.valid (b : SimulationBounds) : Bool :=
  b.minX.isFinite && b.maxX.isFinite && b.minY.isFinite && b.maxY.isFinite && b.minX < b.maxX &&
    b.minY < b.maxY

def SimulationBounds.holds (b : SimulationBounds) (x y : Float32) : Bool :=
  b.minX ≤ x && x ≤ b.maxX && b.minY ≤ y && y ≤ b.maxY

structure SimulationScope where
  mapId : UInt32 := 0
  zoneIds : List UInt32 := [12]
  bounds : Option SimulationBounds := none
  spawnIds : List UInt64 := []
  deriving DecidableEq

namespace SimulationScope

def valid (s : SimulationScope) : Bool :=
  s.zoneIds ≠ [] && s.zoneIds.length ≤ 64 && s.spawnIds.length ≤ 4096 &&
    s.bounds.all SimulationBounds.valid && (0 ∉ s.zoneIds && s.zoneIds.Nodup) &&
    (0 ∉ s.spawnIds && s.spawnIds.Nodup)

def containsMapZone (s : SimulationScope) (map zone : UInt32) : Bool :=
  s.valid && map = s.mapId && zone ∈ s.zoneIds

def containsPosition (s : SimulationScope) (map : UInt32) (x y z : Float32) : Bool :=
  s.valid && map = s.mapId && x.isFinite && y.isFinite && z.isFinite && s.bounds.all (·.holds x y)

def contains (s : SimulationScope) (map zone : UInt32) (x y z : Float32) : Bool :=
  s.containsMapZone map zone && s.containsPosition map x y z

end SimulationScope

/-! ### Approved recoveries -/

structure SurfacePolyline (F : Type) where
  owner : ObjectGuid := {}
  phaseMask : UInt32 := 0
  goal : ActionPosition F
  points : List (ActionPosition F) := []
  splinePoints : List (ActionPosition F) := []
  deriving DecidableEq

structure RecoveryMovement (F : Type) where
  destination : ActionPosition F
  home : ActionPosition F
  homeRadius : F
  danger : Option (ActionPosition F) := none
  rejoin : Bool := false
  surfaceCorridor : Bool := false
  queryDestination : Option (ActionPosition F) := none
  dangerRadius : F
  polyline : Option (SurfacePolyline F) := none
  deriving DecidableEq

def samePoint (a b : ActionPosition Float32) : Bool :=
  a.mapId = b.mapId && a.x == b.x && a.y == b.y && a.z == b.z

def samePoints (a b : List (ActionPosition Float32)) : Bool := a.length = b.length && (a.zip b).all fun p => samePoint p.1 p.2

def sameOptional {α : Type} (same : α → α → Bool) : Option α → Option α → Bool
  | none, none => true
  | some a, some b => same a b
  | _, _ => false

def SurfacePolyline.same (a b : SurfacePolyline Float32) : Bool :=
  a.owner = b.owner && a.phaseMask = b.phaseMask && samePoint a.goal b.goal && samePoints a.points b.points &&
    samePoints a.splinePoints b.splinePoints

def RecoveryMovement.same (a b : RecoveryMovement Float32) : Bool :=
  samePoint a.destination b.destination && samePoint a.home b.home && a.homeRadius == b.homeRadius &&
    a.rejoin = b.rejoin && a.surfaceCorridor = b.surfaceCorridor && a.dangerRadius == b.dangerRadius &&
    sameOptional samePoint a.danger b.danger &&
    sameOptional samePoint a.queryDestination b.queryDestination &&
    sameOptional SurfacePolyline.same a.polyline b.polyline

/-! ### Requests and contexts -/

structure ActionTargetRef where
  guid : ObjectGuid := {}
  entry : UInt32 := 0
  deriving DecidableEq

structure ActionRequest where
  type : ActionType := .flee
  sourceGoal : GoalType := .fleeDanger
  goalStartedAtMs : UInt64 := 0
  fleeFromGuid : ObjectGuid := {}
  destination : Option (ActionPosition Float32) := none
  recovery : Option (RecoveryMovement Float32) := none
  target : Option ActionTargetRef := none
  chaseAngleRadians : Option Float32 := none
  ambientActivity : Activity := .none

structure ActionValidationContext where
  materialized : Bool := false
  alive : Bool := false
  controlMode : AgentControlMode := .observeOnly
  activeGoalType : Option GoalType := none
  activeGoalStartedAtMs : UInt64 := 0
  fleeSourceGuid : ObjectGuid := {}
  mapId : UInt32 := 0
  x : Float32 := 0
  y : Float32 := 0
  z : Float32 := 0
  scope : SimulationScope := {}
  hasActiveMovement : Bool := false
  inCombat : Bool := false
  arrivedDestination : Option (ActionPosition Float32) := none
  arrivedSourceGoal : GoalType := .getFood
  arrivedGoalStartedAtMs : UInt64 := 0
  expectedRoutineActivity : Option RoutineActivityType := none
  routineActivityStartedAtMs : UInt64 := 0
  defenseThreatGuid : ObjectGuid := {}
  mealTargetGuid : ObjectGuid := {}
  wildlifeRestAllowed : Bool := false
  targetResolved : Bool := false
  targetAlive : Bool := false
  targetAttackable : Bool := false
  targetGuid : ObjectGuid := {}
  targetEntry : UInt32 := 0
  targetMapId : UInt32 := 0
  targetX : Float32 := 0
  targetY : Float32 := 0
  targetZ : Float32 := 0
  huntApproachDestination : Option (ActionPosition Float32) := none
  actorCurrentVictimGuid : ObjectGuid := {}
  targetWithinAttackRange : Bool := false
  targetInLineOfSight : Bool := false
  livingRoleAllowed : Bool := false
  livingRoleZoneId : UInt32 := 0
  livingRole : Role := .none
  expectedAmbientActivity : Activity := .none
  targetIsRolePrey : Bool := false
  livingRoleExtensionsAllowed : Bool := false
  roleMovementDestination : Option (ActionPosition Float32) := none
  approvedRecovery : Option (RecoveryMovement Float32) := none
  freshAllyAlarm : Bool := false
  targetIsSocialPartner : Bool := false

end AIWorld.Action
