import AIWorld.Agent.LivingSurfaceCorridor
import AIWorld.Lib.Selection
import AIWorld.Memory.MemoryRecord
import Mathlib.Algebra.Order.Field.Rat

/-! Which depot a raider sets out for, and by which route, after all it remembers of the depots, of
their guards and of the routes. Arithmetic is exact; how long a vector is, a function says. -/

namespace AIWorld.Agent.LivingRaidMemory

open Lib.Selection
open Memory (RaidExperience RaidExperienceKind RetrievedMemory)

/-! ### Numbers -/

open Float.Model in
/-- What a finite number stands for. -/
def value (a : Float32) : ℚ :=
  match a.toModel.unpack with
  | .finite .positive mantissa exponent _ => mantissa * (2 : ℚ) ^ exponent
  | .finite .negative mantissa exponent _ => -(mantissa * (2 : ℚ) ^ exponent)
  | _ => 0

def floatMax : ℚ := 2 ^ 128 - 2 ^ 104

def clamp (x lo hi : ℚ) : ℚ := if x < lo then lo else if hi < x then hi else x

def guardTtlMs : UInt64 := 900000
def stockTtlMs : UInt64 := 300000
def outcomeTtlMs : UInt64 := 900000
def blockedTtlMs : UInt64 := 300000
def guardHardAvoidMs : UInt64 := guardTtlMs * 4 / 5
def dangerRadius : ℚ := 40
def strongRiskThreshold : ℚ := 4

def experienceTtlMs : RaidExperienceKind → UInt64
  | .stockObserved | .sourceEmpty => stockTtlMs
  | .guardEncounter | .guardPositionChecked => guardTtlMs
  | .routeBlocked => blockedTtlMs
  | .theft | .delivered => outcomeTtlMs

/-! ### Data -/

structure Candidate where
  depotId : UInt32 := 0
  routeId : UInt32 := 0
  point : ActionPosition Float32
  waypoints : List (ActionPosition Float32)

structure Decision where
  depotId : UInt32 := 0
  routeId : UInt32 := 0
  recallCount : UInt32 := 0
  reason : String := "NO_CANDIDATE"
  risk : ℚ := 0
  score : ℚ := 0
  knownStock : Option UInt32 := none
  stockAgeMs : Option UInt64 := none
  danger : Option (ActionPosition Float32) := none
  dangerGuardSpawn : UInt64 := 0
  dangerAgeMs : UInt64 := 0
  retryAtMs : UInt64 := 0

/-! ### Memories -/

def villageDepot (id : UInt32) : Bool := id == 1 || decide (id ≥ 4 ∧ id ≤ 6)

def finite (p : ActionPosition Float32) : Bool := p.x.isFinite && p.y.isFinite && p.z.isFinite

def spot (map : UInt32) (memory : RetrievedMemory) : ActionPosition Float32 :=
  ⟨map, memory.location.x, memory.location.y, memory.location.z⟩

/-- The experience, which every active memory has. -/
def fact (memory : RetrievedMemory) : RaidExperience := memory.raid.getD {}

def malformed (memory : RetrievedMemory) : Bool :=
  (decide ((fact memory).kind = .guardEncounter) && memory.target.spawnId == 0) ||
    (decide ((fact memory).kind = .guardPositionChecked) &&
      (memory.target.spawnId == 0 || (fact memory).quantity != 0 ||
        ((fact memory).routeId != 1 && (fact memory).routeId != 2))) ||
    (decide ((fact memory).kind = .stockObserved) && decide ((fact memory).quantity > 30)) ||
    (decide ((fact memory).kind = .theft ∨ (fact memory).kind = .delivered) &&
      ((fact memory).quantity == 0 || decide ((fact memory).quantity > 2) ||
        (fact memory).attemptId == 0))

def active (owner : UInt64) (map : UInt32) (now : UInt64) (memory : RetrievedMemory) : Bool :=
  if owner == 0 || memory.owner != owner || decide (memory.tier ≠ .shortTerm) ||
      decide (memory.type ≠ .raidExperience) || memory.raid.isNone ||
      !villageDepot (fact memory).depotId || memory.location.mapId != map ||
      !finite (spot map memory) || memory.lastObservedAtMs == 0 ||
      decide (memory.lastObservedAtMs > now) ||
      !memory.importance.isFinite || decide (memory.importance < 0) ||
      decide (memory.importance > 1) ||
      !memory.relevance.isFinite || decide (memory.relevance < 0) ||
      decide (memory.relevance > 1) then false
  else if malformed memory then false
  else
    let ttl := experienceTtlMs (fact memory).kind
    ttl != 0 && decide (now - memory.lastObservedAtMs < ttl)

def freshness (memory : RetrievedMemory) (now : UInt64) : ℚ :=
  let ttl := experienceTtlMs (fact memory).kind
  if ttl ≠ 0 ∧ now ≥ memory.lastObservedAtMs then
    clamp (1 - ((now - memory.lastObservedAtMs).toNat : ℚ) / (ttl.toNat : ℚ)) 0 1
  else 0

def shouldAvoidGuard (owner : UInt64) (map : UInt32) (now : UInt64) (memory : RetrievedMemory) :
    Bool :=
  active owner map now memory && decide ((fact memory).kind = .guardEncounter) &&
    decide (now - memory.lastObservedAtMs ≤ guardHardAvoidMs)

/-- A later look at the same place by one's own eyes lays an encounter with a guard to rest. -/
def supersedes (owner : UInt64) (map : UInt32) (now : UInt64) (guard checked : RetrievedMemory) :
    Bool :=
  if !active owner map now checked || decide ((fact checked).kind ≠ .guardPositionChecked) ||
      decide (checked.lastObservedAtMs ≤ guard.lastObservedAtMs) ||
      checked.target.spawnId != guard.target.spawnId ||
      (fact checked).depotId != (fact guard).depotId ||
      (fact checked).routeId != (fact guard).routeId then false
  else
    let dx := value checked.location.x - value guard.location.x
    let dy := value checked.location.y - value guard.location.y
    let dz := value checked.location.z - value guard.location.z
    decide (dx * dx + dy * dy + dz * dz ≤ 1)

def isSupersededGuard (owner : UInt64) (map : UInt32) (now : UInt64)
    (memories : List RetrievedMemory) (guard : RetrievedMemory) : Bool :=
  if !active owner map now guard || decide ((fact guard).kind ≠ .guardEncounter) then false
  else memories.any (supersedes owner map now guard)

/-- The memories a decision is made after. -/
def remembered (owner : UInt64) (map : UInt32) (now : UInt64) (memories : List RetrievedMemory) :
    List RetrievedMemory :=
  memories.filter fun memory =>
    active owner map now memory && !isSupersededGuard owner map now memories memory

/-! ### Geometry -/

variable (hypot : ℚ → ℚ → ℚ → ℚ)

def distance (a b : ActionPosition Float32) : ℚ :=
  hypot (value a.x - value b.x) (value a.y - value b.y) (value a.z - value b.z)

def segmentDistance (point start stop : ActionPosition Float32) : ℚ :=
  let x := value stop.x - value start.x
  let y := value stop.y - value start.y
  let z := value stop.z - value start.z
  let squared := x * x + y * y + z * z
  let t :=
    if squared ≠ 0 then
      clamp (((value point.x - value start.x) * x + (value point.y - value start.y) * y +
        (value point.z - value start.z) * z) / squared) 0 1
    else 0
  hypot (value point.x - value start.x - t * x) (value point.y - value start.y - t * y)
    (value point.z - value start.z - t * z)

/-- The legs of a route, each from one point to the next. -/
def legs (candidate : Candidate) (here : ActionPosition Float32) :
    List (ActionPosition Float32 × ActionPosition Float32) :=
  (here :: candidate.waypoints).zip (candidate.waypoints ++ [candidate.point])

def routeDistance (candidate : Candidate) (here point : ActionPosition Float32) : ℚ :=
  (legs candidate here).foldl (fun closest leg => min closest (segmentDistance hypot point leg.1 leg.2))
    floatMax

def routeLength (candidate : Candidate) (here : ActionPosition Float32) : ℚ :=
  (legs candidate here).foldl (fun length leg => length + distance hypot leg.1 leg.2) 0

/-! ### Appraisal of a candidate -/

/-- What the memories say about a candidate. -/
structure Appraisal where
  stock : Option RetrievedMemory := none
  success : ℚ := 0
  risk : ℚ := 0
  hardAvoid : Bool := false
  danger : Option RetrievedMemory := none

def supplies (candidate : Candidate) (memory : RetrievedMemory) : Bool :=
  (fact memory).depotId == candidate.depotId &&
    decide ((fact memory).kind = .stockObserved ∨ (fact memory).kind = .sourceEmpty)

def newer (a b : RetrievedMemory) : Bool :=
  decide (a.lastObservedAtMs > b.lastObservedAtMs) ||
    (a.lastObservedAtMs == b.lastObservedAtMs && decide (a.memoryId > b.memoryId))

def succeeded (candidate : Candidate) (memory : RetrievedMemory) : Bool :=
  (fact memory).depotId == candidate.depotId && decide ((fact memory).kind = .delivered) &&
    (fact memory).quantity != 0 && (fact memory).attemptId != 0

def blocks (candidate : Candidate) (memory : RetrievedMemory) : Bool :=
  (fact memory).depotId == candidate.depotId && decide ((fact memory).kind = .routeBlocked) &&
    (fact memory).routeId == candidate.routeId

/-- An encounter with a guard within the danger radius of the route. -/
def threatens (here : ActionPosition Float32) (candidate : Candidate) (memory : RetrievedMemory) :
    Bool :=
  decide ((fact memory).kind = .guardEncounter) &&
    decide (routeDistance hypot candidate here (spot here.mapId memory) ≤ dangerRadius)

def fiercer (now : UInt64) (a b : RetrievedMemory) : Bool :=
  decide (20 * freshness a now > 20 * freshness b now)

/-- One memory in the loop over all that are recalled. -/
def Appraisal.weigh (owner now : UInt64) (here : ActionPosition Float32) (candidate : Candidate)
    (a : Appraisal) (memory : RetrievedMemory) : Appraisal :=
  let a := if supplies candidate memory then { a with stock := keep newer a.stock memory } else a
  let a :=
    if succeeded candidate memory then
      { a with
        success := max a.success (1.5 * freshness memory now * clamp (value memory.relevance) 0 1) }
    else a
  let a :=
    if blocks candidate memory then
      let risk := max a.risk (12 * freshness memory now)
      { a with risk, hardAvoid := a.hardAvoid || decide (risk ≥ strongRiskThreshold) }
    else a
  if threatens hypot here candidate memory then
    { a with
      danger := keep (fiercer now) a.danger memory
      risk := max a.risk (20 * freshness memory now)
      hardAvoid := a.hardAvoid || shouldAvoidGuard owner here.mapId now memory }
  else a

def appraise (owner now : UInt64) (here : ActionPosition Float32) (recalled : List RetrievedMemory)
    (candidate : Candidate) : Appraisal :=
  recalled.foldl (Appraisal.weigh hypot owner now here candidate) {}

/-! ### Choice -/

def quantity (stock : RetrievedMemory) : UInt32 :=
  if (fact stock).kind = .sourceEmpty then 0 else (fact stock).quantity

def validPoint (here point : ActionPosition Float32) : Bool :=
  point.mapId == here.mapId && finite point

def validCandidate (here : ActionPosition Float32) (candidate : Candidate) : Bool :=
  villageDepot candidate.depotId && validPoint here candidate.point &&
    decide (candidate.waypoints.length ≤ 16) && candidate.waypoints.all (validPoint here)

/-- The depot is known to hold less than is worth the way. -/
def Appraisal.short (a : Appraisal) : Bool := a.stock.any fun stock => decide (quantity stock < 6)

def Appraisal.reward (a : Appraisal) (now : UInt64) : ℚ :=
  match a.stock with
  | none => 3
  | some stock => 3.5 + (min (quantity stock).toNat 30 : ℚ) / 30 * freshness stock now

def score (now : UInt64) (here : ActionPosition Float32) (previousDepot : UInt32)
    (candidate : Candidate) (a : Appraisal) : ℚ :=
  a.reward now + a.success - routeLength hypot candidate here / 400 - a.risk -
    if candidate.depotId == previousDepot then 0.35 else 0

/-- The order of pairs of a depot and a route. -/
def before (candidate : Candidate) (result : Decision) : Bool :=
  decide (candidate.depotId < result.depotId) ||
    (!decide (result.depotId < candidate.depotId) && decide (candidate.routeId < result.routeId))

structure Search where
  result : Decision := {}
  risky : Bool := false
  empty : Bool := false
  best : ℚ := -floatMax
  strongestRisk : ℚ := 0

def Decision.warn (result : Decision) (now : UInt64) (map : UInt32) (danger : RetrievedMemory) :
    Decision :=
  { result with
    danger := some (spot map danger)
    dangerGuardSpawn := danger.target.spawnId
    dangerAgeMs := now - danger.lastObservedAtMs }

/-- A candidate that must be avoided; the strongest risk is reported as long as nothing is chosen. -/
def Search.avoid (s : Search) (now : UInt64) (map : UInt32) (a : Appraisal) : Search :=
  let s := { s with risky := true }
  if a.risk > s.strongestRisk then
    let s := { s with strongestRisk := a.risk }
    match a.danger with
    | some danger =>
      if s.result.depotId == 0 then { s with result := s.result.warn now map danger } else s
    | none => s
  else s

def Search.take (s : Search) (now : UInt64) (map : UInt32) (candidate : Candidate) (a : Appraisal)
    (score : ℚ) : Search :=
  let result := { s.result with
    depotId := candidate.depotId
    routeId := candidate.routeId
    score
    risk := a.risk
    knownStock := a.stock.map quantity
    stockAgeMs := a.stock.map fun stock => now - stock.lastObservedAtMs
    reason := if a.stock.isSome then "REMEMBERED_SUPPLY" else "EXPLORE_UNKNOWN_STOCK"
    danger := none
    dangerGuardSpawn := 0
    dangerAgeMs := 0 }
  { s with
    best := score
    result := match a.danger with
      | some danger => result.warn now map danger
      | none => result }

/-- One candidate in the loop over all. -/
def Search.consider (owner now : UInt64) (here : ActionPosition Float32) (previousDepot : UInt32)
    (recalled : List RetrievedMemory) (s : Search) (candidate : Candidate) : Search :=
  if !validCandidate here candidate then s
  else
    let a := appraise hypot owner now here recalled candidate
    if a.short then { s with empty := true }
    else if a.hardAvoid then s.avoid now here.mapId a
    else
      let score := score hypot now here previousDepot candidate a
      if score > s.best || (score == s.best && before candidate s.result) then
        s.take now here.mapId candidate a score
      else s

def Search.finish (s : Search) (now : UInt64) : Decision :=
  if s.result.depotId == 0 then
    { s.result with
      risk := s.strongestRisk
      reason := if s.risky then "DEFER_REMEMBERED_DANGER"
        else if s.empty then "DEFER_KNOWN_EMPTY" else "NO_CANDIDATE"
      retryAtMs := if now > 0xFFFFFFFFFFFFFFFF - 30000 then 0xFFFFFFFFFFFFFFFF else now + 30000 }
  else if s.risky then { s.result with reason := "AVOID_REMEMBERED_DANGER" }
  else s.result

def choose (owner now : UInt64) (here : ActionPosition Float32) (previousDepot : UInt32)
    (candidates : List Candidate) (memories : List RetrievedMemory) : Decision :=
  if owner == 0 || now == 0 || here.mapId == 0 || !finite here ||
      decide (candidates.length > 16) || decide (memories.length > 128) then
    { reason := "INVALID_CONTEXT" }
  else
    let recalled := remembered owner here.mapId now memories
    let s := candidates.foldl (Search.consider hypot owner now here previousDepot recalled)
      { result := { recallCount := UInt32.ofNat recalled.length } }
    s.finish now

end AIWorld.Agent.LivingRaidMemory
