import AIWorld.Lib.Probe
import Mathlib.Data.Rat.Defs

/-! A straight walk over the floor, checked half a yard at a time. The search keeps its place between calls,
so that a call can stop after a few samples. What the world answers is asked by queries, and floats are known
by their operations only. -/

namespace AIWorld.Agent

open Lib

/-- Single precision, as far as the searches use it. -/
structure FloatOps (F : Type) where
  lit : ℚ → F
  add : F → F → F
  sub : F → F → F
  mul : F → F → F
  div : F → F → F
  abs : F → F
  hypot : F → F → F
  hypot3 : F → F → F → F
  /-- The ceiling as an unsigned integer. -/
  ceil : F → ℕ
  /-- A quotient in double precision, rounded to the nearest integer; none for what is not finite. -/
  roundQuotient : F → ℚ → Option ℤ
  isFinite : F → Bool
  lt : F → F → Bool
  le : F → F → Bool
  eq : F → F → Bool
  eq_self : ∀ {x}, isFinite x = true → eq x x = true

structure ActionPosition (F : Type) where
  mapId : UInt32
  x : F
  y : F
  z : F
  deriving DecidableEq

inductive SurfaceQuery (F : Type)
  | heightAt (p : ActionPosition F)
  | clearSegment (a b : ActionPosition F)
  | contains (p : ActionPosition F)
  | hasTile (p : ActionPosition F)
  | isGoal (p : ActionPosition F)
  deriving DecidableEq

def SurfaceQuery.Answer {F : Type} : SurfaceQuery F → Type
  | heightAt _ => Option F
  | _ => Bool

abbrev SurfaceProbe (F α : Type) := Probe (SurfaceQuery F) SurfaceQuery.Answer α

section Queries
variable {F σ : Type}

def heightAt (p : ActionPosition F) : SurfaceProbe F (Option F) := .ask (.heightAt p) .done

def clearSegment (a b : ActionPosition F) : SurfaceProbe F Bool := .ask (.clearSegment a b) .done

def contains (p : ActionPosition F) : SurfaceProbe F Bool := .ask (.contains p) .done

def hasTile (p : ActionPosition F) : SurfaceProbe F Bool := .ask (.hasTile p) .done

def isGoal (p : ActionPosition F) : SurfaceProbe F Bool := .ask (.isGoal p) .done

/-- Go on when the answer is yes. -/
def require (asked : SurfaceProbe F Bool) (failed : σ) (next : SurfaceProbe F σ) : SurfaceProbe F σ := do
  let granted ← asked
  if granted then next else pure failed

/-- Go on with a height that is finite. -/
def requireHeight (ops : FloatOps F) (p : ActionPosition F) (failed : σ) (next : F → SurfaceProbe F σ) :
    SurfaceProbe F σ := do
  match ← heightAt p with
  | none => pure failed
  | some height => if ops.isFinite height then next height else pure failed

variable {log : Probe.Transcript (SurfaceQuery F) SurfaceQuery.Answer} {t failed : σ}

theorem require_cases {asked : SurfaceProbe F Bool} {next : SurfaceProbe F σ}
    (h : (require asked failed next).Runs log t) : t = failed ∨ ∃ rest, next.Runs rest t := by
  obtain ⟨front, back, granted, -, -, h⟩ := Probe.runs_bind.mp h
  cases granted with
  | false => exact .inl (Probe.runs_pure.mp h).2
  | true => exact .inr ⟨back, h⟩

theorem requireHeight_cases {ops : FloatOps F} {p : ActionPosition F} {next : F → SurfaceProbe F σ}
    (h : (requireHeight ops p failed next).Runs log t) : t = failed ∨ ∃ height rest, (next height).Runs rest t := by
  obtain ⟨front, back, answer, -, -, h⟩ := Probe.runs_bind.mp h
  cases answer with
  | none => exact .inl (Probe.runs_pure.mp h).2
  | some height =>
    dsimp only at h
    split_ifs at h
    · exact .inr ⟨height, back, h⟩
    · exact .inl (Probe.runs_pure.mp h).2

end Queries

/-- Why a search has failed. -/
inductive SurfaceFailure
  | notChecked | none | surfaceContext | surfaceBounds | surfaceMissingTile | surfaceRange | surfaceStartHeight
  | surfaceHeight | surfaceCliff | surfaceObstacle | surfaceEndHeight
  | surfaceDetourContext | surfaceDetourBounds | surfaceDetourRange | surfaceDetourExhausted
  | surfaceDetourEdgeLimit | surfaceDetourNodeLimit | surfaceDetourEdgeRange
  deriving DecidableEq

inductive Status
  | pending | complete | rejected
  deriving DecidableEq

namespace LivingSurfaceCorridor

structure Search (F : Type) where
  state : Status
  failure : SurfaceFailure
  fromPosition : ActionPosition F
  target : ActionPosition F
  route : List (ActionPosition F)
  nextSample : ℕ
  samples : ℕ
  previousHeight : F
  length : F
  started : Bool
  resolveEndpointHeight : Bool
  deriving DecidableEq

/-- What a call asks for; it is the same at every call of one search. -/
structure Request (F : Type) where
  fromPosition : ActionPosition F
  target : ActionPosition F
  resolveEndpointHeight : Bool

section Model
variable {F : Type} (ops : FloatOps F)

def Search.initial : Search F where
  state := .pending
  failure := .notChecked
  fromPosition := ⟨0, ops.lit 0, ops.lit 0, ops.lit 0⟩
  target := ⟨0, ops.lit 0, ops.lit 0, ops.lit 0⟩
  route := []
  nextSample := 1
  samples := 0
  previousHeight := ops.lit 0
  length := ops.lit 0
  started := false
  resolveEndpointHeight := false

def finite (p : ActionPosition F) : Bool := ops.isFinite p.x && ops.isFinite p.y && ops.isFinite p.z

def same (a b : ActionPosition F) : Bool := a.mapId = b.mapId && ops.eq a.x b.x && ops.eq a.y b.y && ops.eq a.z b.z

def Search.reject (s : Search F) (reason : SurfaceFailure) : Search F :=
  { s with failure := reason, state := .rejected, route := [] }

/-- The first call checks the ends of the walk. -/
def start (request : Request F) (s : Search F) : SurfaceProbe F (Search F) :=
  let source := request.fromPosition
  let target := request.target
  let s := { s with
    started := true
    fromPosition := source
    target
    resolveEndpointHeight := request.resolveEndpointHeight }
  if !finite ops source || !finite ops target || source.mapId ≠ target.mapId then pure (s.reject .surfaceBounds)
  else
    require (contains source) (s.reject .surfaceBounds) <|
    require (if request.resolveEndpointHeight then pure true else contains target) (s.reject .surfaceBounds) <|
    require (hasTile source) (s.reject .surfaceMissingTile) <|
    require (hasTile target) (s.reject .surfaceMissingTile) <|
    let distance := ops.hypot (ops.sub target.x source.x) (ops.sub target.y source.y)
    if ops.lt distance (ops.lit (1 / 100)) || ops.lt (ops.lit 480) distance then pure (s.reject .surfaceRange)
    else
      requireHeight ops source (s.reject .surfaceStartHeight) fun height =>
        if ops.lt (ops.lit 1) (ops.abs (ops.sub height source.z)) then pure (s.reject .surfaceStartHeight)
        else pure { s with
          previousHeight := height
          samples := ops.ceil (ops.div distance (ops.lit (1 / 2)))
          route := s.route ++ [source]
          failure := .none }

/-- The place of a sample, at the height of the one before. -/
def samplePoint (request : Request F) (s : Search F) : ActionPosition F :=
  let source := request.fromPosition
  let t := ops.div (ops.lit s.nextSample) (ops.lit s.samples)
  { mapId := source.mapId
    x := ops.add source.x (ops.mul (ops.sub request.target.x source.x) t)
    y := ops.add source.y (ops.mul (ops.sub request.target.y source.y) t)
    z := s.previousHeight }

/-- One turn of the loop over the samples. -/
def sample (request : Request F) (s : Search F) : SurfaceProbe F (Search F) :=
  let point := samplePoint ops request s
  require (hasTile point) (s.reject .surfaceMissingTile) <|
  requireHeight ops point (s.reject .surfaceHeight) fun height =>
    if ops.lt (ops.lit (3 / 4)) (ops.abs (ops.sub height s.previousHeight)) then pure (s.reject .surfaceCliff)
    else
      let point := { point with z := height }
      let previous := s.route.getLastD request.fromPosition
      require (contains point) (s.reject .surfaceBounds) <|
      require (clearSegment previous point) (s.reject .surfaceObstacle) <|
      let s := { s with
        length := ops.add s.length
          (ops.hypot3 (ops.sub point.x previous.x) (ops.sub point.y previous.y) (ops.sub point.z previous.z)) }
      if ops.lt (ops.lit 480) s.length then pure (s.reject .surfaceRange)
      else pure { s with
        route := s.route ++ [point]
        previousHeight := height
        nextSample := s.nextSample + 1 }

def sampleLoop (request : Request F) : ℕ → Search F → SurfaceProbe F (Search F)
  | 0, s => pure s
  | n + 1, s => do
    let s ← sample ops request s
    if s.state = .pending then sampleLoop request n s else pure s

/-- After the last sample the height of the end is compared, unless it is to be found. -/
def finish (request : Request F) (s : Search F) : Search F :=
  if s.nextSample ≤ s.samples then s
  else if !request.resolveEndpointHeight && ops.lt (ops.lit 1)
      (ops.abs (ops.sub (s.route.getLastD request.fromPosition).z request.target.z)) then s.reject .surfaceEndHeight
  else { s with state := .complete }

def finishPending (request : Request F) (s : Search F) : Search F :=
  if s.state = .pending then finish ops request s else s

def contextChanged (request : Request F) (s : Search F) : Bool :=
  s.started && (!same ops s.fromPosition request.fromPosition || !same ops s.target request.target ||
    s.resolveEndpointHeight ≠ request.resolveEndpointHeight)

/-- One call. The sum that ends the loop is unsigned. -/
def advance (request : Request F) (sampleBudget : UInt32) (s : Search F) : SurfaceProbe F (Search F) :=
  if contextChanged ops request s then pure (s.reject .surfaceContext)
  else if s.state ≠ .pending then pure s
  else do
    let s ← (if s.started then pure s else start ops request s)
    if s.state ≠ .pending then pure s
    else
      let untilSample := min (s.samples + 1) ((s.nextSample + sampleBudget.toNat) % 4294967296)
      let s ← sampleLoop ops request (untilSample - s.nextSample) s
      pure (finishPending ops request s)

end Model

/-! ### What the parts do -/

section Parts
variable {F : Type} {ops : FloatOps F} {request : Request F} {s t : Search F}
  {log : Probe.Transcript (SurfaceQuery F) SurfaceQuery.Answer}

theorem same_self {p : ActionPosition F} (h : finite ops p = true) : same ops p p = true := by
  simp only [finite, Bool.and_eq_true] at h
  simp [same, ops.eq_self h.1.1, ops.eq_self h.1.2, ops.eq_self h.2]

/-- A search that was started for a request. -/
structure StartedFor (ops : FloatOps F) (request : Request F) (s : Search F) : Prop where
  started : s.started = true
  fromPosition : s.fromPosition = request.fromPosition
  target : s.target = request.target
  resolveEndpointHeight : s.resolveEndpointHeight = request.resolveEndpointHeight
  finiteFrom : finite ops request.fromPosition = true
  finiteTarget : finite ops request.target = true

theorem StartedFor.contextChanged (h : StartedFor ops request s) : contextChanged ops request s = false := by
  simp [LivingSurfaceCorridor.contextChanged, h.fromPosition, h.target, h.resolveEndpointHeight,
    same_self h.finiteFrom, same_self h.finiteTarget]

/-- How far a walk is to lead. -/
def distance (ops : FloatOps F) (a b : ActionPosition F) : F := ops.hypot (ops.sub b.x a.x) (ops.sub b.y a.y)

/-- A distance that can be walked. -/
def Walkable (ops : FloatOps F) (a b : ActionPosition F) : Prop :=
  ops.lt (distance ops a b) (ops.lit (1 / 100)) = false ∧ ops.lt (ops.lit 480) (distance ops a b) = false

theorem start_cases (h : (start ops request s).Runs log t) : t.state = .rejected ∨
    StartedFor ops request t ∧ t.state = s.state ∧ t.nextSample = s.nextSample ∧
      t.route = s.route ++ [request.fromPosition] ∧ t.length = s.length ∧
      Walkable ops request.fromPosition request.target ∧
      t.samples = ops.ceil (ops.div (distance ops request.fromPosition request.target) (ops.lit (1 / 2))) := by
  unfold start at h
  dsimp only at h
  split at h
  next =>
    obtain ⟨-, rfl⟩ := Probe.runs_pure.mp h
    exact .inl rfl
  next hbounds =>
    obtain rfl | ⟨_, h⟩ := require_cases h
    · exact .inl rfl
    obtain rfl | ⟨_, h⟩ := require_cases h
    · exact .inl rfl
    obtain rfl | ⟨_, h⟩ := require_cases h
    · exact .inl rfl
    obtain rfl | ⟨_, h⟩ := require_cases h
    · exact .inl rfl
    split at h
    next =>
      obtain ⟨-, rfl⟩ := Probe.runs_pure.mp h
      exact .inl rfl
    next hrange =>
      obtain rfl | ⟨height, _, h⟩ := requireHeight_cases h
      · exact .inl rfl
      split at h <;> obtain ⟨-, rfl⟩ := Probe.runs_pure.mp h
      · exact .inl rfl
      · simp only [Bool.or_eq_true, not_or, Bool.not_eq_true, Bool.not_eq_false'] at hbounds hrange
        exact .inr ⟨⟨rfl, rfl, rfl, rfl, hbounds.1.1, hbounds.1.2⟩, rfl, rfl, rfl, rfl, hrange, rfl⟩

/-- How far it is from one sample to the next. -/
def stride (ops : FloatOps F) (a b : ActionPosition F) : F :=
  ops.hypot3 (ops.sub b.x a.x) (ops.sub b.y a.y) (ops.sub b.z a.z)

theorem sample_cases (h : (sample ops request s).Runs log t) : t.state = .rejected ∨
    ∃ point previousHeight, t = { s with
      length := ops.add s.length (stride ops (s.route.getLastD request.fromPosition) point)
      route := s.route ++ [point]
      previousHeight
      nextSample := s.nextSample + 1 } := by
  unfold sample at h
  dsimp only at h
  obtain rfl | ⟨_, h⟩ := require_cases h
  · exact .inl rfl
  obtain rfl | ⟨height, _, h⟩ := requireHeight_cases h
  · exact .inl rfl
  split at h
  · obtain ⟨-, rfl⟩ := Probe.runs_pure.mp h
    exact .inl rfl
  obtain rfl | ⟨_, h⟩ := require_cases h
  · exact .inl rfl
  obtain rfl | ⟨_, h⟩ := require_cases h
  · exact .inl rfl
  split at h <;> obtain ⟨-, rfl⟩ := Probe.runs_pure.mp h
  · exact .inl rfl
  · exact .inr ⟨_, _, rfl⟩

end Parts

/-! ### Legs -/

section Legs
variable (ops : FloatOps F)

/-- The legs of a route from its point `previous` on, of which the running leg has a length. -/
def legsLoop : ActionPosition F → List (ActionPosition F) → F → List (ActionPosition F)
  | _, [], _ => []
  | previous, point :: route, length =>
    let segment := stride ops previous point
    let cut := ops.lt (ops.lit 0) length && ops.lt (ops.lit (11 / 2)) (ops.add length segment)
    let length := ops.add (if cut then ops.lit 0 else length) segment
    let done := ops.le (ops.lit 5) length || route.isEmpty
    (if cut then [previous] else []) ++ (if done then [point] else []) ++
      legsLoop point route (if done then ops.lit 0 else length)

def legs (route : List (ActionPosition F)) : List (ActionPosition F) :=
  match route with
  | first :: second :: route => legsLoop ops first (second :: route) (ops.lit 0)
  | _ => []

end Legs

end LivingSurfaceCorridor

end AIWorld.Agent
