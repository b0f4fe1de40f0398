import AIWorld.Agent.LivingSurfaceCorridor
import Std.Data.ExtTreeMap.Lemmas

/-! A search for a way home around obstacles, over short walks that are each checked on the floor. A call
checks at most eight samples of one walk. The nodes that wait are kept in a heap of their indices, and a route
is published only when the goal is reached. Indices and counters are natural numbers, an absent index is none. -/

namespace AIWorld.Agent.LivingSurfaceDetour

open Lib
open Std (ExtTreeMap)

/-- The grids of the search, from the coarse one to the one of fine turns. -/
inductive Spacing
  | grid | narrow | fineTurn
  deriving DecidableEq

structure Node (F : Type) where
  position : ActionPosition F
  x : ℤ
  y : ℤ
  cost : F
  remaining : F
  parent : Option ℕ
  heapPosition : Option ℕ
  closed : Bool
  deriving DecidableEq

structure Search (F : Type) where
  state : Status
  failure : SurfaceFailure
  lastEdgeFailure : SurfaceFailure
  fromPosition : ActionPosition F
  home : ActionPosition F
  arrivalRadius : F
  limit : F
  spacing : Spacing
  fineTurnsEnabled : Bool
  startedFineTurnsEnabled : Bool
  originConnectorPending : Bool
  nodeLimit : ℕ
  edgeLimit : ℕ
  startedNodeLimit : ℕ
  startedEdgeLimit : ℕ
  edgeAttempts : ℕ
  expanded : ℕ
  retiredNodes : ℕ
  started : Bool
  nodes : List (Node F)
  openNodes : List ℕ
  index : ExtTreeMap ℕ ℕ
  route : List (ActionPosition F)
  current : Option ℕ
  nextDirection : ℕ
  edgeFrom : Option ℕ
  edgeExisting : Option ℕ
  nextStride : ℕ
  edgeStride : ℕ
  edgeX : ℤ
  edgeY : ℤ
  edgeTarget : ActionPosition F
  edgeActive : Bool
  edge : LivingSurfaceCorridor.Search F

structure Request (F : Type) where
  fromPosition : ActionPosition F
  home : ActionPosition F
  arrivalRadius : F
  limit : F

def maxNodes : ℕ := 512

def maxEdges : ℕ := 2048

section Model
variable {F : Type} (ops : FloatOps F)

def Spacing.yards : Spacing → F
  | grid => ops.lit (5 / 2)
  | narrow => ops.lit (5 / 4)
  | fineTurn => ops.lit (5 / 8)

def maxRouteLength : F := ops.lit 480

/-- The fine turns and the limits may be set before the first call. -/
def Search.initial (fineTurnsEnabled : Bool) (nodeLimit edgeLimit : ℕ) : Search F where
  state := .pending
  failure := .notChecked
  lastEdgeFailure := .notChecked
  fromPosition := ⟨0, ops.lit 0, ops.lit 0, ops.lit 0⟩
  home := ⟨0, ops.lit 0, ops.lit 0, ops.lit 0⟩
  arrivalRadius := ops.lit 0
  limit := ops.lit 0
  spacing := .grid
  fineTurnsEnabled
  startedFineTurnsEnabled := false
  originConnectorPending := false
  nodeLimit
  edgeLimit
  startedNodeLimit := 0
  startedEdgeLimit := 0
  edgeAttempts := 0
  expanded := 0
  retiredNodes := 0
  started := false
  nodes := []
  openNodes := []
  index := ∅
  route := []
  current := none
  nextDirection := 0
  edgeFrom := none
  edgeExisting := none
  nextStride := 4
  edgeStride := 4
  edgeX := 0
  edgeY := 0
  edgeTarget := ⟨0, ops.lit 0, ops.lit 0, ops.lit 0⟩
  edgeActive := false
  edge := .initial ops

def Search.totalNodes (s : Search F) : ℕ := s.retiredNodes + s.nodes.length

def remaining (point home : ActionPosition F) (radius : F) : F :=
  let distance := ops.sub (ops.hypot (ops.sub point.x home.x) (ops.sub point.y home.y)) radius
  if ops.lt (ops.lit 0) distance then distance else ops.lit 0

/-- Two 32-bit coordinates side by side. -/
def key (x y : ℤ) : ℕ := (x % 4294967296).toNat * 4294967296 + (y % 4294967296).toNat

/-- The next multiple of four in a direction, or the nearest one, away from zero at a tie. -/
def coarseAxis (coordinate direction : ℤ) : ℤ :=
  if direction > 0 then 4 * (coordinate / 4 + 1)
  else if direction < 0 then 4 * (-(-coordinate / 4) - 1)
  else if coordinate ≥ 0 then 4 * ((coordinate + 2) / 4)
  else 4 * -((-coordinate + 2) / 4)

/-- The margin leaves room for every neighbour. -/
def nearestWorldAxis (coordinate : F) : Option ℤ :=
  match ops.roundQuotient coordinate (5 / 8) with
  | none => none
  | some cell => if cell < -2147483648 + 776 ∨ cell > 2147483647 - 776 then none else some cell

def Search.reject (s : Search F) (reason : SurfaceFailure) : Search F :=
  { s with failure := reason, state := .rejected, route := [], edgeActive := false }

/-- What a node looks like when there is none. -/
def Node.absent : Node F where
  position := ⟨0, ops.lit 0, ops.lit 0, ops.lit 0⟩
  x := 0
  y := 0
  cost := ops.lit 0
  remaining := ops.lit 0
  parent := none
  heapPosition := none
  closed := false

def Search.node (s : Search F) (i : ℕ) : Node F := s.nodes.getD i (.absent ops)

def Search.setNode (s : Search F) (i : ℕ) (f : Node F → Node F) : Search F :=
  { s with nodes := s.nodes.modify i f }

/-! ### The heap -/

/-- Progress is preferred when turns are fine. -/
def before (s : Search F) (a b : ℕ) : Bool :=
  let left := s.node ops a
  let right := s.node ops b
  let total (node : Node F) : F :=
    if s.fineTurnsEnabled then ops.add node.cost (ops.mul (ops.lit 3) node.remaining)
    else ops.add node.cost node.remaining
  if !ops.eq (total left) (total right) then ops.lt (total left) (total right)
  else if !ops.eq left.remaining right.remaining then ops.lt left.remaining right.remaining
  else a < b

def openAt (s : Search F) (position : ℕ) : ℕ := s.openNodes.getD position 0

def swapOpen (s : Search F) (a b : ℕ) : Search F :=
  let first := openAt s a
  let second := openAt s b
  let s := { s with openNodes := (s.openNodes.set a second).set b first }
  (s.setNode second fun node => { node with heapPosition := some a }).setNode first fun node =>
    { node with heapPosition := some b }

/-- The position at least halves at every turn. -/
def promote : ℕ → Search F → ℕ → Search F
  | 0, s, _ => s
  | fuel + 1, s, position =>
    if position ≠ 0 ∧ before ops s (openAt s position) (openAt s ((position - 1) / 2)) then
      promote fuel (swapOpen s position ((position - 1) / 2)) ((position - 1) / 2)
    else s

def append (s : Search F) (node : ℕ) : Search F :=
  { s.setNode node fun entry => { entry with heapPosition := some s.openNodes.length } with
    openNodes := s.openNodes ++ [node] }

def queue (s : Search F) (node : ℕ) : Search F :=
  match (s.node ops node).heapPosition with
  | some position => promote ops position s position
  | none => promote ops s.openNodes.length (append s node) s.openNodes.length

def sink : ℕ → Search F → ℕ → Search F
  | 0, s, _ => s
  | fuel + 1, s, position =>
    if position * 2 + 1 < s.openNodes.length then
      let next := position * 2 + 1
      let next :=
        if next + 1 < s.openNodes.length && before ops s (openAt s (next + 1)) (openAt s next) then next + 1 else next
      if !before ops s (openAt s next) (openAt s position) then s
      else sink fuel (swapOpen s position next) next
    else s

/-- The last of the heap takes the place of the first. -/
def replaceFirst (s : Search F) : Search F :=
  let s := { s with openNodes := (s.openNodes.set 0 (openAt s (s.openNodes.length - 1))).dropLast }
  s.setNode (openAt s 0) fun node => { node with heapPosition := some 0 }

def pop (s : Search F) : ℕ × Search F :=
  let result := openAt s 0
  let s := s.setNode result fun node => { node with heapPosition := none }
  if s.openNodes.length = 1 then (result, { s with openNodes := s.openNodes.dropLast })
  else (result, sink ops (replaceFirst s).openNodes.length (replaceFirst s) 0)

/-! ### The first call -/

def physicalEdgeFailure : SurfaceFailure → Bool
  | .surfaceObstacle | .surfaceCliff | .surfaceHeight => true
  | _ => false

/-- The cell of the origin, which only matters when turns are fine. -/
def originCell (request : Request F) (s : Search F) : Option (ℤ × ℤ) :=
  if s.fineTurnsEnabled then do
    let x ← nearestWorldAxis ops request.fromPosition.x
    let y ← nearestWorldAxis ops request.fromPosition.y
    some (x, y)
  else some (0, 0)

def outOfBounds (request : Request F) (s : Search F) : Bool :=
  let source := request.fromPosition
  let home := request.home
  !LivingSurfaceCorridor.finite ops source || !LivingSurfaceCorridor.finite ops home || source.mapId ≠ home.mapId ||
    !ops.isFinite request.arrivalRadius || ops.lt request.arrivalRadius (ops.lit 0) ||
    !ops.isFinite request.limit || ops.le request.limit (ops.lit 0) || ops.lt request.limit request.arrivalRadius ||
    s.nodeLimit = 0 || s.nodeLimit > maxNodes || s.edgeLimit = 0 || s.edgeLimit > maxEdges ||
    ops.lt request.limit (ops.hypot (ops.sub source.x home.x) (ops.sub source.y home.y))

/-- The origin and the settings of the search, once the first call has checked them. -/
def admitStart (request : Request F) (s : Search F) (cell : ℤ × ℤ) : Search F :=
  let source := request.fromPosition
  let offGrid := s.fineTurnsEnabled &&
    (!ops.eq (ops.mul (ops.lit cell.1) (Spacing.yards ops .fineTurn)) source.x ||
      !ops.eq (ops.mul (ops.lit cell.2) (Spacing.yards ops .fineTurn)) source.y)
  let origin : Node F := { Node.absent ops with
    position := source
    x := cell.1
    y := cell.2
    remaining := remaining ops source request.home request.arrivalRadius }
  { s with
    started := true
    fromPosition := source
    home := request.home
    arrivalRadius := request.arrivalRadius
    limit := request.limit
    startedNodeLimit := s.nodeLimit
    startedEdgeLimit := s.edgeLimit
    startedFineTurnsEnabled := s.fineTurnsEnabled
    spacing := if s.fineTurnsEnabled then .fineTurn else s.spacing
    nodes := s.nodes ++ [origin]
    originConnectorPending := offGrid
    index := if offGrid then s.index else s.index.insertIfNew (key cell.1 cell.2) 0 }

def begin (request : Request F) (s : Search F) (cell : ℤ × ℤ) : Search F :=
  { queue ops (admitStart ops request s cell) 0 with failure := .none }

def start (request : Request F) (s : Search F) : SurfaceProbe F (Search F) :=
  let source := request.fromPosition
  if outOfBounds ops request s then pure (s.reject .surfaceDetourBounds)
  else
    require (contains source) (s.reject .surfaceDetourBounds) <|
    match originCell ops request s with
    | none => pure (s.reject .surfaceDetourBounds)
    | some cell =>
      require (hasTile source) (s.reject .surfaceMissingTile) <|
      requireHeight ops source (s.reject .surfaceStartHeight) fun height =>
        if ops.lt (ops.lit 1) (ops.abs (ops.sub height source.z)) then pure (s.reject .surfaceStartHeight)
        else if ops.lt (maxRouteLength ops) (remaining ops source request.home request.arrivalRadius) then
          pure (s.reject .surfaceDetourRange)
        else pure (begin ops request s cell)

/-! ### Choosing an edge -/

/-- The graph starts again from the origin on the narrow grid. -/
def restart (s : Search F) : Search F :=
  { s with
    retiredNodes := s.retiredNodes + (s.nodes.length - 1)
    nodes := [{ s.node ops 0 with parent := none, heapPosition := none, closed := false }]
    openNodes := []
    index := (∅ : ExtTreeMap ℕ ℕ).insertIfNew (key 0 0) 0
    current := none
    edgeFrom := none
    edgeExisting := none
    nextDirection := 0
    edgeActive := false
    edge := .initial ops
    spacing := .narrow }

def refine (s : Search F) : Search F := queue ops (restart ops s) 0

def directions : List (ℤ × ℤ) := [(1, 0), (1, 1), (0, 1), (-1, 1), (-1, 0), (-1, -1), (0, -1), (1, -1)]

/-- An edge that may be tried. -/
structure EdgeOffer (F : Type) where
  x : ℤ
  y : ℤ
  target : ActionPosition F
  existing : Option ℕ

/-- The neighbour in a direction, unless it is out of range or nothing is gained. -/
def offerEdge (request : Request F) (s : Search F) (i stride : ℕ) (direction : ℤ × ℤ) : Option (EdgeOffer F) :=
  let source := request.fromPosition
  let current := s.node ops i
  let coarse := s.fineTurnsEnabled && stride = 4
  let x := if coarse then coarseAxis current.x direction.1 else current.x + direction.1 * stride
  let y := if coarse then coarseAxis current.y direction.2 else current.y + direction.2 * stride
  let spacing := s.spacing.yards ops
  let target : ActionPosition F :=
    { mapId := source.mapId
      x := ops.add (if s.fineTurnsEnabled then ops.lit 0 else source.x) (ops.mul (ops.lit x) spacing)
      y := ops.add (if s.fineTurnsEnabled then ops.lit 0 else source.y) (ops.mul (ops.lit y) spacing)
      z := current.position.z }
  if ops.lt (maxRouteLength ops) (ops.hypot (ops.sub target.x source.x) (ops.sub target.y source.y)) ||
      ops.lt request.limit (ops.hypot (ops.sub target.x request.home.x) (ops.sub target.y request.home.y)) then none
  else
    let existing := s.index[key x y]?
    let lowerCost := ops.add current.cost
      (ops.hypot (ops.sub target.x current.position.x) (ops.sub target.y current.position.y))
    if ops.lt (maxRouteLength ops) lowerCost || existing.any fun index =>
        (s.node ops index).closed || ops.le (s.node ops index).cost lowerCost then none
    else some { x, y, target, existing }

/-- The loop over the directions of a node; an off-grid origin first takes the connector to its cell. A node has
nine neighbours at most. -/
def nextEdge (request : Request F) (i : ℕ) : ℕ → Search F → Search F
  | 0, s => s
  | fuel + 1, s =>
    let originConnector := i = 0 && s.originConnectorPending
    if !(s.nextDirection < 8 || originConnector) then s
    else
      let direction := if originConnector then (0, 0) else directions.getD s.nextDirection (0, 0)
      let stride := if originConnector then 1 else if s.fineTurnsEnabled then s.nextStride else 1
      let s :=
        if originConnector then { s with originConnectorPending := false, nextStride := 4 }
        else { s with nextDirection := s.nextDirection + 1, nextStride := 4 }
      match offerEdge ops request s i stride direction with
      | none => nextEdge request i fuel s
      | some offer =>
        if s.edgeAttempts = s.edgeLimit then s.reject .surfaceDetourEdgeLimit
        else { s with
          edgeAttempts := s.edgeAttempts + 1
          edgeFrom := some i
          edgeExisting := offer.existing
          edgeStride := stride
          edgeX := offer.x
          edgeY := offer.y
          edgeTarget := offer.target
          edge := .initial ops
          edgeActive := true }

/-- The route is read back through the parents. A chain is no longer than the number of expanded nodes. -/
def readBack (s : Search F) : ℕ → ℕ → List (ActionPosition F)
  | 0, _ => []
  | fuel + 1, i =>
    match (s.node ops i).parent with
    | none => []
    | some parent => (s.node ops i).position :: readBack s fuel parent

def closeNode (s : Search F) (i : ℕ) : Search F :=
  { s.setNode i fun node => { node with closed := true } with
    current := some i
    nextDirection := 0
    nextStride := 4
    expanded := s.expanded + 1 }

/-- The first of the heap is expanded. -/
def expand (request : Request F) (s : Search F) : SurfaceProbe F (Search F) :=
  let i := (pop ops s).1
  let s := closeNode (pop ops s).2 i
  let current := s.node ops i
  if ops.eq current.remaining (ops.lit 0) then do
    let arrived ← isGoal current.position
    if arrived then pure { s with route := (readBack ops s s.expanded i).reverse, state := .complete }
    else pure s
  else pure (nextEdge ops request i 9 s)

/-- The next node is expanded; an exhausted graph is refined once. -/
def pickNode (request : Request F) (s : Search F) : SurfaceProbe F (Search F) :=
  if s.openNodes.isEmpty then
    if s.fineTurnsEnabled then pure (s.reject .surfaceDetourExhausted)
    else if s.spacing ≠ .grid then pure (s.reject .surfaceDetourExhausted)
    else if s.edgeAttempts ≥ s.edgeLimit then pure (s.reject .surfaceDetourEdgeLimit)
    else if s.totalNodes ≥ s.nodeLimit then pure (s.reject .surfaceDetourNodeLimit)
    else expand ops request (refine ops s)
  else expand ops request s

def select (request : Request F) (s : Search F) : SurfaceProbe F (Search F) :=
  match s.current with
  | none => pickNode ops request s
  | some i => if s.nextDirection = 8 then pickNode ops request s else pure (nextEdge ops request i 9 s)

/-! ### The end of an edge -/

/-- A physical obstacle is tried again in the same direction with half the stride. -/
def rejectEdge (s : Search F) : Search F :=
  if s.fineTurnsEnabled && s.edgeStride > 1 && physicalEdgeFailure s.lastEdgeFailure then
    { s with nextDirection := s.nextDirection - 1, nextStride := s.edgeStride / 2 }
  else s

def improveNode (s : Search F) (i source : ℕ) (endpoint : ActionPosition F) (cost : F) : Search F :=
  s.setNode i fun node => { node with position := endpoint, cost, parent := some source }

def addNode (request : Request F) (s : Search F) (source : ℕ) (endpoint : ActionPosition F) (cost : F) : Search F :=
  let node : Node F :=
    { position := endpoint
      x := s.edgeX
      y := s.edgeY
      cost
      remaining := remaining ops endpoint request.home request.arrivalRadius
      parent := some source
      heapPosition := none
      closed := false }
  { s with
    nodes := s.nodes ++ [node]
    index := s.index.insertIfNew (key s.edgeX s.edgeY) s.nodes.length }

/-- A walked edge makes a node, or improves one on the same floor. -/
def acceptEdge (request : Request F) (source : ℕ) (s : Search F) : Search F :=
  let endpoint := s.edge.route.getLastD s.edgeTarget
  let cost := ops.add (s.node ops source).cost s.edge.length
  if ops.lt (ops.lit 6) s.edge.length then { s with lastEdgeFailure := .surfaceDetourEdgeRange }
  else if ops.lt (maxRouteLength ops) cost then s
  else
    match s.edgeExisting with
    | some i =>
      if ops.le (s.node ops i).cost cost ||
          ops.lt (ops.lit 1) (ops.abs (ops.sub endpoint.z (s.node ops i).position.z)) then s
      else queue ops (improveNode s i source endpoint cost) i
    | none =>
      if s.totalNodes ≥ s.nodeLimit then s.reject .surfaceDetourNodeLimit
      else queue ops (addNode ops request s source endpoint cost) s.nodes.length

/-- What follows when the walk of an edge has been advanced. -/
def settleEdge (request : Request F) (source : ℕ) (s : Search F) : Search F :=
  match s.edge.state with
  | .pending => s
  | .rejected => rejectEdge { s with edgeActive := false, lastEdgeFailure := s.edge.failure }
  | .complete => acceptEdge ops request source { s with edgeActive := false, lastEdgeFailure := s.edge.failure }

/-! ### One call -/

def contextChanged (request : Request F) (s : Search F) : Bool :=
  s.started && (!LivingSurfaceCorridor.same ops s.fromPosition request.fromPosition ||
    !LivingSurfaceCorridor.same ops s.home request.home || !ops.eq s.arrivalRadius request.arrivalRadius ||
    !ops.eq s.limit request.limit || s.nodeLimit ≠ s.startedNodeLimit || s.edgeLimit ≠ s.startedEdgeLimit ||
    s.fineTurnsEnabled ≠ s.startedFineTurnsEnabled)

def edgeRequest (s : Search F) (source : ℕ) : LivingSurfaceCorridor.Request F where
  fromPosition := (s.node ops source).position
  target := s.edgeTarget
  resolveEndpointHeight := true

/-- The walk of the edge goes on with what is left of the budget. -/
def walkEdge (request : Request F) (sampleBudget : UInt32) (s : Search F) : SurfaceProbe F (Search F) := do
  let source := s.edgeFrom.getD 0
  let startSample : UInt32 := if s.edge.started then 0 else 1
  let edge ← LivingSurfaceCorridor.advance ops (edgeRequest ops s source) (sampleBudget - startSample) s.edge
  pure (settleEdge ops request source { s with edge })

/-- An edge is chosen when there is none, and then walked. -/
def search (request : Request F) (sampleBudget : UInt32) (s : Search F) : SurfaceProbe F (Search F) := do
  let s ← (if s.edgeActive then pure s else select ops request s)
  if s.edgeActive then walkEdge ops request sampleBudget s else pure s

def advance (request : Request F) (sampleBudget edgeBudget : UInt32) (s : Search F) : SurfaceProbe F (Search F) :=
  if contextChanged ops request s then pure (s.reject .surfaceDetourContext)
  else if s.state ≠ .pending || sampleBudget = 0 || edgeBudget = 0 then pure s
  else
    let sampleBudget := min 8 sampleBudget
    if s.started then search ops request sampleBudget s
    else do
      let s ← start ops request s
      if s.state ≠ .pending || sampleBudget - 1 = 0 then pure s
      else search ops request (sampleBudget - 1) s

end Model

end AIWorld.Agent.LivingSurfaceDetour
