import AIWorld.Agent.DetourGraph
import AIWorld.Agent.DetourSlicing
import Mathlib.Data.List.Chain

/-! A published way home was walked. Whatever the answers are and however the search is called, every step of a
complete route is a walk that completed, and what is closed stays. Nothing is published before that. -/

namespace AIWorld.Agent.LivingSurfaceDetour

open Lib

variable {F : Type} {ops : FloatOps F} {request : Request F} {s t : Search F} {i j nodeLimit edgeLimit : ℕ}
  {log log' : Probe.Transcript (SurfaceQuery F) SurfaceQuery.Answer}

/-! ### What holds in every state -/

/-- A search that was not started has no graph. -/
structure Blank (s : Search F) : Prop where
  nodes : s.nodes = []
  openNodes : s.openNodes = []
  index : s.index = ∅
  current : s.current = none
  retiredNodes : s.retiredNodes = 0

/-- The walk of an edge from the current node is under way. -/
structure Walking (ops : FloatOps F) (log : Probe.Transcript (SurfaceQuery F) SurfaceQuery.Answer) (s : Search F)
    (i : ℕ) : Prop where
  source : s.edgeFrom = some i
  current : s.current = some i
  pending : s.edge.state = .pending
  existing : ∀ j, s.edgeExisting = some j → s.IsWaiting j
  calls : ∃ calls, LivingSurfaceCorridor.Calls ops (edgeRequest ops s i) (.initial ops) calls s.edge ∧
    Probe.transcript calls <:+ log

/-- The route to a node was read back there, at the goal. -/
structure Arrived (ops : FloatOps F) (log : Probe.Transcript (SurfaceQuery F) SurfaceQuery.Answer) (s : Search F)
    (i : ℕ) : Prop where
  current : s.current = some i
  route : s.route = (readBack ops s s.expanded i).reverse
  remaining : ops.eq (s.node ops i).remaining (ops.lit 0) = true
  goal : (⟨.isGoal (s.node ops i).position, (true : Bool)⟩ : Σ q : SurfaceQuery F, q.Answer) ∈ log

structure Sound (ops : FloatOps F) (nodeLimit edgeLimit : ℕ)
    (log : Probe.Transcript (SurfaceQuery F) SurfaceQuery.Answer) (s : Search F) : Prop where
  limits : s.nodeLimit = nodeLimit ∧ s.edgeLimit = edgeLimit
  nodes : s.totalNodes ≤ nodeLimit
  edges : s.edgeAttempts ≤ edgeLimit
  direction : s.nextDirection ≤ 8
  unpublished : s.state ≠ .complete → s.route = []
  idle : s.edgeActive = true → s.state = .pending ∧ s.started = true
  blank : s.started = false → Blank s ∧ s.state ≠ .complete
  graph : s.started = true → Graph ops log s
  walk : s.edgeActive = true → ∃ i, Walking ops log s i
  goal : s.state = .complete → ∃ i, Arrived ops log s i

/-- What one state leaves for a later one. Nodes are retired with the coarse graph, the origin never. -/
structure Frozen (s t : Search F) : Prop where
  closed : ∀ i n, i ≠ 0 → s.view i = some n → n.closed = true → t.retiredNodes = s.retiredNodes → t.view i = some n
  retired : s.retiredNodes ≤ t.retiredNodes
  started : s.started = true → t.started = true ∧ t.fromPosition = s.fromPosition

theorem Frozen.of_view (hview : ∀ i, s.IsClosed i → t.view i = s.view i) (hretired : t.retiredNodes = s.retiredNodes)
    (hstarted : t.started = s.started) (hfrom : t.fromPosition = s.fromPosition) : Frozen s t :=
  ⟨fun i n _ hn hclosed _ => (hview i ⟨n, hn, hclosed⟩).trans hn, hretired.ge, fun h => ⟨hstarted.trans h, hfrom⟩⟩

theorem Frozen.of_nodes (hnodes : t.nodes = s.nodes) (hretired : t.retiredNodes = s.retiredNodes)
    (hstarted : t.started = s.started) (hfrom : t.fromPosition = s.fromPosition) : Frozen s t :=
  .of_view (fun _ _ => congrFun (view_eq_of_map (congrArg _ hnodes)) _) hretired hstarted hfrom

theorem Frozen.refl (s : Search F) : Frozen s s := .of_nodes rfl rfl rfl rfl

theorem Frozen.trans {m : Search F} (h : Frozen s m) (h' : Frozen m t) : Frozen s t := by
  refine ⟨fun i n hi hn hclosed hretired => ?_, h.retired.trans h'.retired, fun hs => ?_⟩
  · have hfirst := h.retired
    have hsecond := h'.retired
    exact h'.closed i n hi (h.closed i n hi hn hclosed (by omega)) hclosed (by omega)
  · obtain ⟨hm, hfrom⟩ := h.started hs
    obtain ⟨ht, hfrom'⟩ := h'.started hm
    exact ⟨ht, hfrom'.trans hfrom⟩

/-- One part of a call after another. -/
def Advances (ops : FloatOps F) (nodeLimit edgeLimit : ℕ)
    (log : Probe.Transcript (SurfaceQuery F) SurfaceQuery.Answer) (s t : Search F) : Prop :=
  Sound ops nodeLimit edgeLimit log t ∧ Frozen s t

theorem sound_initial (fineTurnsEnabled : Bool) :
    Sound ops nodeLimit edgeLimit log (.initial ops fineTurnsEnabled nodeLimit edgeLimit) := by
  refine ⟨⟨rfl, rfl⟩, Nat.zero_le _, Nat.zero_le _, Nat.zero_le _, fun _ => rfl, ?_, fun _ => ⟨⟨rfl, rfl, rfl, rfl, rfl⟩, ?_⟩,
    ?_, ?_, ?_⟩ <;> intro h <;> contradiction

/-- The part of the invariant that the transcript is about can be read in a longer one, while nothing is walked. -/
theorem Sound.append (h : Sound ops nodeLimit edgeLimit log s) (hidle : s.edgeActive = false)
    (log' : Probe.Transcript (SurfaceQuery F) SurfaceQuery.Answer) : Sound ops nodeLimit edgeLimit (log ++ log') s := by
  refine ⟨h.limits, h.nodes, h.edges, h.direction, h.unpublished, h.idle, h.blank,
    fun hs => (h.graph hs).append log', fun hactive => ?_, fun hcomplete => ?_⟩
  · rw [hidle] at hactive
    contradiction
  · obtain ⟨i, hcurrent, hroute, hremaining, hgoal⟩ := h.goal hcomplete
    exact ⟨i, hcurrent, hroute, hremaining, List.mem_append_left _ hgoal⟩

theorem Sound.reject (h : Sound ops nodeLimit edgeLimit log s)
    (log' : Probe.Transcript (SurfaceQuery F) SurfaceQuery.Answer) (reason : SurfaceFailure) :
    Advances ops nodeLimit edgeLimit (log ++ log') s (s.reject reason) := by
  refine ⟨⟨h.limits, h.nodes, h.edges, h.direction, fun _ => rfl, ?_, fun hs => ⟨?_, ?_⟩, fun hs => ?_,
    ?_, ?_⟩, .of_nodes rfl rfl rfl rfl⟩
  · intro hactive
    contradiction
  · obtain ⟨hnodes, hopen, hindex, hcurrent, hretired⟩ := (h.blank hs).1
    exact ⟨hnodes, hopen, hindex, hcurrent, hretired⟩
  · intro hcomplete
    contradiction
  · exact ((h.graph hs).append log').congr rfl rfl rfl rfl rfl rfl
  · intro hactive
    contradiction
  · intro hcomplete
    contradiction


/-! ### Choosing an edge -/

/-- A node that an edge may improve waits. -/
theorem offerEdge_existing (hgraph : Graph ops log s) {stride : ℕ} {direction : ℤ × ℤ} {offer : EdgeOffer F}
    (h : offerEdge ops request s i stride direction = some offer) (hj : offer.existing = some j) : s.IsWaiting j := by
  unfold offerEdge at h
  extract_lets source current coarse x y spacing target existing lowerCost at h
  split at h
  · contradiction
  split at h
  · contradiction
  next hgain =>
    obtain rfl := Option.some.inj h
    dsimp only at hj
    rw [hj, Option.any_some, Bool.or_eq_true, not_or] at hgain
    obtain ⟨n, hn⟩ := exists_view (hgraph.index _ j hj)
    have hclosed : (s.node ops j).forget.closed = n.closed := congrArg Node.closed (node_of_view ops hn)
    exact ⟨n, hn, hclosed.symm.trans (by simpa using hgain.2 : (s.node ops j).closed = false ∧ _).1⟩

variable (request) in
theorem nextEdge_advances (h : Sound ops nodeLimit edgeLimit log s) (hidle : s.edgeActive = false)
    (hpending : Pending s) (hstarted : s.started = true) (hcurrent : s.current = some i) :
    Advances ops nodeLimit edgeLimit log s (nextEdge ops request i 9 s) := by
  have hat : ∀ c : Cursor, c.nextDirection ≤ 8 → Sound ops nodeLimit edgeLimit log (s.at c) := by
    intro c hc
    refine ⟨h.limits, h.nodes, h.edges, hc, h.unpublished, h.idle, fun hs => ?_,
      fun hs => (h.graph hs).congr rfl rfl rfl rfl rfl rfl, fun hactive => ?_, fun hcomplete => ?_⟩
    · exact absurd (hs.symm.trans hstarted) Bool.false_ne_true
    · exact absurd (hidle.symm.trans hactive) Bool.false_ne_true
    · simp [Search.at, hpending] at hcomplete
  obtain ⟨c, hc, ⟨heq, -⟩ | heq | ⟨hlimit, stride, offer, direction, hoffer, heq⟩⟩ :=
    nextEdge_cases ops request i 9 s h.direction
  · rw [heq]
    exact ⟨hat c hc, .of_nodes rfl rfl rfl rfl⟩
  · rw [heq]
    have hreject := (hat c hc).reject [] .surfaceDetourEdgeLimit
    rw [List.append_nil] at hreject
    exact ⟨hreject.1, .of_nodes rfl rfl rfl rfl⟩
  · rw [heq]
    have hgraph := (hat c hc).graph hstarted
    have htaken : Graph ops log ((s.at c).take ops i stride offer) := hgraph.congr rfl rfl rfl rfl rfl rfl
    have hedges := h.edges
    have hlimits := h.limits
    have hexisting : ∀ j, offer.existing = some j → (s.at c).IsWaiting j :=
      fun j hj => offerEdge_existing hgraph hoffer hj
    refine ⟨⟨h.limits, h.nodes, ?_, hc, h.unpublished, fun _ => ⟨hpending, hstarted⟩, fun hs => ?_, fun _ => htaken,
      fun _ => ⟨i, rfl, hcurrent, rfl, hexisting, [], .nil _, List.nil_suffix⟩,
      fun hcomplete => ?_⟩, .of_nodes rfl rfl rfl rfl⟩
    · change s.edgeAttempts + 1 ≤ edgeLimit
      omega
    · exact absurd (hs.symm.trans hstarted) Bool.false_ne_true
    · simp [Search.take, Search.at, hpending] at hcomplete

theorem readBack_published (s : Search F) (route : List (ActionPosition F)) (state : Status) (fuel i : ℕ) :
    readBack ops { s with route, state } fuel i = readBack ops s fuel i := by
  induction fuel generalizing i with
  | zero => rfl
  | succ fuel ih =>
    rw [readBack, readBack]
    simp only [ih]
    rfl

theorem closes_sound {m : Search F} (h : Sound ops nodeLimit edgeLimit log s) (hidle : s.edgeActive = false)
    (hpending : Pending s) (hstarted : s.started = true) (hcloses : Closes s m i) :
    Sound ops nodeLimit edgeLimit log m := by
  have hlength := hcloses.length
  obtain ⟨nodes, openNodes, hframe⟩ := hcloses.frame
  refine ⟨?_, ?_, ?_, ?_, fun _ => ?_, fun hactive => ?_, fun hs => ?_, fun _ => (h.graph hstarted).close hcloses,
    fun hactive => ?_, fun hcomplete => ?_⟩
  · rw [hframe]
    exact h.limits
  · have hretired : m.retiredNodes = s.retiredNodes := by rw [hframe]; rfl
    have hnodes := h.nodes
    rw [Search.totalNodes] at hnodes ⊢
    omega
  · rw [hframe]
    exact h.edges
  · rw [hframe]
    exact Nat.zero_le _
  · rw [hframe]
    exact h.unpublished (by simp [hpending])
  · rw [hframe] at hactive
    exact absurd (hidle.symm.trans hactive) Bool.false_ne_true
  · rw [hframe] at hs
    exact absurd (hs.symm.trans hstarted) Bool.false_ne_true
  · rw [hframe] at hactive
    exact absurd (hidle.symm.trans hactive) Bool.false_ne_true
  · rw [hframe] at hcomplete
    simp [closeNode, Search.setNode, hpending] at hcomplete

/-- The first of the heap is closed; at the goal its route is published. -/
theorem expand_advances (h : Sound ops nodeLimit edgeLimit log s) (hidle : s.edgeActive = false) (hpending : Pending s)
    (hstarted : s.started = true) (hopen : s.openNodes ≠ []) (hrun : (expand ops request s).Runs log' t) :
    Advances ops nodeLimit edgeLimit (log ++ log') s t := by
  obtain ⟨first, rest, hfirst⟩ := List.exists_cons_of_ne_nil hopen
  have hgraph := h.graph hstarted
  obtain ⟨hpop, hcloses⟩ := expand_closes ops hgraph.heaped hfirst
  have hsound := closes_sound h hidle hpending hstarted hcloses
  unfold expand at hrun
  dsimp only at hrun
  rw [hpop] at hrun
  generalize closeNode (pop ops s).2 first = m at hrun hcloses hsound
  have hwaiting := (hgraph.waiting first).mp (by simp [hfirst])
  have hview : ∀ j, s.IsClosed j → m.view j = s.view j := by
    intro j hj
    rw [hcloses.view, if_neg]
    rintro rfl
    exact not_closed_of_waiting hwaiting hj
  obtain ⟨nodes, openNodes, hframe⟩ := hcloses.frame
  have hfrozen : Frozen s m := .of_view hview (by rw [hframe]; rfl) (by rw [hframe]; rfl) (by rw [hframe]; rfl)
  have hidlem : m.edgeActive = false := by rw [hframe]; exact hidle
  have hstartedm : m.started = true := by rw [hframe]; exact hstarted
  have hpendingm : Pending m := by rw [hframe]; exact hpending
  have hcurrent : m.current = some first := by rw [hframe]; rfl
  split at hrun
  next hzero =>
    obtain ⟨front, back, arrived, rfl, hasked, hrun⟩ := Probe.runs_bind.mp hrun
    cases arrived with
    | false =>
      obtain ⟨rfl, rfl⟩ := Probe.runs_pure.mp hrun
      exact ⟨hsound.append hidlem _, hfrozen⟩
    | true =>
      obtain ⟨rfl, rfl⟩ := Probe.runs_pure.mp hrun
      obtain ⟨answer, asked, rfl, hdone⟩ := Probe.runs_ask.mp hasked
      obtain ⟨rfl, rfl⟩ := Probe.runs_pure.mp hdone
      have hm := hsound.append hidlem [⟨.isGoal (m.node ops first).position, (true : Bool)⟩]
      refine ⟨⟨hm.limits, hm.nodes, hm.edges, hm.direction, fun hnot => absurd rfl hnot, fun hactive => ?_,
        fun hs => ?_, fun _ => (hm.graph hstartedm).congr rfl rfl rfl rfl rfl rfl, fun hactive => ?_,
        fun _ => ⟨first, hcurrent, ?_, hzero, List.mem_append_right _ (List.mem_singleton_self _)⟩⟩,
        hfrozen.trans (.of_nodes rfl rfl rfl rfl)⟩
      · exact absurd (hidlem.symm.trans hactive) Bool.false_ne_true
      · exact absurd (hs.symm.trans hstartedm) Bool.false_ne_true
      · exact absurd (hidlem.symm.trans hactive) Bool.false_ne_true
      · exact (congrArg List.reverse (readBack_published m _ _ _ _)).symm
  next =>
    obtain ⟨rfl, rfl⟩ := Probe.runs_pure.mp hrun
    rw [List.append_nil]
    obtain ⟨hnext, hfrozen'⟩ := nextEdge_advances request hsound hidlem hpendingm hstartedm hcurrent
    exact ⟨hnext, hfrozen.trans hfrozen'⟩

theorem refine_advances (h : Sound ops nodeLimit edgeLimit log s) (hpending : Pending s) (hstarted : s.started = true) :
    Advances ops nodeLimit edgeLimit log s (refine ops s) ∧ (refine ops s).openNodes ≠ [] := by
  have hgraph := h.graph hstarted
  obtain ⟨o, ho, -⟩ := hgraph.origin
  have hlength := view_lt ho
  obtain ⟨hnodes, -, hperm⟩ := refine_enqueued ops s
  have hone : (refine ops s).nodes.length = 1 := by
    have hlengths := congrArg List.length hnodes
    rw [List.length_map, List.length_map] at hlengths
    exact hlengths
  obtain ⟨nodes, openNodes, hqueue⟩ := queue_eq ops (restart ops s) 0
  have hrefine : refine ops s = { restart ops s with nodes, openNodes } := hqueue
  have hretired : (refine ops s).retiredNodes = s.retiredNodes + (s.nodes.length - 1) := by
    rw [hrefine]
    rfl
  refine ⟨⟨⟨?_, ?_, ?_, ?_, fun _ => ?_, fun hactive => ?_, fun hs => ?_, fun _ => refine_graph hgraph, fun hactive => ?_,
    fun hcomplete => ?_⟩, fun i n hi hn _ hsame => ?_, ?_, fun _ => ?_⟩, ?_⟩
  · rw [hrefine]
    exact h.limits
  · have htotal := h.nodes
    rw [Search.totalNodes] at htotal ⊢
    omega
  · rw [hrefine]
    exact h.edges
  · rw [hrefine]
    exact Nat.zero_le _
  · rw [hrefine]
    exact h.unpublished (by simp [hpending])
  · rw [hrefine] at hactive
    contradiction
  · rw [hrefine] at hs
    exact absurd (hs.symm.trans hstarted) Bool.false_ne_true
  · rw [hrefine] at hactive
    contradiction
  · rw [hrefine] at hcomplete
    simp [restart, hpending] at hcomplete
  · have hlt := view_lt hn
    omega
  · omega
  · rw [hrefine]
    exact ⟨hstarted, rfl⟩
  · rintro hempty
    rw [hempty] at hperm
    simpa using hperm.length_eq

theorem pickNode_advances (h : Sound ops nodeLimit edgeLimit log s) (hidle : s.edgeActive = false)
    (hpending : Pending s) (hstarted : s.started = true) (hrun : (pickNode ops request s).Runs log' t) :
    Advances ops nodeLimit edgeLimit (log ++ log') s t := by
  unfold pickNode at hrun
  split at hrun
  · split at hrun
    · obtain ⟨rfl, rfl⟩ := Probe.runs_pure.mp hrun
      exact h.reject _ _
    split at hrun
    · obtain ⟨rfl, rfl⟩ := Probe.runs_pure.mp hrun
      exact h.reject _ _
    split at hrun
    · obtain ⟨rfl, rfl⟩ := Probe.runs_pure.mp hrun
      exact h.reject _ _
    split at hrun
    · obtain ⟨rfl, rfl⟩ := Probe.runs_pure.mp hrun
      exact h.reject _ _
    · obtain ⟨⟨hrefined, hfrozen⟩, hopen⟩ := refine_advances h hpending hstarted
      obtain ⟨nodes, openNodes, hqueue⟩ := queue_eq ops (restart ops s) 0
      have hparts : (refine ops s).edgeActive = false ∧ Pending (refine ops s) ∧ (refine ops s).started = true := by
        rw [refine, hqueue]
        exact ⟨rfl, hpending, hstarted⟩
      obtain ⟨hsound, hfrozen'⟩ := expand_advances hrefined hparts.1 hparts.2.1 hparts.2.2 hopen hrun
      exact ⟨hsound, hfrozen.trans hfrozen'⟩
  next hopen => exact expand_advances h hidle hpending hstarted (by simpa using hopen) hrun

theorem select_advances (h : Sound ops nodeLimit edgeLimit log s) (hidle : s.edgeActive = false)
    (hpending : Pending s) (hstarted : s.started = true) (hrun : (select ops request s).Runs log' t) :
    Advances ops nodeLimit edgeLimit (log ++ log') s t := by
  unfold select at hrun
  split at hrun
  · exact pickNode_advances h hidle hpending hstarted hrun
  next i hcurrent =>
    split at hrun
    · exact pickNode_advances h hidle hpending hstarted hrun
    · obtain ⟨rfl, rfl⟩ := Probe.runs_pure.mp hrun
      rw [List.append_nil]
      exact nextEdge_advances _ h hidle hpending hstarted hcurrent

/-! ### The end of an edge -/

/-- A node that is reached and queued keeps the rest. -/
theorem reach_advances {u : Search F} {n : Node F} (h : Sound ops nodeLimit edgeLimit log s)
    (hidle : s.edgeActive = false) (hpending : Pending s) (hstarted : s.started = true)
    (hframe : ∃ nodes openNodes index, u = { s with nodes, openNodes, index }) (hreaches : Reaches s u j n)
    (hj : ¬s.IsClosed j) (hgraph : Graph ops log u) (htotal : s.retiredNodes + max s.nodes.length (j + 1) ≤ nodeLimit) :
    Advances ops nodeLimit edgeLimit log s u := by
  have hlength := hreaches.length_le
  have hkept : ∀ k, s.IsClosed k → u.view k = s.view k := by
    intro k hk
    rw [hreaches.view, if_neg]
    rintro rfl
    exact hj hk
  obtain ⟨nodes, openNodes, index, rfl⟩ := hframe
  refine ⟨⟨h.limits, ?_, h.edges, h.direction, h.unpublished, h.idle, fun hs => ?_, fun _ => hgraph, fun hactive => ?_,
    fun hcomplete => ?_⟩, .of_view hkept rfl rfl rfl⟩
  · exact le_trans (Nat.add_le_add_left hlength _) htotal
  · exact absurd (hs.symm.trans hstarted) Bool.false_ne_true
  · exact absurd (hidle.symm.trans hactive) Bool.false_ne_true
  · simp [hpending] at hcomplete

variable (request) in
/-- A completed edge that is taken keeps the graph. -/
theorem acceptEdge_advances (h : Sound ops nodeLimit edgeLimit log s) (hidle : s.edgeActive = false)
    (hpending : Pending s) (hstarted : s.started = true) {m : Node F} (hfirst : s.IsClosed 0) (hm : s.view i = some m)
    (hclosed : m.closed = true) (hexisting : ∀ j, s.edgeExisting = some j → s.IsWaiting j)
    (hwalked : ∀ cost, cost = ops.add m.cost s.edge.length → ops.lt (ops.lit 6) s.edge.length = false →
      ops.lt (maxRouteLength ops) cost = false →
      Walked ops log m.position (s.edge.route.getLastD s.edgeTarget) m.cost cost) :
    Advances ops nodeLimit edgeLimit log s (acceptEdge ops request i s) := by
  have hgraph := h.graph hstarted
  have hcost : (s.node ops i).forget.cost = m.cost := congrArg Node.cost (node_of_view ops hm)
  have htotal := h.nodes
  rw [Search.totalNodes] at htotal
  unfold acceptEdge
  extract_lets endpoint cost
  split
  · refine ⟨⟨h.limits, h.nodes, h.edges, h.direction, h.unpublished, h.idle, fun hs => ?_,
      fun hs => (h.graph hs).congr rfl rfl rfl rfl rfl rfl, fun hactive => ?_, fun hgoal => ?_⟩, .of_nodes rfl rfl rfl rfl⟩
    · exact absurd (hs.symm.trans hstarted) Bool.false_ne_true
    · exact absurd (hidle.symm.trans hactive) Bool.false_ne_true
    · simp [hpending] at hgoal
  next hsix =>
    split
    · exact ⟨h, .refl s⟩
    next hlong =>
      have hedge : Walked ops log m.position endpoint m.cost cost :=
        hwalked cost (by rw [← hcost]; rfl) (by simpa using hsix) (by simpa using hlong)
      split
      next j hj =>
        split
        · exact ⟨h, .refl s⟩
        · obtain ⟨n, hn, hwaiting⟩ := hexisting j hj
          have hreaches := improveNode_reaches i endpoint cost hgraph hn hwaiting
          have hopen := not_closed_of_waiting ⟨n, hn, hwaiting⟩
          obtain ⟨nodes, openNodes, hqueue⟩ := queue_eq ops (improveNode s j i endpoint cost) j
          refine reach_advances h hidle hpending hstarted ⟨nodes, openNodes, s.index, hqueue⟩ hreaches hopen
            (hgraph.reach hreaches hopen hfirst hwaiting hm ⟨rfl, hclosed, hedge⟩) ?_
          have hlt := view_lt hn
          omega
      next =>
        split
        · have hreject := h.reject [] .surfaceDetourNodeLimit
          rwa [List.append_nil] at hreject
        next hroom =>
          have hreaches := addNode_reaches request i endpoint cost hgraph
          have hopen : ¬s.IsClosed s.nodes.length := fun ⟨n, hn, _⟩ => lt_irrefl _ (view_lt hn)
          obtain ⟨nodes, openNodes, hqueue⟩ := queue_eq ops (addNode ops request s i endpoint cost) s.nodes.length
          refine reach_advances h hidle hpending hstarted ⟨nodes, openNodes, _, hqueue⟩ hreaches hopen
            (hgraph.reach hreaches hopen hfirst rfl hm ⟨rfl, hclosed, hedge⟩) ?_
          rw [Search.totalNodes, h.limits.1] at hroom
          omega

/-- A walk ends, and nothing is walked. -/
theorem Sound.settle (h : Sound ops nodeLimit edgeLimit log s) (hpending : Pending s) (hstarted : s.started = true)
    (edge : LivingSurfaceCorridor.Search F) (log' : Probe.Transcript (SurfaceQuery F) SurfaceQuery.Answer) :
    Sound ops nodeLimit edgeLimit (log ++ log')
      { s with edge, edgeActive := false, lastEdgeFailure := edge.failure } := by
  refine ⟨h.limits, h.nodes, h.edges, h.direction, h.unpublished, fun hnot => ?_, fun hs => ?_,
    fun _ => ((h.graph hstarted).append log').congr rfl rfl rfl rfl rfl rfl, fun hnot => ?_, fun hcomplete => ?_⟩
  · contradiction
  · exact absurd (hs.symm.trans hstarted) Bool.false_ne_true
  · contradiction
  · simp [hpending] at hcomplete

/-- A call of the walk of an edge, and what follows. -/
theorem walkEdge_advances {budget : UInt32} (h : Sound ops nodeLimit edgeLimit log s) (hactive : s.edgeActive = true)
    (hrun : (walkEdge ops request budget s).Runs log' t) : Advances ops nodeLimit edgeLimit (log ++ log') s t := by
  obtain ⟨hpending, hstarted⟩ := h.idle hactive
  obtain ⟨i, hwalk⟩ := h.walk hactive
  obtain ⟨front, back, edge, rfl, hadvance, hlast⟩ := Probe.runs_bind.mp hrun
  obtain ⟨rfl, rfl⟩ := Probe.runs_pure.mp hlast
  have hedgeFrom : s.edgeFrom.getD 0 = i := by rw [hwalk.source, Option.getD_some]
  rw [hedgeFrom] at hadvance ⊢
  rw [List.append_nil]
  obtain ⟨calls, hcalls, before, hbefore⟩ := hwalk.calls
  have hgraph := (h.graph hstarted).append front
  -- The calls of the walk, with this one, end the transcript.
  obtain ⟨calls', hcalls', hsuffix⟩ : ∃ calls', LivingSurfaceCorridor.Calls ops (edgeRequest ops s i) (.initial ops)
      calls' edge ∧ Probe.transcript calls' <:+ log ++ front := by
    refine ⟨_, hcalls.append (.cons hwalk.pending hadvance (.nil _)), before, ?_⟩
    rw [Probe.transcript_append, Probe.transcript_cons, Probe.transcript_nil, List.append_nil, ← List.append_assoc,
      hbefore]
  have hidle := h.settle hpending hstarted edge front
  unfold settleEdge
  dsimp only
  split
  next hstate =>
    refine ⟨⟨h.limits, h.nodes, h.edges, h.direction, h.unpublished, h.idle, fun hs => ?_,
      fun _ => hgraph.congr rfl rfl rfl rfl rfl rfl,
      fun _ => ⟨i, hwalk.source, hwalk.current, hstate, hwalk.existing, calls', hcalls', hsuffix⟩, fun hcomplete => ?_⟩,
      .of_nodes rfl rfl rfl rfl⟩
    · exact absurd (hs.symm.trans hstarted) Bool.false_ne_true
    · simp [hpending] at hcomplete
  next =>
    unfold rejectEdge
    split
    · refine ⟨⟨h.limits, h.nodes, h.edges, (Nat.sub_le _ _).trans h.direction, h.unpublished, fun hnot => ?_,
        fun hs => ?_, fun _ => hgraph.congr rfl rfl rfl rfl rfl rfl, fun hnot => ?_, fun hcomplete => ?_⟩,
        .of_nodes rfl rfl rfl rfl⟩
      · contradiction
      · exact absurd (hs.symm.trans hstarted) Bool.false_ne_true
      · contradiction
      · simp [hpending] at hcomplete
    · exact ⟨hidle, .of_nodes rfl rfl rfl rfl⟩
  next hstate =>
    obtain ⟨⟨m, hm, hclosed⟩, hfirst⟩ := (h.graph hstarted).current i hwalk.current
    have hposition : (s.node ops i).forget.position = m.position := congrArg Node.position (node_of_view ops hm)
    obtain ⟨hsource, hlength⟩ := LivingSurfaceCorridor.calls_route hcalls' hstate
    obtain ⟨point, route, hroute⟩ : ∃ point route, edge.route = point :: route := by
      cases hroute : edge.route with
      | nil => simp [hroute] at hsource
      | cons point route => exact ⟨point, route, rfl⟩
    have hend : edge.route.getLast? = some (edge.route.getLastD s.edgeTarget) := by
      rw [hroute, List.getLast?_cons, List.getLastD_cons, List.getLastD_eq_getLast?]
    obtain ⟨hsound, hfrozen⟩ := acceptEdge_advances request hidle rfl hpending hstarted hfirst hm hclosed
      hwalk.existing fun cost hcost hsix hlong => by
        have hfrom : edgeRequest ops s i = ⟨m.position, s.edgeTarget, true⟩ := by
          rw [edgeRequest, ← hposition]
          rfl
        rw [hfrom] at hcalls' hsource
        exact ⟨s.edgeTarget, calls', edge, hcalls', hsuffix.isInfix, hstate, hsource, hend, hlength, hsix, hcost, hlong⟩
    have hsame : Frozen s { s with edge, edgeActive := false, lastEdgeFailure := edge.failure } :=
      .of_nodes rfl rfl rfl rfl
    exact ⟨hsound, hsame.trans hfrozen⟩

/-! ### Calls -/

theorem search_advances {budget : UInt32} (h : Sound ops nodeLimit edgeLimit log s) (hpending : Pending s)
    (hstarted : s.started = true) (hrun : (search ops request budget s).Runs log' t) :
    Advances ops nodeLimit edgeLimit (log ++ log') s t := by
  obtain ⟨front, back, m, rfl, hfirst, hrest⟩ := Probe.runs_bind.mp hrun
  cases hactive : s.edgeActive with
  | true =>
    rw [if_pos hactive] at hfirst
    obtain ⟨rfl, rfl⟩ := Probe.runs_pure.mp hfirst
    rw [if_pos hactive] at hrest
    exact walkEdge_advances h hactive hrest
  | false =>
    rw [if_neg (by simp [hactive])] at hfirst
    obtain ⟨hm, hfrozen⟩ := select_advances h hactive hpending hstarted hfirst
    rw [← List.append_assoc]
    cases hwalk : m.edgeActive with
    | true =>
      rw [if_pos hwalk] at hrest
      obtain ⟨ht, hfrozen'⟩ := walkEdge_advances hm hwalk hrest
      exact ⟨ht, hfrozen.trans hfrozen'⟩
    | false =>
      rw [if_neg (by simp [hwalk])] at hrest
      obtain ⟨rfl, rfl⟩ := Probe.runs_pure.mp hrest
      rw [List.append_nil]
      exact ⟨hm, hfrozen⟩

theorem begin_advances (cell : ℤ × ℤ) (h : Sound ops nodeLimit edgeLimit log s) (hidle : s.edgeActive = false)
    (hnew : s.started = false) (hpending : Pending s) (hbounds : outOfBounds ops request s = false) :
    Advances ops nodeLimit edgeLimit log s (begin ops request s cell) := by
  obtain ⟨⟨hnodes, hopen, hindex, hcurrent, hretired⟩, -⟩ := h.blank hnew
  obtain ⟨hkept, -, -⟩ := begin_enqueued ops request cell hnodes hopen
  have hone : (begin ops request s cell).nodes.length = 1 := by
    have hlengths := congrArg List.length hkept
    rw [List.length_map, List.length_map] at hlengths
    refine hlengths.trans ?_
    change (s.nodes ++ [_]).length = 1
    rw [hnodes]
    rfl
  have hgraph := begin_graph ops request log cell hnodes hopen hindex hcurrent
  obtain ⟨nodes, openNodes, hqueue⟩ := queue_eq ops (admitStart ops request s cell) 0
  have hbegin : begin ops request s cell = { admitStart ops request s cell with nodes, openNodes, failure := .none } := by
    rw [begin, hqueue]
  have hlimit : s.nodeLimit ≠ 0 := by
    intro hzero
    simp [outOfBounds, hzero] at hbounds
  refine ⟨⟨?_, ?_, ?_, ?_, fun _ => ?_, fun hactive => ?_, fun hs => ?_, fun _ => hgraph, fun hactive => ?_,
    fun hcomplete => ?_⟩, fun i n hi hn => ?_, ?_, fun hs => ?_⟩
  · rw [hbegin]
    exact h.limits
  · have hretired' : (begin ops request s cell).retiredNodes = s.retiredNodes := by
      rw [hbegin]
      rfl
    have hlimits := h.limits
    rw [Search.totalNodes]
    omega
  · rw [hbegin]
    exact h.edges
  · rw [hbegin]
    exact h.direction
  · rw [hbegin]
    exact h.unpublished (by simp [hpending])
  · rw [hbegin] at hactive
    exact absurd (hidle.symm.trans hactive) Bool.false_ne_true
  · rw [hbegin] at hs
    contradiction
  · rw [hbegin] at hactive
    exact absurd (hidle.symm.trans hactive) Bool.false_ne_true
  · rw [hbegin] at hcomplete
    simp [admitStart, hpending] at hcomplete
  · have hlt := view_lt hn
    rw [hnodes] at hlt
    contradiction
  · rw [hbegin]
    exact le_rfl
  · exact absurd (hnew.symm.trans hs) Bool.false_ne_true

/-- A call keeps the invariant, with any request and any budgets. -/
theorem advance_advances {samples edges : UInt32} (h : Sound ops nodeLimit edgeLimit log s)
    (hrun : (advance ops request samples edges s).Runs log' t) : Advances ops nodeLimit edgeLimit (log ++ log') s t := by
  unfold advance at hrun
  split at hrun
  · obtain ⟨rfl, rfl⟩ := Probe.runs_pure.mp hrun
    exact h.reject _ _
  split at hrun
  · obtain ⟨rfl, rfl⟩ := Probe.runs_pure.mp hrun
    rw [List.append_nil]
    exact ⟨h, .refl _⟩
  next hlive =>
    have hpending : Pending s := by
      simp only [ne_eq, Bool.or_eq_true, decide_eq_true_eq, not_or, not_not] at hlive
      exact hlive.1.1
    dsimp only at hrun
    split at hrun
    next hstarted => exact search_advances h hpending hstarted hrun
    next hnew =>
      replace hnew : s.started = false := by simpa using hnew
      have hidle : s.edgeActive = false := by
        cases hactive : s.edgeActive with
        | false => rfl
        | true => exact absurd (hnew.symm.trans (h.idle hactive).2) Bool.false_ne_true
      obtain ⟨front, back, m, rfl, hfirst, hrest⟩ := Probe.runs_bind.mp hrun
      rw [← List.append_assoc]
      obtain ⟨reason, rfl⟩ | ⟨hbounds, cell, rfl⟩ := start_cases hfirst
      · rw [if_pos (by simp [Search.reject])] at hrest
        obtain ⟨rfl, rfl⟩ := Probe.runs_pure.mp hrest
        rw [List.append_nil]
        exact h.reject _ _
      · obtain ⟨hbegin, hfrozen⟩ := begin_advances cell (h.append hidle front) hidle hnew hpending hbounds
        obtain ⟨hstate, hstarted⟩ := begin_state ops request (s := s) cell
        split at hrest
        · obtain ⟨rfl, rfl⟩ := Probe.runs_pure.mp hrest
          rw [List.append_nil]
          exact ⟨hbegin, hfrozen⟩
        · obtain ⟨ht, hfrozen'⟩ := search_advances hbegin (hstate.trans hpending) hstarted hrest
          exact ⟨ht, hfrozen.trans hfrozen'⟩

/-! ### Routes -/

/-- One node is the parent of the next, and the way between them was walked. -/
structure Joined (ops : FloatOps F) (log : Probe.Transcript (SurfaceQuery F) SurfaceQuery.Answer) (s : Search F)
    (i j : ℕ) : Prop where
  parent : (s.node ops j).parent = some i
  walked : Walked ops log (s.node ops i).position (s.node ops j).position (s.node ops i).cost (s.node ops j).cost

/-- A chain of nodes from the origin. -/
structure Joins (ops : FloatOps F) (log : Probe.Transcript (SurfaceQuery F) SurfaceQuery.Answer) (s : Search F)
    (chain : List ℕ) (i : ℕ) : Prop where
  origin : chain.head? = some 0
  last : chain.getLast? = some i
  joined : chain.IsChain (Joined ops log s)
  acyclic : chain.Nodup

/-- What is read back from a closed node is a chain; its ranks rise, so it is no longer than the fuel. -/
theorem Graph.joins (h : Graph ops log s) {rank : ℕ → ℕ} (hr : Ranked s rank) (fuel i : ℕ) (hi : s.IsClosed i)
    (hfuel : rank i < fuel) : ∃ chain, Joins ops log s chain i ∧ (∀ j ∈ chain, rank j ≤ rank i) ∧
      chain.map (fun j => (s.node ops j).position) = s.fromPosition :: (readBack ops s fuel i).reverse := by
  induction fuel generalizing i with
  | zero => exact absurd hfuel (Nat.not_lt_zero _)
  | succ fuel ih =>
    obtain ⟨n, hn, hclosed⟩ := hi
    have hnode := node_of_view ops hn
    obtain rfl | hne := eq_or_ne i 0
    · obtain ⟨o, ho, hparent, -, hposition⟩ := h.origin
      obtain rfl := Option.some.inj (hn.symm.trans ho)
      have hnone : (s.node ops 0).forget.parent = none := (congrArg Node.parent hnode).trans hparent
      have hplace : (s.node ops 0).forget.position = s.fromPosition := (congrArg Node.position hnode).trans hposition
      refine ⟨[0], ⟨rfl, rfl, .singleton 0, List.nodup_singleton 0⟩, by simp, ?_⟩
      rw [readBack, show (s.node ops 0).parent = none from hnone]
      exact congrArg (fun position => [position]) hplace
    · obtain ⟨p, m, hp, hparent, hm, hwalked⟩ := h.links i n hn hne
      have hsome : (s.node ops i).forget.parent = some p := (congrArg Node.parent hnode).trans hparent
      have hlower := hr.parent i n p hn hclosed hparent
      obtain ⟨chain, ⟨horigin, hlast, hjoined, hacyclic⟩, hranks, hpositions⟩ := ih p ⟨m, hp, hm⟩ (by omega)
      have hnext : Joined ops log s p i := by
        refine ⟨hsome, ?_⟩
        rw [← hnode, ← node_of_view ops hp] at hwalked
        exact hwalked
      have hnew : i ∉ chain := by
        intro hmem
        have hrank := hranks i hmem
        omega
      refine ⟨chain ++ [i], ⟨?_, List.getLast?_concat, ?_, ?_⟩, fun j hj => ?_, ?_⟩
      · rw [List.head?_append, horigin, Option.some_or]
      · refine List.isChain_append.mpr ⟨hjoined, .singleton i, fun j hj k hk => ?_⟩
        rw [hlast, Option.mem_some_iff] at hj
        rw [List.head?_cons, Option.mem_some_iff] at hk
        exact hj ▸ hk ▸ hnext
      · exact List.nodup_append.mpr ⟨hacyclic, List.nodup_singleton i, fun j hj k hk hjk =>
          hnew (List.mem_singleton.mp hk ▸ hjk ▸ hj)⟩
      · obtain hj | hj := List.mem_append.mp hj
        · exact (hranks j hj).trans hlower.le
        · rw [List.mem_singleton.mp hj]
      · rw [List.map_append, hpositions, readBack, show (s.node ops i).parent = some p from hsome, List.reverse_cons]
        rfl

/-- What a call is given. -/
structure Call (F : Type) where
  request : Request F
  budget : Budget

def Call.advance (ops : FloatOps F) (call : Call F) (s : Search F) : SurfaceProbe F (Search F) :=
  advanceBy ops call.request call.budget s

theorem sound_of_calls {fineTurnsEnabled : Bool}
    {calls : List (Call F × Probe.Transcript (SurfaceQuery F) SurfaceQuery.Answer)}
    (h : Probe.Steps (fun _ => True) (Call.advance ops) (.initial ops fineTurnsEnabled nodeLimit edgeLimit) calls s) :
    Sound ops nodeLimit edgeLimit (Probe.transcript calls) s :=
  h.invariant (P := Sound ops nodeLimit edgeLimit) (fun _ _ _ _ _ hs _ hrun => (advance_advances hs hrun).1) []
    (sound_initial fineTurnsEnabled)

theorem frozen_of_calls (hs : Sound ops nodeLimit edgeLimit log s)
    {calls : List (Call F × Probe.Transcript (SurfaceQuery F) SurfaceQuery.Answer)}
    (h : Probe.Steps (fun _ => True) (Call.advance ops) s calls t) :
    Advances ops nodeLimit edgeLimit (log ++ Probe.transcript calls) s t := by
  refine h.invariant (P := fun log m => Advances ops nodeLimit edgeLimit log s m)
    (fun log m call log' t hm _ hrun => ?_) log ⟨hs, .refl s⟩
  obtain ⟨ht, hfrozen⟩ := advance_advances hm.1 hrun
  exact ⟨ht, hm.2.trans hfrozen⟩

/-- What is published was walked from the origin to the goal, within the limits. A node that is closed keeps its
place, its cost and its parent until the coarse graph is retired, the origin for ever. -/
theorem routes_sound (ops : FloatOps F) (fineTurnsEnabled : Bool) (nodeLimit edgeLimit : ℕ)
    (calls calls' : List (Call F × Probe.Transcript (SurfaceQuery F) SurfaceQuery.Answer)) (s t : Search F)
    (h : Probe.Steps (fun _ => True) (Call.advance ops) (.initial ops fineTurnsEnabled nodeLimit edgeLimit) calls s)
    (h' : Probe.Steps (fun _ => True) (Call.advance ops) s calls' t) :
    s.totalNodes ≤ nodeLimit ∧ s.edgeAttempts ≤ edgeLimit ∧ (s.state ≠ .complete → s.route = []) ∧
      (s.state = .complete → ∃ chain i, Joins ops (Probe.transcript calls) s chain i ∧
        chain.map (fun j => (s.node ops j).position) = s.fromPosition :: s.route ∧
        (s.node ops 0).parent = none ∧ (s.node ops 0).cost = ops.lit 0 ∧
        (i = 0 ∨ ops.lt (maxRouteLength ops) (s.node ops i).cost = false) ∧
        ops.eq (s.node ops i).remaining (ops.lit 0) = true ∧
        (⟨.isGoal (s.node ops i).position, (true : Bool)⟩ : Σ q : SurfaceQuery F, q.Answer) ∈ Probe.transcript calls) ∧
      ∀ (i : ℕ) (n : Node F), s.nodes[i]? = some n → n.closed = true → i = 0 ∨ t.retiredNodes = s.retiredNodes →
        ∃ n', t.nodes[i]? = some n' ∧ n'.position = n.position ∧ n'.cost = n.cost ∧ n'.parent = n.parent := by
  have hs := sound_of_calls h
  obtain ⟨ht, hfrozen⟩ := frozen_of_calls hs h'
  refine ⟨hs.nodes, hs.edges, hs.unpublished, fun hcomplete => ?_, fun i n hn hclosed hkept => ?_⟩
  · have hstarted : s.started = true := by
      by_contra hnot
      exact (hs.blank (by simpa using hnot)).2 hcomplete
    have hgraph := hs.graph hstarted
    obtain ⟨i, hcurrent, hroute, hremaining, hgoal⟩ := hs.goal hcomplete
    obtain ⟨rank, hr⟩ := hgraph.ranked
    have hclosed := (hgraph.current i hcurrent).1
    obtain ⟨chain, hjoins, -, hpositions⟩ := hgraph.joins hr s.expanded i hclosed (hr.closed i hclosed)
    obtain ⟨o, ho, hparent, hcost, -⟩ := hgraph.origin
    have hparent' : (s.node ops 0).forget.parent = none := (congrArg Node.parent (node_of_view ops ho)).trans hparent
    have hcost' : (s.node ops 0).forget.cost = ops.lit 0 := (congrArg Node.cost (node_of_view ops ho)).trans hcost
    refine ⟨chain, i, hjoins, hroute ▸ hpositions, hparent', hcost', ?_, hremaining, hgoal⟩
    obtain rfl | hne := eq_or_ne i 0
    · exact .inl rfl
    · obtain ⟨n, hn, -⟩ := hclosed
      obtain ⟨p, m, -, hleads⟩ := hgraph.links i n hn hne
      have hsame : (s.node ops i).forget.cost = n.cost := congrArg Node.cost (node_of_view ops hn)
      exact .inr (hsame ▸ hleads.walked.within)
  · have hview : s.view i = some n.forget := by rw [Search.view, hn]; rfl
    have hsee : ∀ n' : Node F, t.view i = some n' → n'.position = n.position → n'.cost = n.cost →
        n'.parent = n.parent → ∃ n', t.nodes[i]? = some n' ∧ n'.position = n.position ∧ n'.cost = n.cost ∧
          n'.parent = n.parent := by
      intro n' hn' hposition hcost hparent
      obtain ⟨node, hnode, rfl⟩ := Option.map_eq_some_iff.mp hn'
      exact ⟨node, hnode, hposition, hcost, hparent⟩
    obtain rfl | hne := eq_or_ne i 0
    · have hstarted : s.started = true := by
        by_contra hnot
        have hnodes := (hs.blank (by simpa using hnot)).1.nodes
        rw [hnodes] at hn
        contradiction
      obtain ⟨ht', hfrom⟩ := hfrozen.started hstarted
      obtain ⟨o, ho, hparent, hcost, hposition⟩ := (hs.graph hstarted).origin
      obtain rfl := Option.some.inj (hview.symm.trans ho)
      obtain ⟨o', ho', hparent', hcost', hposition'⟩ := (ht.graph ht').origin
      exact hsee o' ho' (hposition'.trans (hfrom.trans hposition.symm)) (hcost'.trans hcost.symm)
        (hparent'.trans hparent.symm)
    · exact hsee n.forget (hfrozen.closed i _ hne hview hclosed (hkept.resolve_left hne)) rfl rfl rfl

/-- The search on the level floor, in calls of one sample. -/
def detourRun :=
  Probe.exec levelFloor (fun _ => True) (Call.advance axisFloats) (List.replicate 20 ⟨sampleRequest, ⟨1, 1⟩⟩)
    (.initial axisFloats false 512 2048)

theorem routes_sound_sample : detourRun.2.route = [⟨1, 5 / 2, 0, 0⟩] ∧ detourRun.2.totalNodes ≤ 512 ∧
    ∃ chain i, Joins axisFloats (Probe.transcript detourRun.1) detourRun.2 chain i := by
  have hrun : detourRun.2.state = .complete ∧ detourRun.2.route = [⟨1, 5 / 2, 0, 0⟩] := by decide +kernel
  obtain ⟨hnodes, -, -, hroute, -⟩ := routes_sound axisFloats false 512 2048 detourRun.1 [] detourRun.2 detourRun.2
    (Probe.steps_exec _ _ _ _ _) (.nil _)
  obtain ⟨chain, i, hjoins, -⟩ := hroute hrun.1
  exact ⟨hrun.2, hnodes, chain, i, hjoins⟩

end AIWorld.Agent.LivingSurfaceDetour
