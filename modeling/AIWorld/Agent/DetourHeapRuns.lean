import AIWorld.Agent.DetourOpenList

/-! The open list over whole runs. What a search does to its nodes is a sequence of few operations: a node is added
and queued, a waiting node becomes cheaper and is queued again, the first is taken and closed, or the graph starts
anew. All of them keep the list a heap of exactly the nodes that wait. -/

namespace AIWorld.Agent.LivingSurfaceDetour

open Lib Lib.HeapOrder

variable {F : Type} {ops : FloatOps F} {request : Request F} {s t m : Search F} {i nodeLimit edgeLimit : ℕ}
  {log log' : Probe.Transcript (SurfaceQuery F) SurfaceQuery.Answer}

/-- What a search does to its heap. -/
inductive HeapStep (ops : FloatOps F) : Search F → Search F → Prop
  | insert {s m : Search F} {node : Node F} (hnodes : m.nodes = s.nodes ++ [node]) (hopen : m.openNodes = s.openNodes)
      (hfine : m.fineTurnsEnabled = s.fineTurnsEnabled) (hwaiting : node.closed = false)
      (hplace : node.heapPosition = none) (hcounted : Counted ops node) :
      HeapStep ops s (queue ops m s.nodes.length)
  | decrease {s : Search F} {i source : ℕ} {endpoint : ActionPosition F} {cost : F} (hwaiting : i ∈ s.openNodes)
      (hcost : Amount ops cost) (hless : ops.lt cost (s.node ops i).cost = true) :
      HeapStep ops s (queue ops (improveNode s i source endpoint cost) i)
  | pop {s : Search F} (hne : s.openNodes ≠ []) : HeapStep ops s (closeNode (pop ops s).2 (pop ops s).1)
  | clear {s t : Search F} (hnodes : t.nodes = []) (hopen : t.openNodes = []) : HeapStep ops s t
  | other {s t : Search F} (hnodes : t.nodes = s.nodes) (hopen : t.openNodes = s.openNodes)
      (hfine : t.fineTurnsEnabled = s.fineTurnsEnabled) : HeapStep ops s t

abbrev HeapRun (ops : FloatOps F) : Search F → Search F → Prop := Relation.ReflTransGen (HeapStep ops)

/-- The open list is an indexed heap of exactly the nodes that wait. -/
structure OpenList (ops : FloatOps F) (s : Search F) : Prop where
  heaped : Heaped s
  waiting : ∀ i, i ∈ s.openNodes ↔ s.IsWaiting i
  counted : AllCounted ops s
  ordered : InOrder ops s

/-! ### The operations keep the heap -/

theorem OpenList.congr (h : OpenList ops s) (hnodes : t.nodes = s.nodes) (hopen : t.openNodes = s.openNodes)
    (hfine : t.fineTurnsEnabled = s.fineTurnsEnabled) : OpenList ops t := by
  have hview : t.view = s.view := view_eq_of_map (congrArg _ hnodes)
  refine ⟨fun i p => ?_, fun i => ?_, h.counted.congr (congrArg _ hnodes), h.ordered.congr hnodes hopen hfine⟩
  · have hold := h.heaped i p
    rw [Search.place] at hold ⊢
    rwa [hnodes, hopen]
  · have hold := h.waiting i
    rw [Search.IsWaiting] at hold ⊢
    rwa [hview, hopen]

theorem OpenList.empty (hops : SinglePrecision ops) (hnodes : s.nodes = []) (hopen : s.openNodes = []) :
    OpenList ops s := by
  refine ⟨fun i p => ?_, fun i => ?_, fun i => ?_, fun q hq => ?_⟩
  · rw [hopen, Search.place, hnodes]
    simp
  · rw [hopen, Search.IsWaiting, Search.view, hnodes]
    simp
  · rw [Search.node, hnodes]
    exact counted_absent hops
  · rw [hopen] at hq
    contradiction

theorem OpenList.insert (hops : SinglePrecision ops) (h : OpenList ops s) {node : Node F}
    (hnodes : m.nodes = s.nodes ++ [node]) (hopen : m.openNodes = s.openNodes)
    (hfine : m.fineTurnsEnabled = s.fineTurnsEnabled) (hwaiting : node.closed = false) (hplace : node.heapPosition = none)
    (hcounted : Counted ops node) : OpenList ops (queue ops m s.nodes.length) := by
  have hget : ∀ j < s.nodes.length, m.nodes[j]? = s.nodes[j]? := by
    intro j hj
    rw [hnodes, List.getElem?_append_left hj]
  have hnew : m.nodes[s.nodes.length]? = some node := by
    rw [hnodes, List.getElem?_append_right le_rfl, Nat.sub_self, List.getElem?_cons_zero]
  have hpast : ∀ j, s.nodes.length < j → m.nodes[j]? = none := by
    intro j hj
    rw [hnodes, List.getElem?_eq_none]
    rw [List.length_append, List.length_singleton]
    omega
  have hplaces : ∀ j, m.place j = s.place j := by
    intro j
    rw [Search.place, Search.place]
    rcases Nat.lt_trichotomy j s.nodes.length with hj | rfl | hj
    · rw [hget j hj]
    · rw [hnew, List.getElem?_eq_none le_rfl]
      exact hplace
    · rw [hpast j hj, List.getElem?_eq_none hj.le]
  have hheaped : Heaped m := by
    intro j p
    rw [hplaces, hopen]
    exact h.heaped j p
  have hlt : s.nodes.length < m.nodes.length := by
    rw [hnodes, List.length_append, List.length_singleton]
    exact Nat.lt_succ_self _
  have hnone : m.place s.nodes.length = none := by
    rw [Search.place, hnew]
    exact hplace
  have hnode : m.node ops s.nodes.length = node := by
    rw [Search.node, List.getD_eq_getElem?_getD, hnew]
    rfl
  have hold : ∀ j < s.nodes.length, m.node ops j = s.node ops j := by
    intro j hj
    rw [Search.node, Search.node, List.getD_eq_getElem?_getD, List.getD_eq_getElem?_getD, hget j hj]
  obtain ⟨hkept, hheaped', hperm⟩ := queue_enqueued ops hheaped hlt hnone
  have hcountedm : AllCounted ops m := by
    intro j
    rcases Nat.lt_trichotomy j s.nodes.length with hj | rfl | hj
    · rw [hold j hj]
      exact h.counted j
    · rw [hnode]
      exact hcounted
    · rw [Search.node, List.getD_eq_getElem?_getD, hpast j hj]
      exact counted_absent hops
  -- The nodes that wait already are compared as before.
  have hinorder : InOrder ops m := by
    intro q hq hq0 hless
    rw [hopen] at hq
    have hin : ∀ q < s.openNodes.length, openAt m q < s.nodes.length ∧ openAt m q = openAt s q := by
      intro q hq
      have hsame : openAt m q = openAt s q := by rw [openAt, openAt, hopen]
      rw [hsame]
      exact ⟨place_lt ((h.heaped _ _).mp (getElem?_openAt hq)), rfl⟩
    obtain ⟨hqlt, hqsame⟩ := hin q hq
    obtain ⟨hplt, hpsame⟩ := hin (parent q) ((parent_lt hq0).trans hq)
    rw [before_congr hfine (congrArg _ (hold _ hqlt)) (congrArg _ (hold _ hplt)), hqsame, hpsame] at hless
    exact h.ordered q hq hq0 hless
  have hview : ∀ j, (queue ops m s.nodes.length).view j = m.view j := fun j => congrFun (view_eq_of_map hkept) j
  refine ⟨hheaped', fun j => ?_, hcountedm.congr hkept, queue_inOrder hops hcountedm (by rw [hnode]; exact hplace) hkept hinorder⟩
  rw [hperm.mem_iff, List.mem_append, List.mem_singleton, hopen, h.waiting, Search.IsWaiting, Search.IsWaiting, hview,
    Search.view, Search.view]
  rcases Nat.lt_trichotomy j s.nodes.length with hj | rfl | hj
  · rw [hget j hj, or_iff_left hj.ne]
  · rw [hnew]
    exact iff_of_true (.inr rfl) ⟨node.forget, rfl, hwaiting⟩
  · rw [hpast j hj, List.getElem?_eq_none hj.le, or_iff_left hj.ne']

theorem node_improveNode {source : ℕ} {endpoint : ActionPosition F} {cost : F} (hi : i < s.nodes.length) (j : ℕ) :
    (improveNode s i source endpoint cost).node ops j =
      if i = j then { s.node ops i with position := endpoint, cost := cost, parent := some source }
      else s.node ops j := by
  rw [improveNode, Search.node, Search.node, Search.node, List.getD_eq_getElem?_getD, getElem?_setNode,
    List.getD_eq_getElem?_getD, List.getD_eq_getElem?_getD]
  split_ifs with hij
  · subst hij
    rw [List.getElem?_eq_getElem hi]
    rfl
  · rfl

/-- A cheaper node is before all that it was before, and no other comparison changes. -/
theorem improves (hops : SinglePrecision ops) (h : AllCounted ops s) {source : ℕ} {endpoint : ActionPosition F} {cost : F}
    (hi : i < s.nodes.length) (hcost : Amount ops cost) (hless : ops.lt cost (s.node ops i).cost = true)
    (hcounted : AllCounted ops (improveNode s i source endpoint cost)) :
    Improves (fun a b => before ops s a b = true)
      (fun a b => before ops (improveNode s i source endpoint cost) a b = true) i := by
  have hother : ∀ a, a ≠ i → (improveNode s i source endpoint cost).node ops a = s.node ops a := by
    intro a ha
    rw [node_improveNode hi, if_neg (Ne.symm ha)]
  refine ⟨fun a b ha hb => ?_, fun a ha hbefore => ?_⟩
  · have hsame : before ops (improveNode s i source endpoint cost) a b = before ops s a b :=
      before_congr rfl (congrArg _ (hother a ha)) (congrArg _ (hother b hb))
    rw [hsame]
  · have hself : (improveNode s i source endpoint cost).node ops i =
        { s.node ops i with position := endpoint, cost := cost, parent := some source } := by
      rw [node_improveNode hi, if_pos rfl]
    have hdrops : ops.lt ((s.node ops i).total ops s.fineTurnsEnabled)
        (Node.total ops s.fineTurnsEnabled
          { s.node ops i with position := endpoint, cost := cost, parent := some source }) = false := by
      unfold Node.total
      split
      · exact hops.add_mono hcost (h i).cost (hops.amount_triple (h i).remaining) hless
      · exact hops.add_mono hcost (h i).cost (h i).remaining hless
    have hnew := (hcounted i).total hops s.fineTurnsEnabled
    rw [before_iff hops hcounted, hother a ha, hself] at hbefore
    rw [hself] at hnew
    rw [before_iff hops h]
    have hfine : (improveNode s i source endpoint cost).fineTurnsEnabled = s.fineTurnsEnabled := rfl
    rw [hfine] at hbefore
    rcases hbefore with hlt | ⟨hnot, hrest⟩
    · refine .inl ((hops.lt_cotrans ((h i).total hops _).number hlt).resolve_right fun hbad => ?_)
      exact Bool.false_ne_true (hdrops.symm.trans hbad)
    · refine .inr ⟨fun hlt => ?_, hrest⟩
      rcases hops.lt_cotrans hnew.number hlt with hbad | hbad
      · exact Bool.false_ne_true (hdrops.symm.trans hbad)
      · exact hnot hbad

theorem OpenList.decrease (hops : SinglePrecision ops) (h : OpenList ops s) {source : ℕ} {endpoint : ActionPosition F}
    {cost : F} (hwaiting : i ∈ s.openNodes) (hcost : Amount ops cost)
    (hless : ops.lt cost (s.node ops i).cost = true) : OpenList ops (queue ops (improveNode s i source endpoint cost) i) := by
  obtain ⟨p, hp⟩ := h.heaped.mem_iff.mp hwaiting
  have hi := place_lt hp
  have hplaces : ∀ j, (improveNode s i source endpoint cost).place j = s.place j := by
    intro j
    rw [improveNode, Search.place, Search.place, getElem?_setNode]
    split_ifs
    · cases s.nodes[j]? <;> rfl
    · rfl
  have hheaped : Heaped (improveNode s i source endpoint cost) := by
    intro j q
    rw [hplaces]
    exact h.heaped j q
  have hcounted : AllCounted ops (improveNode s i source endpoint cost) := by
    intro j
    rw [node_improveNode hi]
    split_ifs
    · exact ⟨hcost, (h.counted i).remaining⟩
    · exact h.counted j
  obtain ⟨hkept, hheaped', hperm⟩ := queue_waiting ops hheaped ((hplaces i).trans hp)
  refine ⟨hheaped', fun j => ?_, hcounted.congr hkept, ?_⟩
  · have hold := h.waiting j
    have hview : (improveNode s i source endpoint cost).view j = if i = j then
        (s.view j).map fun node => { node with position := endpoint, cost := cost, parent := some source }
        else s.view j := view_setNode fun _ => rfl
    rw [hperm.mem_iff, Search.IsWaiting, view_eq_of_map hkept, hview]
    refine hold.trans ?_
    rw [Search.IsWaiting]
    split_ifs
    · cases s.view j <;> simp
    · rfl
  · exact queue_improved (preference_before hops h.counted) (preference_before hops hcounted)
      (improves hops h.counted hi hcost hless hcounted) (fun _ _ => Iff.rfl) hheaped h.ordered ((hplaces i).trans hp)

theorem OpenList.pop (hops : SinglePrecision ops) (h : OpenList ops s) (hne : s.openNodes ≠ []) :
    OpenList ops (closeNode (pop ops s).2 (pop ops s).1) := by
  obtain ⟨first, rest, hopen⟩ := List.exists_cons_of_ne_nil hne
  obtain ⟨hfirst, hcloses⟩ := expand_closes ops h.heaped hopen
  obtain ⟨-, hleft⟩ := pop_left ops h.heaped hopen
  have hcounted : AllCounted ops (LivingSurfaceDetour.pop ops s).2 := h.counted.congr hleft.nodes
  have hinorder := (pop_inOrder hops h.counted h.heaped h.ordered hne).1
  have hnode : ∀ j, ((closeNode (LivingSurfaceDetour.pop ops s).2 first).node ops j).cost =
      ((LivingSurfaceDetour.pop ops s).2.node ops j).cost ∧
      ((closeNode (LivingSurfaceDetour.pop ops s).2 first).node ops j).remaining =
        ((LivingSurfaceDetour.pop ops s).2.node ops j).remaining := by
    intro j
    change ((Search.setNode _ first _).node ops j).cost = _ ∧ ((Search.setNode _ first _).node ops j).remaining = _
    rw [Search.node, Search.node, List.getD_eq_getElem?_getD, List.getD_eq_getElem?_getD, getElem?_setNode]
    split_ifs
    · cases (LivingSurfaceDetour.pop ops s).2.nodes[j]? <;> exact ⟨rfl, rfl⟩
    · exact ⟨rfl, rfl⟩
  rw [hfirst]
  refine ⟨hcloses.heaped, fun j => ?_, fun j => ?_, fun q hq hq0 hless => ?_⟩
  · have hmem := h.waiting j
    rw [hcloses.perm.mem_iff, List.mem_cons] at hmem
    have hnotin : first ∉ (closeNode (LivingSurfaceDetour.pop ops s).2 first).openNodes :=
      (List.nodup_cons.mp (hcloses.perm.nodup_iff.mp h.heaped.nodup)).1
    by_cases hj : j = first
    · subst hj
      have hclosed := hcloses.isClosed (.inl (hmem.mp (.inl rfl)))
      exact iff_of_false hnotin fun hw => not_closed_of_waiting hw hclosed
    · rw [or_iff_right hj] at hmem
      rw [hmem, Search.IsWaiting, Search.IsWaiting, hcloses.view, if_neg (Ne.symm hj)]
  · obtain ⟨hcost, hremaining⟩ := hnode j
    exact ⟨hcost ▸ (hcounted j).cost, hremaining ▸ (hcounted j).remaining⟩
  · refine hinorder q hq hq0 ?_
    change before ops (closeNode (LivingSurfaceDetour.pop ops s).2 first) (openAt (LivingSurfaceDetour.pop ops s).2 q)
      (openAt (LivingSurfaceDetour.pop ops s).2 (parent q)) = true at hless
    rw [← hless]
    have hfine : (closeNode (LivingSurfaceDetour.pop ops s).2 first).fineTurnsEnabled =
        (LivingSurfaceDetour.pop ops s).2.fineTurnsEnabled := rfl
    simp only [before, hfine, (hnode _).1, (hnode _).2]

/-- Whatever a search does to its heap, it stays one. -/
theorem HeapStep.openList (hops : SinglePrecision ops) (hstep : HeapStep ops s t) (h : OpenList ops s) : OpenList ops t := by
  cases hstep with
  | insert hnodes hopen hfine hwaiting hplace hcounted => exact h.insert hops hnodes hopen hfine hwaiting hplace hcounted
  | decrease hwaiting hcost hless => exact h.decrease hops hwaiting hcost hless
  | pop hne => exact h.pop hops hne
  | clear hnodes hopen => exact .empty hops hnodes hopen
  | other hnodes hopen hfine => exact h.congr hnodes hopen hfine

theorem HeapRun.openList (hops : SinglePrecision ops) (hrun : HeapRun ops s t) (h : OpenList ops s) : OpenList ops t := by
  induction hrun with
  | refl => exact h
  | tail _ hstep ih => exact hstep.openList hops ih

/-! ### What a search does -/

theorem HeapRun.other (hnodes : t.nodes = s.nodes) (hopen : t.openNodes = s.openNodes)
    (hfine : t.fineTurnsEnabled = s.fineTurnsEnabled) : HeapRun ops s t :=
  .single (.other hnodes hopen hfine)

theorem amount_remaining (hops : SinglePrecision ops) (point home : ActionPosition F) (radius : F) :
    Amount ops (remaining ops point home radius) := by
  unfold remaining
  dsimp only
  split
  next hless => exact ⟨(hops.number_of_lt hless).2, hops.lt_asymm hless⟩
  · exact hops.amount_zero

theorem nextEdge_heap (ops : FloatOps F) (request : Request F) (i : ℕ) (hdirection : s.nextDirection ≤ 8) :
    HeapRun ops s (nextEdge ops request i 9 s) := by
  obtain ⟨c, -, ⟨heq, -⟩ | heq | ⟨-, stride, offer, direction, -, heq⟩⟩ := nextEdge_cases ops request i 9 s hdirection
  all_goals
    rw [heq]
    exact .other rfl rfl rfl

theorem expand_heap (hne : s.openNodes ≠ []) (hrun : (expand ops request s).Runs log t) : HeapRun ops s t := by
  have hpop : HeapRun ops s (closeNode (pop ops s).2 (pop ops s).1) := .single (.pop hne)
  unfold expand at hrun
  dsimp only at hrun
  split at hrun
  · obtain ⟨front, back, arrived, rfl, -, hrun⟩ := Probe.runs_bind.mp hrun
    cases arrived with
    | false =>
      obtain ⟨-, rfl⟩ := Probe.runs_pure.mp hrun
      exact hpop
    | true =>
      obtain ⟨-, rfl⟩ := Probe.runs_pure.mp hrun
      exact hpop.trans (HeapRun.other rfl rfl rfl)
  · obtain ⟨-, rfl⟩ := Probe.runs_pure.mp hrun
    exact hpop.trans (nextEdge_heap ops request _ (Nat.zero_le _))

theorem refine_heap (hops : SinglePrecision ops) (hcounted : AllCounted ops s) : HeapRun ops s (refine ops s) := by
  have hclear : HeapStep ops s { restart ops s with nodes := [], openNodes := [] } := .clear rfl rfl
  have hinsert : HeapStep ops { restart ops s with nodes := [], openNodes := [] } (queue ops (restart ops s) 0) :=
    .insert rfl rfl rfl rfl rfl ⟨(hcounted 0).cost, (hcounted 0).remaining⟩
  exact .tail (.single hclear) hinsert

theorem pickNode_heap (hops : SinglePrecision ops) (hcounted : AllCounted ops s)
    (hrun : (pickNode ops request s).Runs log t) : HeapRun ops s t := by
  unfold pickNode at hrun
  split at hrun
  · split at hrun
    · obtain ⟨-, rfl⟩ := Probe.runs_pure.mp hrun
      exact .other rfl rfl rfl
    split at hrun
    · obtain ⟨-, rfl⟩ := Probe.runs_pure.mp hrun
      exact .other rfl rfl rfl
    split at hrun
    · obtain ⟨-, rfl⟩ := Probe.runs_pure.mp hrun
      exact .other rfl rfl rfl
    split at hrun
    · obtain ⟨-, rfl⟩ := Probe.runs_pure.mp hrun
      exact .other rfl rfl rfl
    · have hopen : (refine ops s).openNodes ≠ [] := by
        intro hempty
        have hperm := (refine_enqueued ops s).perm
        rw [hempty] at hperm
        simpa using hperm.length_eq
      exact (refine_heap hops hcounted).trans (expand_heap hopen hrun)
  next hopen => exact expand_heap (by simpa using hopen) hrun

theorem select_heap (hops : SinglePrecision ops) (hcounted : AllCounted ops s) (hdirection : s.nextDirection ≤ 8)
    (hrun : (select ops request s).Runs log t) : HeapRun ops s t := by
  unfold select at hrun
  split at hrun
  · exact pickNode_heap hops hcounted hrun
  · split at hrun
    · exact pickNode_heap hops hcounted hrun
    · obtain ⟨-, rfl⟩ := Probe.runs_pure.mp hrun
      exact nextEdge_heap ops request _ hdirection

/-- A walked edge makes a node, or makes a waiting one cheaper. -/
theorem acceptEdge_heap (hops : SinglePrecision ops) (hcounted : AllCounted ops s) (hlength : Amount ops s.edge.length)
    (hexisting : ∀ j, s.edgeExisting = some j → j ∈ s.openNodes) : HeapRun ops s (acceptEdge ops request i s) := by
  have hcost : Amount ops (ops.add (s.node ops i).cost s.edge.length) := hops.amount_add (hcounted i).cost hlength
  unfold acceptEdge
  extract_lets endpoint cost
  split
  · exact .other rfl rfl rfl
  split
  · exact .refl
  split
  next j hj =>
    split
    · exact .refl
    next hkeeps =>
      rw [Bool.or_eq_true, not_or, Bool.not_eq_true] at hkeeps
      refine .single (.decrease (hexisting j hj) hcost ?_)
      have hle := hops.le_iff (hcounted j).cost.number hcost.number
      cases hless : ops.lt cost (s.node ops j).cost with
      | true => rfl
      | false => exact absurd (hkeeps.1.symm.trans (hle.mpr hless)) Bool.false_ne_true
  next =>
    split
    · exact .other rfl rfl rfl
    · exact .single (.insert rfl rfl rfl rfl rfl ⟨hcost, amount_remaining hops _ _ _⟩)

theorem walkEdge_heap {budget : UInt32} (hops : SinglePrecision ops) (hlist : OpenList ops s)
    (h : Sound ops nodeLimit edgeLimit log s) (hactive : s.edgeActive = true)
    (hrun : (walkEdge ops request budget s).Runs log' t) : HeapRun ops s t := by
  obtain ⟨i, hwalk⟩ := h.walk hactive
  obtain ⟨front, back, edge, rfl, hadvance, hlast⟩ := Probe.runs_bind.mp hrun
  obtain ⟨-, rfl⟩ := Probe.runs_pure.mp hlast
  have hedgeFrom : s.edgeFrom.getD 0 = i := by rw [hwalk.source, Option.getD_some]
  rw [hedgeFrom] at hadvance ⊢
  obtain ⟨calls, hcalls, -⟩ := hwalk.calls
  have hcalls' := hcalls.append (.cons hwalk.pending hadvance (.nil _))
  unfold settleEdge
  dsimp only
  split
  · exact .other rfl rfl rfl
  · unfold rejectEdge
    split <;> exact .other rfl rfl rfl
  next hcomplete =>
    have hsettled : HeapRun ops s { s with edge, edgeActive := false, lastEdgeFailure := edge.failure } :=
      .other rfl rfl rfl
    have hcounted := (hlist.congr (t := { s with edge, edgeActive := false, lastEdgeFailure := edge.failure })
      rfl rfl rfl).counted
    exact hsettled.trans (acceptEdge_heap hops hcounted (LivingSurfaceCorridor.calls_measured hops hcalls' hcomplete)
      fun j hj => (hlist.waiting j).mpr (hwalk.existing j hj))

theorem search_heap {budget : UInt32} (hops : SinglePrecision ops) (hlist : OpenList ops s)
    (h : Sound ops nodeLimit edgeLimit log s) (hpending : Pending s) (hstarted : s.started = true)
    (hrun : (search ops request budget s).Runs log' t) : HeapRun ops s t := by
  obtain ⟨front, back, m, rfl, hfirst, hrest⟩ := Probe.runs_bind.mp hrun
  cases hactive : s.edgeActive with
  | true =>
    rw [if_pos hactive] at hfirst
    obtain ⟨rfl, rfl⟩ := Probe.runs_pure.mp hfirst
    rw [if_pos hactive] at hrest
    exact walkEdge_heap hops hlist h hactive hrest
  | false =>
    rw [if_neg (by simp [hactive])] at hfirst
    obtain ⟨hm, -⟩ := select_advances h hactive hpending hstarted hfirst
    have hselect := select_heap hops hlist.counted h.direction hfirst
    split at hrest
    next hwalk => exact hselect.trans (walkEdge_heap hops (hselect.openList hops hlist) hm hwalk hrest)
    · obtain ⟨-, rfl⟩ := Probe.runs_pure.mp hrest
      exact hselect

variable (request) in
theorem begin_heap (hops : SinglePrecision ops) (cell : ℤ × ℤ) (hnodes : s.nodes = []) :
    HeapRun ops s (begin ops request s cell) := by
  have hinsert : HeapStep ops s (queue ops (admitStart ops request s cell) s.nodes.length) :=
    .insert rfl rfl rfl rfl rfl ⟨hops.amount_zero, amount_remaining hops _ _ _⟩
  rw [hnodes] at hinsert
  exact .tail (.single hinsert) (.other rfl rfl rfl)

/-- A call is a run of the heap's operations. -/
theorem advance_heap {samples edges : UInt32} (hops : SinglePrecision ops) (hlist : OpenList ops s)
    (h : Sound ops nodeLimit edgeLimit log s) (hrun : (advance ops request samples edges s).Runs log' t) :
    HeapRun ops s t := by
  unfold advance at hrun
  split at hrun
  · obtain ⟨-, rfl⟩ := Probe.runs_pure.mp hrun
    exact .other rfl rfl rfl
  split at hrun
  · obtain ⟨-, rfl⟩ := Probe.runs_pure.mp hrun
    exact .refl
  next hlive =>
    have hpending : Pending s := by
      simp only [ne_eq, Bool.or_eq_true, decide_eq_true_eq, not_or, not_not] at hlive
      exact hlive.1.1
    dsimp only at hrun
    split at hrun
    next hstarted => exact search_heap hops hlist h hpending hstarted hrun
    next hnew =>
      replace hnew : s.started = false := by simpa using hnew
      have hidle : s.edgeActive = false := by
        cases hactive : s.edgeActive with
        | false => rfl
        | true => exact absurd (hnew.symm.trans (h.idle hactive).2) Bool.false_ne_true
      obtain ⟨front, back, m, rfl, hfirst, hrest⟩ := Probe.runs_bind.mp hrun
      obtain ⟨reason, rfl⟩ | ⟨hbounds, cell, rfl⟩ := start_cases hfirst
      · rw [if_pos (by simp [Search.reject])] at hrest
        obtain ⟨-, rfl⟩ := Probe.runs_pure.mp hrest
        exact .other rfl rfl rfl
      · have hbegin := begin_heap request hops cell (h.blank hnew).1.nodes
        obtain ⟨hsound, -⟩ := begin_advances cell (h.append hidle front) hidle hnew hpending hbounds
        obtain ⟨hstate, hstarted⟩ := begin_state ops request (s := s) cell
        split at hrest
        · obtain ⟨-, rfl⟩ := Probe.runs_pure.mp hrest
          exact hbegin
        · exact hbegin.trans (search_heap hops (hbegin.openList hops hlist) hsound (hstate.trans hpending) hstarted hrest)

theorem calls_heap (hops : SinglePrecision ops) {fineTurnsEnabled : Bool}
    {calls : List (Call F × Probe.Transcript (SurfaceQuery F) SurfaceQuery.Answer)}
    (h : Probe.Steps (fun _ => True) (Call.advance ops) (.initial ops fineTurnsEnabled nodeLimit edgeLimit) calls s) :
    HeapRun ops (.initial ops fineTurnsEnabled nodeLimit edgeLimit) s := by
  have hempty : OpenList ops (.initial ops fineTurnsEnabled nodeLimit edgeLimit) := .empty hops rfl rfl
  refine (h.invariant (P := fun log m => Sound ops nodeLimit edgeLimit log m ∧
    HeapRun ops (.initial ops fineTurnsEnabled nodeLimit edgeLimit) m) (fun log m call log' t hm _ hrun => ?_) []
    ⟨sound_initial fineTurnsEnabled, .refl⟩).2
  exact ⟨(advance_advances hm.1 hrun).1, hm.2.trans (advance_heap hops (hm.2.openList hops hempty) hm.1 hrun)⟩

/-! ### The open list -/

/-- The open list is a correct indexed heap. A search does nothing to it but to queue new nodes and cheaper ones,
to take the first away and to start anew; and after any such operations the list has no duplicates, has exactly
the nodes that wait, is in order, every node in it knows its place, and what is taken next is a least one. -/
theorem openList_heap (hops : SinglePrecision ops) (fineTurnsEnabled : Bool) (nodeLimit edgeLimit : ℕ) :
    (∀ (calls : List (Call F × Probe.Transcript (SurfaceQuery F) SurfaceQuery.Answer)) (s : Search F),
      Probe.Steps (fun _ => True) (Call.advance ops) (.initial ops fineTurnsEnabled nodeLimit edgeLimit) calls s →
        HeapRun ops (.initial ops fineTurnsEnabled nodeLimit edgeLimit) s) ∧
    ∀ s : Search F, HeapRun ops (.initial ops fineTurnsEnabled nodeLimit edgeLimit) s →
      s.openNodes.Nodup ∧
      (∀ i, i ∈ s.openNodes ↔ ∃ n : Node F, s.nodes[i]? = some n ∧ n.closed = false) ∧
      (∀ i p, s.openNodes[p]? = some i ↔ ∃ n : Node F, s.nodes[i]? = some n ∧ n.heapPosition = some p) ∧
      (∀ p < s.openNodes.length, p ≠ 0 → before ops s (openAt s p) (openAt s ((p - 1) / 2)) = false) ∧
      (s.openNodes ≠ [] → s.openNodes.Perm ((pop ops s).1 :: (pop ops s).2.openNodes) ∧
        ∀ j ∈ s.openNodes, before ops s j (pop ops s).1 = false) := by
  refine ⟨fun calls s h => calls_heap hops h, fun s h => ?_⟩
  have hlist := h.openList hops (.empty hops rfl rfl)
  refine ⟨hlist.heaped.nodup, fun i => ?_, fun i p => ?_, fun p hp hp0 => ?_, fun hne => ⟨?_, ?_⟩⟩
  · rw [hlist.waiting, Search.IsWaiting, Search.view]
    cases s.nodes[i]? <;> simp [Node.forget]
  · rw [hlist.heaped i p, Search.place, Option.bind_eq_some_iff]
  · exact Bool.eq_false_iff.mpr (hlist.ordered p hp hp0)
  · obtain ⟨first, rest, hopen⟩ := List.exists_cons_of_ne_nil hne
    obtain ⟨hfirst, hleft⟩ := pop_left ops hlist.heaped hopen
    rw [hfirst]
    exact hleft.perm
  · exact (pop_inOrder hops hlist.counted hlist.heaped hlist.ordered hne).2

/-- Exact arithmetic along the axes has nothing but numbers. -/
theorem axisFloats_singlePrecision : SinglePrecision axisFloats where
  number_of_lt _ := by simp [IsNumber, axisFloats]
  lt_asymm h := by
    simp only [axisFloats, decide_eq_true_eq, decide_eq_false_iff_not, not_lt] at h ⊢
    exact h.le
  lt_cotrans {x y z} _ h := by
    simp only [axisFloats, decide_eq_true_eq] at h ⊢
    exact (lt_or_ge x z).imp_right fun hzx => hzx.trans_lt h
  eq_iff _ _ := by
    simp only [axisFloats, decide_eq_true_eq, decide_eq_false_iff_not, not_lt]
    exact ⟨fun h => ⟨h.ge, h.le⟩, fun h => le_antisymm h.2 h.1⟩
  le_iff _ _ := by simp [axisFloats]
  amount_zero := ⟨by simp [IsNumber, axisFloats], by simp [axisFloats]⟩
  amount_add hx hy := by
    have hx := hx.nonneg
    have hy := hy.nonneg
    simp only [axisFloats, id, decide_eq_false_iff_not, not_lt] at hx hy
    exact ⟨by simp [IsNumber, axisFloats], by simpa [axisFloats] using add_nonneg hx hy⟩
  amount_triple hx := by
    have hx := hx.nonneg
    simp only [axisFloats, id, decide_eq_false_iff_not, not_lt] at hx
    exact ⟨by simp [IsNumber, axisFloats], by simpa [axisFloats] using hx⟩
  add_mono _ _ _ h := by
    simp only [axisFloats, decide_eq_true_eq, decide_eq_false_iff_not, not_lt] at h ⊢
    exact add_le_add_left h.le _
  finite_of_add _ _ _ := rfl
  finite_of_le _ _ := rfl
  number_sub _ _ := by simp [IsNumber, axisFloats]
  finite_of_sub _ _ := rfl
  number_add _ _ := by simp [IsNumber, axisFloats]
  number_scale _ _ _ _ := by simp [IsNumber, axisFloats]
  amount_hypot3 _ _ _ := ⟨by simp [IsNumber, axisFloats], by simp [axisFloats]⟩
  finite_of_hypot3 _ := ⟨rfl, rfl⟩
  samples := axisFloats_sampleLimit

theorem openList_heap_sample : HeapRun axisFloats (.initial axisFloats false 512 2048) detourRun.2 ∧
    detourRun.2.openNodes.Nodup :=
  have h := openList_heap axisFloats_singlePrecision false 512 2048
  have hrun := h.1 detourRun.1 detourRun.2 (Probe.steps_exec _ _ _ _ _)
  ⟨hrun, (h.2 _ hrun).1⟩

end AIWorld.Agent.LivingSurfaceDetour
