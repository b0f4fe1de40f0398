import AIWorld.Agent.CorridorSlicing
import AIWorld.Agent.DetourHeap
import Mathlib.Data.List.Nodup

/-! The graph of a search for a way home. Closed nodes are final. Every node but the origin was reached from
a closed node by a walk that completed, and parents were closed before their children. -/

namespace AIWorld.Agent.LivingSurfaceDetour

open Lib

variable {F : Type} {ops : FloatOps F} {request : Request F} {s t m : Search F} {i j : ℕ}
  {log log' : Probe.Transcript (SurfaceQuery F) SurfaceQuery.Answer}

/-! ### Nodes without their places -/

/-- A node as it is seen apart from the heap. -/
def Search.view (s : Search F) (i : ℕ) : Option (Node F) := s.nodes[i]?.map Node.forget

theorem view_eq_of_map (h : t.nodes.map Node.forget = s.nodes.map Node.forget) : t.view = s.view := by
  funext i
  rw [Search.view, Search.view, ← List.getElem?_map, ← List.getElem?_map, h]

theorem view_lt {n : Node F} (h : s.view i = some n) : i < s.nodes.length := by
  by_contra hge
  simp [Search.view, List.getElem?_eq_none (Nat.not_lt.mp hge)] at h

theorem exists_view (h : i < s.nodes.length) : ∃ n, s.view i = some n :=
  ⟨_, by rw [Search.view, List.getElem?_eq_getElem h, Option.map_some]⟩

theorem view_isSome : (s.view i).isSome ↔ i < s.nodes.length := by
  simp [Search.view]

theorem node_of_view (ops : FloatOps F) {n : Node F} (h : s.view i = some n) : (s.node ops i).forget = n := by
  have hlt := view_lt h
  rw [Search.view, List.getElem?_eq_getElem hlt] at h
  rw [Search.node, List.getD_eq_getElem?_getD, List.getElem?_eq_getElem hlt]
  exact Option.some.inj h

/-- What does not touch the place of a node is seen. -/
theorem view_setNode {f : Node F → Node F} (hf : ∀ n, (f n).forget = f n.forget) :
    (s.setNode i f).view j = if i = j then (s.view j).map f else s.view j := by
  rw [Search.view, Search.view, getElem?_setNode]
  split_ifs
  · rw [Option.map_map, Option.map_map]
    exact congrArg (Option.map · s.nodes[j]?) (funext hf)
  · rfl

/-- A node is there and closed. -/
def Search.IsClosed (s : Search F) (i : ℕ) : Prop := ∃ n, s.view i = some n ∧ n.closed = true

/-- A node is there and waits. -/
def Search.IsWaiting (s : Search F) (i : ℕ) : Prop := ∃ n, s.view i = some n ∧ n.closed = false

theorem not_closed_of_waiting (h : s.IsWaiting i) : ¬s.IsClosed i := by
  rintro ⟨m, hm, hclosed⟩
  obtain ⟨n, hn, hwaiting⟩ := h
  obtain rfl := Option.some.inj (hm.symm.trans hn)
  simp [hclosed] at hwaiting

/-! ### Edges -/

/-- A walk that completed leads from one place to another, and the costs along it are within the limits. -/
def Walked (ops : FloatOps F) (log : Probe.Transcript (SurfaceQuery F) SurfaceQuery.Answer)
    (a b : ActionPosition F) (cost cost' : F) : Prop :=
  ∃ target calls edge, LivingSurfaceCorridor.Calls ops ⟨a, target, true⟩ (.initial ops) calls edge ∧
    Probe.transcript calls <:+: log ∧ edge.state = .complete ∧ edge.route.head? = some a ∧
    edge.route.getLast? = some b ∧ edge.length = LivingSurfaceCorridor.wayLength ops edge.route ∧
    ops.lt (ops.lit 6) edge.length = false ∧ cost' = ops.add cost edge.length ∧
    ops.lt (maxRouteLength ops) cost' = false

theorem Walked.append {a b : ActionPosition F} {cost cost' : F} (h : Walked ops log a b cost cost')
    (log' : Probe.Transcript (SurfaceQuery F) SurfaceQuery.Answer) : Walked ops (log ++ log') a b cost cost' := by
  obtain ⟨target, calls, edge, hcalls, hinfix, hrest⟩ := h
  exact ⟨target, calls, edge, hcalls, hinfix.trans (List.prefix_append log log').isInfix, hrest⟩

theorem Walked.within {a b : ActionPosition F} {cost cost' : F} (h : Walked ops log a b cost cost') :
    ops.lt (maxRouteLength ops) cost' = false := by
  obtain ⟨target, calls, edge, -, -, -, -, -, -, -, -, hwithin⟩ := h
  exact hwithin

/-- One node is the parent of another, and the way between them was walked. -/
structure Leads (ops : FloatOps F) (log : Probe.Transcript (SurfaceQuery F) SurfaceQuery.Answer) (p n : Node F)
    (i : ℕ) : Prop where
  parent : n.parent = some i
  closed : p.closed = true
  walked : Walked ops log p.position n.position p.cost n.cost

/-! ### The graph -/

/-- Parents are closed before their children. -/
structure Ranked (s : Search F) (rank : ℕ → ℕ) : Prop where
  closed : ∀ i, s.IsClosed i → rank i < s.expanded
  parent : ∀ i n p, s.view i = some n → n.closed = true → n.parent = some p → rank p < rank i

structure Graph (ops : FloatOps F) (log : Probe.Transcript (SurfaceQuery F) SurfaceQuery.Answer) (s : Search F) :
    Prop where
  heaped : Heaped s
  waiting : ∀ i, i ∈ s.openNodes ↔ s.IsWaiting i
  origin : ∃ n, s.view 0 = some n ∧ n.parent = none ∧ n.cost = ops.lit 0 ∧ n.position = s.fromPosition
  first : s.IsClosed 0 ∨ s.openNodes = [0]
  current : ∀ i, s.current = some i → s.IsClosed i ∧ s.IsClosed 0
  links : ∀ i n, s.view i = some n → i ≠ 0 → ∃ p m, s.view p = some m ∧ Leads ops log m n p
  ranked : ∃ rank, Ranked s rank
  index : ∀ k i : ℕ, s.index[k]? = some i → i < s.nodes.length

/-- The graph is about these parts of the state. -/
theorem Graph.congr (h : Graph ops log s) (hnodes : t.nodes = s.nodes) (hopen : t.openNodes = s.openNodes)
    (hindex : t.index = s.index) (hcurrent : t.current = s.current) (hexpanded : t.expanded = s.expanded)
    (hfrom : t.fromPosition = s.fromPosition) : Graph ops log t := by
  have hview : t.view = s.view := view_eq_of_map (congrArg _ hnodes)
  obtain ⟨rank, hclosed, hparent⟩ := h.ranked
  refine ⟨?_, ?_, ?_, ?_, ?_, ?_, ⟨rank, ?_, ?_⟩, ?_⟩
  · intro i p
    have hold := h.heaped i p
    rw [Search.place] at hold ⊢
    rwa [hnodes, hopen]
  · have hold := h.waiting
    simp only [Search.IsWaiting] at hold ⊢
    rwa [hview, hopen]
  · rw [hview, hfrom]
    exact h.origin
  · have hold := h.first
    simp only [Search.IsClosed] at hold ⊢
    rwa [hview, hopen]
  · have hold := h.current
    simp only [Search.IsClosed] at hold ⊢
    rwa [hview, hcurrent]
  · rw [hview]
    exact h.links
  · simp only [Search.IsClosed] at hclosed ⊢
    rwa [hview, hexpanded]
  · rwa [hview]
  · rw [hindex, hnodes]
    exact h.index

theorem Graph.append (h : Graph ops log s) (log' : Probe.Transcript (SurfaceQuery F) SurfaceQuery.Answer) :
    Graph ops (log ++ log') s := by
  refine ⟨h.heaped, h.waiting, h.origin, h.first, h.current, fun i n hn hi => ?_, h.ranked, h.index⟩
  obtain ⟨p, m, hm, hleads⟩ := h.links i n hn hi
  exact ⟨p, m, hm, hleads.parent, hleads.closed, hleads.walked.append log'⟩

theorem Heaped.nodup (h : Heaped s) : s.openNodes.Nodup := by
  refine List.nodup_iff_getElem?_ne_getElem?.mpr fun p q hpq hq heq => ?_
  have hsome : s.openNodes[q]? = some s.openNodes[q] := List.getElem?_eq_getElem hq
  have hsame := h.injective (heq.trans hsome) hsome
  omega

theorem Graph.place_none (h : Graph ops log s) (hclosed : i ∉ s.openNodes) : s.place i = none := by
  cases hplace : s.place i with
  | none => rfl
  | some p => exact absurd (h.heaped.mem_iff.mpr ⟨p, hplace⟩) hclosed

/-! ### Closing a node -/

/-- The first of the heap is closed and becomes the current node. -/
structure Closes (s t : Search F) (i : ℕ) : Prop where
  heaped : Heaped t
  perm : s.openNodes.Perm (i :: t.openNodes)
  view : ∀ j, t.view j = if i = j then (s.view j).map fun n => { n with closed := true } else s.view j
  frame : ∃ nodes openNodes, t = closeNode { s with nodes, openNodes } i

variable (ops) in
theorem expand_closes {first : ℕ} {rest : List ℕ} (h : Heaped s) (hopen : s.openNodes = first :: rest) :
    (pop ops s).1 = first ∧ Closes s (closeNode (pop ops s).2 first) first := by
  obtain ⟨hfirst, hnodes, hheaped, hperm⟩ := pop_left ops h hopen
  obtain ⟨nodes, openNodes, hpop⟩ := pop_eq ops s
  have hset : ∀ j, (closeNode (pop ops s).2 first).view j =
      if first = j then (s.view j).map fun n => { n with closed := true } else s.view j := by
    intro j
    rw [← view_eq_of_map hnodes]
    exact view_setNode fun n => rfl
  have hplaces : ∀ j, (closeNode (pop ops s).2 first).place j = (pop ops s).2.place j := by
    intro j
    change ((pop ops s).2.setNode first fun node => { node with closed := true }).place j = _
    rw [Search.place, Search.place, getElem?_setNode]
    split_ifs
    · cases (pop ops s).2.nodes[j]? <;> rfl
    · rfl
  refine ⟨hfirst, fun j p => ?_, hperm, hset, nodes, openNodes, by rw [hpop]⟩
  rw [hplaces]
  exact hheaped j p

theorem Closes.isClosed (h : Closes s t i) (hi : s.IsWaiting i ∨ s.IsClosed i) : t.IsClosed i := by
  obtain ⟨n, hn, -⟩ | ⟨n, hn, -⟩ := hi
  all_goals
    refine ⟨{ n with closed := true }, ?_, rfl⟩
    rw [h.view, if_pos rfl, hn]
    rfl

theorem Closes.of_isClosed (h : Closes s t i) (hj : s.IsClosed j) : t.IsClosed j := by
  by_cases hij : i = j
  · subst hij
    exact h.isClosed (.inr hj)
  · obtain ⟨n, hn, hclosed⟩ := hj
    exact ⟨n, by rw [h.view, if_neg hij, hn], hclosed⟩

/-- A node with its closing is the node that was there. -/
theorem Closes.view_some (h : Closes s t i) {n : Node F} (hn : t.view j = some n) : ∃ n', s.view j = some n' ∧
    n.parent = n'.parent ∧ n.cost = n'.cost ∧ n.position = n'.position ∧ (i ≠ j → n' = n) := by
  rw [h.view] at hn
  split_ifs at hn with hij
  · obtain ⟨n', hn', rfl⟩ := Option.map_eq_some_iff.mp hn
    exact ⟨n', hn', rfl, rfl, rfl, fun hne => absurd hij hne⟩
  · exact ⟨n, hn, rfl, rfl, rfl, fun _ => rfl⟩

theorem Closes.length (h : Closes s t i) : t.nodes.length = s.nodes.length := by
  have hsome : ∀ j, (t.view j).isSome = (s.view j).isSome := by
    intro j
    rw [h.view]
    split_ifs
    · rw [Option.isSome_map]
    · rfl
  have hlt : ∀ j, j < t.nodes.length ↔ j < s.nodes.length := by
    intro j
    rw [← view_isSome, ← view_isSome, hsome]
  have hs := hlt s.nodes.length
  have ht := hlt t.nodes.length
  omega

theorem Graph.close (h : Graph ops log s) (hc : Closes s t i) : Graph ops log t := by
  have hmem : i ∈ s.openNodes := hc.perm.mem_iff.mpr List.mem_cons_self
  have hwaiting := (h.waiting i).mp hmem
  have hnotin : i ∉ t.openNodes := (List.nodup_cons.mp (hc.perm.nodup_iff.mp h.heaped.nodup)).1
  have hcurrent : t.IsClosed i := hc.isClosed (.inl hwaiting)
  have hfirst : t.IsClosed 0 := by
    obtain hclosed | honly := h.first
    · exact hc.of_isClosed hclosed
    · rw [honly, List.mem_singleton] at hmem
      exact hmem ▸ hcurrent
  obtain ⟨nodes, openNodes, hframe⟩ := hc.frame
  refine ⟨hc.heaped, fun j => ?_, ?_, .inl hfirst, fun j hj => ?_, fun j n hn hj => ?_, ?_, fun k j hk => ?_⟩
  · by_cases hij : i = j
    · subst hij
      exact iff_of_false hnotin fun hw => not_closed_of_waiting hw hcurrent
    · have hold := h.waiting j
      rw [hc.perm.mem_iff, List.mem_cons, or_iff_right (Ne.symm hij)] at hold
      rw [hold, Search.IsWaiting, Search.IsWaiting, hc.view, if_neg hij]
  · obtain ⟨n, hn, hparent, hcost, hposition⟩ := h.origin
    have hfrom : t.fromPosition = s.fromPosition := by rw [hframe]; rfl
    rw [hc.view, hfrom]
    split_ifs with hi
    · exact ⟨{ n with closed := true }, by rw [hn]; rfl, hparent, hcost, hposition⟩
    · exact ⟨n, hn, hparent, hcost, hposition⟩
  · have hi : t.current = some i := by rw [hframe]; rfl
    rw [hi, Option.some.injEq] at hj
    exact ⟨hj ▸ hcurrent, hfirst⟩
  · obtain ⟨n', hn', hparent, hcost, hposition, -⟩ := hc.view_some hn
    obtain ⟨p, pn, hp, hleads⟩ := h.links j n' hn' hj
    have hclosed : s.IsClosed p := ⟨pn, hp, hleads.closed⟩
    have hpi : i ≠ p := by
      rintro rfl
      exact not_closed_of_waiting hwaiting hclosed
    refine ⟨p, pn, by rw [hc.view, if_neg hpi, hp], hparent.trans hleads.parent, hleads.closed, ?_⟩
    rw [hcost, hposition]
    exact hleads.walked
  · obtain ⟨rank, hrank, hparents⟩ := h.ranked
    have hexpanded : t.expanded = s.expanded + 1 := by rw [hframe]; rfl
    have hparent_closed : ∀ j n p, s.view j = some n → n.parent = some p → s.IsClosed p := by
      intro j n p hn hp
      have hj : j ≠ 0 := by
        rintro rfl
        obtain ⟨o, ho, hnone, -⟩ := h.origin
        obtain rfl := Option.some.inj (ho.symm.trans hn)
        rw [hnone] at hp
        contradiction
      obtain ⟨q, m, hm, hleads⟩ := h.links j n hn hj
      rw [hleads.parent, Option.some.injEq] at hp
      exact hp ▸ ⟨m, hm, hleads.closed⟩
    refine ⟨Function.update rank i s.expanded, fun j hj => ?_, fun j n p hn hclosed hp => ?_⟩
    · rw [hexpanded]
      by_cases hij : j = i
      · subst hij
        rw [Function.update_self]
        omega
      · obtain ⟨n, hn, hclosed⟩ := hj
        obtain ⟨n', hn', -, -, -, hsame⟩ := hc.view_some hn
        have hlt := hrank j ⟨n', hn', by rw [hsame (Ne.symm hij)]; exact hclosed⟩
        rw [Function.update_of_ne hij]
        omega
    · obtain ⟨n', hn', hparent, -, -, hsame⟩ := hc.view_some hn
      have hp' : n'.parent = some p := hparent.symm.trans hp
      have hpclosed := hparent_closed j n' p hn' hp'
      have hpi : p ≠ i := by
        rintro rfl
        exact not_closed_of_waiting hwaiting hpclosed
      rw [Function.update_of_ne hpi]
      by_cases hij : j = i
      · subst hij
        rw [Function.update_self]
        exact hrank p hpclosed
      · rw [Function.update_of_ne hij]
        exact hparents j n' p hn' (by rw [hsame (Ne.symm hij)]; exact hclosed) hp'
  · have hindex : t.index = s.index := by rw [hframe]; rfl
    rw [hindex] at hk
    rw [hc.length]
    exact h.index k j hk

/-! ### Reaching a node -/

/-- A node is added or takes on a better way. -/
structure Reaches (s t : Search F) (i : ℕ) (n : Node F) : Prop where
  heaped : Heaped t
  waiting : ∀ j, j ∈ t.openNodes ↔ j = i ∨ j ∈ s.openNodes
  joined : t.openNodes.length + s.nodes.length = s.openNodes.length + t.nodes.length
  view : ∀ j, t.view j = if i = j then some n else s.view j
  index : ∀ k j : ℕ, t.index[k]? = some j → j = i ∨ s.index[k]? = some j
  current : t.current = s.current
  expanded : t.expanded = s.expanded
  fromPosition : t.fromPosition = s.fromPosition

theorem Reaches.isClosed_iff {n : Node F} (h : Reaches s t i n) (hi : ¬s.IsClosed i) (hn : n.closed = false) :
    t.IsClosed j ↔ s.IsClosed j := by
  by_cases hij : i = j
  · subst hij
    refine iff_of_false ?_ hi
    exact not_closed_of_waiting ⟨n, by rw [h.view, if_pos rfl], hn⟩
  · rw [Search.IsClosed, Search.IsClosed, h.view, if_neg hij]

theorem Reaches.length_le {n : Node F} (h : Reaches s t i n) : t.nodes.length ≤ max s.nodes.length (i + 1) := by
  by_contra hlt
  obtain ⟨m, hm⟩ := exists_view (s := t) (i := t.nodes.length - 1) (by omega)
  rw [h.view, if_neg (by omega)] at hm
  have hold := view_lt hm
  omega

theorem Graph.reach {n m : Node F} {p : ℕ} (h : Graph ops log s) (hr : Reaches s t i n) (hi : ¬s.IsClosed i)
    (hfirst : s.IsClosed 0) (hn : n.closed = false) (hp : s.view p = some m) (hleads : Leads ops log m n p) :
    Graph ops log t := by
  have hclosed : ∀ j, t.IsClosed j ↔ s.IsClosed j := fun j => hr.isClosed_iff hi hn
  have hkept : ∀ j, s.IsClosed j → t.view j = s.view j := by
    intro j hj
    rw [hr.view, if_neg]
    rintro rfl
    exact hi hj
  obtain ⟨rank, hrank, hparents⟩ := h.ranked
  refine ⟨hr.heaped, fun j => ?_, ?_, .inl ((hclosed 0).mpr hfirst), fun j hj => ?_, fun j nj hnj hj => ?_,
    ⟨rank, fun j hj => ?_, fun j nj q hnj hjclosed hq => ?_⟩, fun k j hk => ?_⟩
  · rw [hr.waiting]
    by_cases hij : i = j
    · subst hij
      exact iff_of_true (.inl rfl) ⟨n, by rw [hr.view, if_pos rfl], hn⟩
    · rw [or_iff_right (Ne.symm hij), h.waiting, Search.IsWaiting, Search.IsWaiting, hr.view, if_neg hij]
  · rw [hkept 0 hfirst, hr.fromPosition]
    exact h.origin
  · rw [hr.current] at hj
    obtain ⟨hj, hzero⟩ := h.current j hj
    exact ⟨(hclosed j).mpr hj, (hclosed 0).mpr hzero⟩
  · rw [hr.view] at hnj
    split_ifs at hnj
    · obtain rfl := Option.some.inj hnj
      exact ⟨p, m, (hkept p ⟨m, hp, hleads.closed⟩).trans hp, hleads⟩
    · obtain ⟨q, mq, hq, hold⟩ := h.links j nj hnj hj
      exact ⟨q, mq, (hkept q ⟨mq, hq, hold.closed⟩).trans hq, hold⟩
  · rw [hr.expanded]
    exact hrank j ((hclosed j).mp hj)
  · have hold := (hclosed j).mp ⟨nj, hnj, hjclosed⟩
    exact hparents j nj q ((hkept j hold).symm.trans hnj) hjclosed hq
  · have hview : ∃ nj, t.view j = some nj := by
      rw [hr.view]
      split_ifs with hij
      · exact ⟨n, rfl⟩
      · exact exists_view (h.index k j ((hr.index k j hk).resolve_left (Ne.symm hij)))
    obtain ⟨nj, hnj⟩ := hview
    exact view_lt hnj

/-- A waiting node takes on a better way. -/
theorem improveNode_reaches (source : ℕ) (endpoint : ActionPosition F) (cost : F) (h : Graph ops log s) {n : Node F}
    (hn : s.view i = some n) (hwaiting : n.closed = false) :
    Reaches s (queue ops (improveNode s i source endpoint cost) i) i
      { n with position := endpoint, cost, parent := some source } := by
  have hview : ∀ j, (improveNode s i source endpoint cost).view j =
      if i = j then some { n with position := endpoint, cost, parent := some source } else s.view j := by
    intro j
    have hset := view_setNode (s := s) (i := i) (j := j)
      (f := fun node => { node with position := endpoint, cost, parent := some source }) fun _ => rfl
    rw [improveNode, hset]
    split_ifs with hij
    · rw [← hij, hn]
      rfl
    · rfl
  have hplaces : ∀ j, (improveNode s i source endpoint cost).place j = s.place j := by
    intro j
    rw [improveNode, Search.place, Search.place, getElem?_setNode]
    split_ifs
    · cases s.nodes[j]? <;> rfl
    · rfl
  have hheaped : Heaped (improveNode s i source endpoint cost) := by
    intro j p
    rw [hplaces]
    exact h.heaped j p
  have hmem : i ∈ s.openNodes := (h.waiting i).mpr ⟨n, hn, hwaiting⟩
  obtain ⟨p, hp⟩ := h.heaped.mem_iff.mp hmem
  obtain ⟨hnodes, hheaped', hperm⟩ := queue_waiting ops hheaped ((hplaces i).trans hp)
  obtain ⟨nodes, openNodes, hqueue⟩ := queue_eq ops (improveNode s i source endpoint cost) i
  have hlengths := congrArg List.length hnodes
  rw [List.length_map, List.length_map] at hlengths
  refine ⟨hheaped', fun j => ?_, ?_, fun j => ?_, fun k j hk => .inr ?_, ?_, ?_, ?_⟩
  · rw [hperm.mem_iff]
    exact ⟨.inr, fun hj => hj.elim (fun hj => hj ▸ hmem) id⟩
  · rw [hperm.length_eq, hlengths]
    change s.openNodes.length + s.nodes.length = _ + (s.nodes.modify i _).length
    rw [List.length_modify]
  · rw [view_eq_of_map hnodes, hview]
  · rw [hqueue] at hk
    exact hk
  all_goals rw [hqueue]; rfl

variable (request) in
/-- A node is added. -/
theorem addNode_reaches (source : ℕ) (endpoint : ActionPosition F) (cost : F) (h : Graph ops log s) :
    Reaches s (queue ops (addNode ops request s source endpoint cost) s.nodes.length) s.nodes.length
      { position := endpoint
        x := s.edgeX
        y := s.edgeY
        cost
        remaining := remaining ops endpoint request.home request.arrivalRadius
        parent := some source
        heapPosition := none
        closed := false } := by
  generalize hm : addNode ops request s source endpoint cost = m
  have hviewm : ∀ j, m.view j = if s.nodes.length = j then some
      { position := endpoint
        x := s.edgeX
        y := s.edgeY
        cost
        remaining := remaining ops endpoint request.home request.arrivalRadius
        parent := some source
        heapPosition := none
        closed := false } else s.view j := by
    intro j
    rw [← hm, Search.view, Search.view]
    change (s.nodes ++ [_])[j]?.map Node.forget = _
    by_cases hj : s.nodes.length = j
    · subst hj
      simp [Node.forget]
    · rw [if_neg hj]
      by_cases hlt : j < s.nodes.length
      · rw [List.getElem?_append_left hlt]
      · rw [List.getElem?_eq_none (by rw [List.length_append, List.length_singleton]; omega),
          List.getElem?_eq_none (by omega)]
  have hplaces : ∀ j, m.place j = s.place j := by
    intro j
    rw [← hm, Search.place, Search.place]
    change (s.nodes ++ [_])[j]?.bind Node.heapPosition = _
    by_cases hlt : j < s.nodes.length
    · rw [List.getElem?_append_left hlt]
    · rw [List.getElem?_append_right (by omega), List.getElem?_singleton, List.getElem?_eq_none (by omega)]
      split_ifs <;> rfl
  have hheaped : Heaped m := by
    intro j p
    rw [hplaces]
    have hopen : m.openNodes = s.openNodes := by rw [← hm]; rfl
    rw [hopen]
    exact h.heaped j p
  have hlength : s.nodes.length < m.nodes.length := by
    rw [← hm]
    change _ < (s.nodes ++ [_]).length
    simp
  have hplace : m.place s.nodes.length = none := by
    rw [hplaces, Search.place, List.getElem?_eq_none le_rfl]
    rfl
  obtain ⟨hnodes, hheaped', hperm⟩ := queue_enqueued ops hheaped hlength hplace
  obtain ⟨nodes, openNodes, hqueue⟩ := queue_eq ops m s.nodes.length
  have hlengths := congrArg List.length hnodes
  rw [List.length_map, List.length_map] at hlengths
  refine ⟨hheaped', fun j => ?_, ?_, fun j => ?_, fun k j hk => ?_, ?_, ?_, ?_⟩
  · rw [hperm.mem_iff, List.mem_append, List.mem_singleton, or_comm, ← hm]
    rfl
  · rw [hperm.length_eq, hlengths, ← hm]
    change (s.openNodes ++ [_]).length + _ = _ + (s.nodes ++ [_]).length
    rw [List.length_append, List.length_append, List.length_singleton, List.length_singleton]
    omega
  · rw [view_eq_of_map hnodes, hviewm]
  · rw [hqueue, ← hm] at hk
    change (s.index.insertIfNew (key s.edgeX s.edgeY) s.nodes.length)[k]? = some j at hk
    rw [Std.ExtTreeMap.getElem?_insertIfNew] at hk
    split_ifs at hk with hnew
    · exact .inl (Option.some.inj hk).symm
    · exact .inr hk
  all_goals rw [hqueue, ← hm]; rfl

/-! ### A graph of one node -/

/-- There is the origin alone, and it waits. -/
theorem Graph.fresh {n : Node F} {t : Search F} (h : Enqueued s t 0) (hnodes : s.nodes = [n]) (hopen : s.openNodes = [])
    (hindex : ∀ k i : ℕ, t.index[k]? = some i → i = 0) (hcurrent : t.current = none) (hparent : n.parent = none)
    (hcost : n.cost = ops.lit 0) (hposition : n.position = t.fromPosition) (hwaiting : n.closed = false) :
    Graph ops log t := by
  have hview : ∀ j, t.view j = if j = 0 then some n.forget else none := by
    intro j
    rw [view_eq_of_map h.nodes, Search.view, hnodes, List.getElem?_singleton]
    split_ifs <;> rfl
  have hperm := h.perm
  rw [hopen, List.nil_append] at hperm
  have hopen' := hperm.eq_singleton
  have hnotclosed : ∀ j, ¬t.IsClosed j := by
    rintro j ⟨m, hm, hclosed⟩
    rw [hview] at hm
    split_ifs at hm
    obtain rfl := Option.some.inj hm
    exact absurd (hwaiting.symm.trans hclosed) Bool.false_ne_true
  refine ⟨h.heaped, fun j => ?_, ⟨n.forget, by rw [hview, if_pos rfl], hparent, hcost, hposition⟩, .inr hopen',
    fun j hj => ?_, fun j m hm hj => ?_, ⟨fun _ => 0, fun j hj => absurd hj (hnotclosed j), fun j m q hm hj => ?_⟩,
    fun k j hk => ?_⟩
  · rw [hopen', List.mem_singleton, Search.IsWaiting, hview]
    refine ⟨fun hj => ⟨n.forget, if_pos hj, hwaiting⟩, ?_⟩
    rintro ⟨m, hm, -⟩
    by_contra hj
    rw [if_neg hj] at hm
    contradiction
  · rw [hcurrent] at hj
    contradiction
  · rw [hview, if_neg hj] at hm
    contradiction
  · exact absurd ⟨m, hm, hj⟩ (hnotclosed j)
  · rw [hindex k j hk]
    exact view_lt ((hview 0).trans (if_pos rfl))

/-- The narrow grid starts from the origin alone. -/
theorem refine_enqueued (ops : FloatOps F) (s : Search F) : Enqueued (restart ops s) (refine ops s) 0 := by
  have hplace : (restart ops s).place 0 = none := rfl
  have hheaped : Heaped (restart ops s) := by
    intro i p
    obtain - | i := i
    · exact iff_of_false (by simp [restart]) (by rw [hplace]; simp)
    · exact iff_of_false (by simp [restart]) (by simp [restart, Search.place])
  exact queue_enqueued ops hheaped Nat.one_pos hplace

theorem refine_graph (h : Graph ops log s) : Graph ops log (refine ops s) := by
  obtain ⟨o, ho, hparent, hcost, hposition⟩ := h.origin
  have horigin := node_of_view ops ho
  have hqueued := refine_enqueued ops s
  obtain ⟨nodes, openNodes, hqueue⟩ := queue_eq ops (restart ops s) 0
  refine Graph.fresh hqueued rfl rfl (fun k i hk => ?_) ?_ rfl ?_ ?_ rfl
  · rw [refine, hqueue] at hk
    change ((∅ : Std.ExtTreeMap ℕ ℕ).insertIfNew (key 0 0) 0)[k]? = some i at hk
    rw [Std.ExtTreeMap.getElem?_insertIfNew] at hk
    split_ifs at hk with hnew
    · exact (Option.some.inj hk).symm
    · simp at hk
  · rw [refine, hqueue]
    rfl
  · have hold : (s.node ops 0).forget.cost = o.cost := congrArg Node.cost horigin
    exact hold.trans hcost
  · rw [refine, hqueue]
    have hold : (s.node ops 0).forget.position = o.position := congrArg Node.position horigin
    exact hold.trans hposition

variable (ops request) in
/-- The first call makes the origin, and it waits. -/
theorem begin_enqueued (cell : ℤ × ℤ) (hnodes : s.nodes = []) (hopen : s.openNodes = []) :
    Enqueued (admitStart ops request s cell) (queue ops (admitStart ops request s cell) 0) 0 := by
  have hadmits : (admitStart ops request s cell).nodes = [{ Node.absent ops with
      position := request.fromPosition
      x := cell.1
      y := cell.2
      remaining := remaining ops request.fromPosition request.home request.arrivalRadius }] := by
    change s.nodes ++ [_] = _
    rw [hnodes]
    rfl
  have hadmitted : (admitStart ops request s cell).openNodes = [] := hopen
  have hheaped : Heaped (admitStart ops request s cell) := by
    intro i p
    refine iff_of_false (by simp [hadmitted]) ?_
    rw [Search.place, hadmits, List.getElem?_singleton]
    split_ifs <;> simp [Node.absent]
  refine queue_enqueued ops hheaped (by simp [hadmits]) ?_
  rw [Search.place, hadmits]
  rfl

variable (ops request log) in
theorem begin_graph (cell : ℤ × ℤ) (hnodes : s.nodes = []) (hopen : s.openNodes = []) (hindex : s.index = ∅)
    (hcurrent : s.current = none) : Graph ops log (begin ops request s cell) := by
  have hqueued := begin_enqueued ops request cell hnodes hopen
  obtain ⟨nodes, openNodes, hqueue⟩ := queue_eq ops (admitStart ops request s cell) 0
  have hgraph : Graph ops log (queue ops (admitStart ops request s cell) 0) := by
    refine Graph.fresh hqueued (congrArg (· ++ _) hnodes) hopen (fun k i hk => ?_) ?_ rfl rfl ?_ rfl
    · rw [hqueue] at hk
      change (if _ then s.index else s.index.insertIfNew (key cell.1 cell.2) 0)[k]? = some i at hk
      rw [hindex] at hk
      split_ifs at hk
      · simp at hk
      · rw [Std.ExtTreeMap.getElem?_insertIfNew] at hk
        split_ifs at hk with hnew
        · exact (Option.some.inj hk).symm
        · simp at hk
    · rw [hqueue]
      exact hcurrent
    · rw [hqueue]
      rfl
  exact hgraph.congr rfl rfl rfl rfl rfl rfl

end AIWorld.Agent.LivingSurfaceDetour
