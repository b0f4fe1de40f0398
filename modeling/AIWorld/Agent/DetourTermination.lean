import AIWorld.Agent.DetourRoutes

/-! The search for a way home ends. Every call with a budget spends from a potential: nodes that can still be made
or wait, edges that can still be tried, the samples left of the walk under way, and the directions of the node
that is looked at. -/

namespace AIWorld.Agent

open Lib

/-! ### Walks -/

namespace LivingSurfaceCorridor

variable {F : Type} {ops : FloatOps F} {request : Request F} {s t : Search F} {limit : ℕ}
  {log : Probe.Transcript (SurfaceQuery F) SurfaceQuery.Answer}

/-- No walk has more samples than the limit. -/
def SampleLimit (ops : FloatOps F) (limit : ℕ) : Prop := ∀ a b, finite ops a = true → finite ops b = true →
  Walkable ops a b → ops.ceil (ops.div (distance ops a b) (ops.lit (1 / 2))) ≤ limit

/-- The samples of a walk that waits for a call are within the limit. -/
structure Within (limit : ℕ) (s : Search F) : Prop where
  fresh : s.started = false → s.nextSample = 1
  next : s.started = true → s.nextSample ≤ s.samples
  samples : s.started = true → s.samples ≤ limit

/-- What is left of a walk. -/
def left (limit : ℕ) (s : Search F) : ℕ := if s.started then s.samples + 1 - s.nextSample else limit + 2

theorem Within.left_pos (h : Within limit s) : 0 < left limit s := by
  unfold left
  split
  next hstarted =>
    have hnext := h.next hstarted
    omega
  next => omega

theorem sampleLoop_counts (n : ℕ) (hpending : Pending s) (h : (sampleLoop ops request n s).Runs log t) :
    t.state = .rejected ∨ Pending t ∧ t.started = s.started ∧ t.samples = s.samples ∧
      t.nextSample = s.nextSample + n := by
  induction n generalizing s log with
  | zero =>
    obtain ⟨-, rfl⟩ := Probe.runs_pure.mp h
    exact .inr ⟨hpending, rfl, rfl, rfl⟩
  | succ n ih =>
    obtain ⟨front, back, m, rfl, hsample, hback⟩ := Probe.runs_bind.mp h
    obtain hm | ⟨point, previousHeight, hm⟩ := sample_cases hsample
    · rw [if_neg (by simp [hm])] at hback
      obtain ⟨-, rfl⟩ := Probe.runs_pure.mp hback
      exact .inl hm
    · have hpm : Pending m := by rw [hm]; exact hpending
      rw [if_pos hpm] at hback
      refine (ih hpm hback).imp_right fun ⟨hpt, hstarted, hsamples, hnext⟩ => ⟨hpt, ?_, ?_, ?_⟩
      · rw [hstarted, hm]
      · rw [hsamples, hm]
      · rw [hnext, hm]
        dsimp only
        omega

/-- A call with a budget takes something off a walk, unless it ends it. The first call needs no budget. -/
theorem advance_left {budget : UInt32} (hlimit : SampleLimit ops limit) (hroom : limit + 10 ≤ 4294967296)
    (hbudget : budget.toNat ≤ 8) (hspend : s.started = true → 0 < budget.toNat) (hs : Within limit s)
    (h : (advance ops request budget s).Runs log t) (ht : Pending t) :
    Within limit t ∧ left limit t < left limit s := by
  unfold advance at h
  split at h
  · obtain ⟨-, rfl⟩ := Probe.runs_pure.mp h
    contradiction
  split at h
  next hnot =>
    obtain ⟨-, rfl⟩ := Probe.runs_pure.mp h
    exact absurd ht hnot
  next hpending =>
    replace hpending : Pending s := not_not.mp hpending
    obtain ⟨front, back, m, rfl, hfirst, hrest⟩ := Probe.runs_bind.mp h
    split at hrest
    next hnot =>
      obtain ⟨-, rfl⟩ := Probe.runs_pure.mp hrest
      exact absurd ht hnot
    next hpm =>
      replace hpm : Pending m := not_not.mp hpm
      obtain ⟨loop, last, n, rfl, hloop, hlast⟩ := Probe.runs_bind.mp hrest
      obtain ⟨-, rfl⟩ := Probe.runs_pure.mp hlast
      obtain ⟨hstarted, hsamples, hcase⟩ : m.started = true ∧ m.samples ≤ limit ∧
          (s.started = true ∧ m = s ∨ s.started = false ∧ m.nextSample = 1) := by
        split at hfirst
        next hstarted =>
          obtain ⟨-, rfl⟩ := Probe.runs_pure.mp hfirst
          exact ⟨hstarted, hs.samples hstarted, .inl ⟨hstarted, rfl⟩⟩
        next hnew =>
          replace hnew : s.started = false := by simpa using hnew
          obtain hrejected | ⟨hfor, hstate, hnext, -, -, hwalkable, hsamples⟩ := start_cases hfirst
          · exact absurd (hpm.symm.trans hrejected) (by simp)
          · have hwithin := hlimit _ _ hfor.finiteFrom hfor.finiteTarget hwalkable
            exact ⟨hfor.started, hsamples ▸ hwithin, .inr ⟨hnew, hnext.trans (hs.fresh hnew)⟩⟩
      obtain ⟨hpn, hle, heq⟩ := finishPending_pending ht
      rw [heq]
      obtain hrejected | ⟨-, hstarted', hsamples', hnext'⟩ := sampleLoop_counts _ hpm hloop
      · exact absurd (hpn.symm.trans hrejected) (by simp)
      · have hleft : left limit n = n.samples + 1 - n.nextSample := if_pos (hstarted'.trans hstarted)
        refine ⟨⟨fun hnew => ?_, fun _ => hle, fun _ => hsamples' ▸ hsamples⟩, ?_⟩
        · exact absurd (hnew.symm.trans (hstarted'.trans hstarted)) Bool.false_ne_true
        · rw [hleft]
          obtain ⟨hold, rfl⟩ | ⟨hnew, hone⟩ := hcase
          · have hnextle := hs.next hold
            have hpositive := hspend hold
            rw [left, if_pos hold]
            omega
          · rw [left, if_neg (by simp [hnew])]
            omega

end LivingSurfaceCorridor

/-! ### The search -/

namespace LivingSurfaceDetour

variable {F : Type} {ops : FloatOps F} {request : Request F} {s t : Search F} {i nodeLimit edgeLimit limit : ℕ}
  {log log' : Probe.Transcript (SurfaceQuery F) SurfaceQuery.Answer}

/-- What is left of the graph: two for every node that can be made or waits and for the narrow grid, and a walk for
every edge that can be tried. -/
def fuel (limit : ℕ) (s : Search F) : ℕ :=
  2 * (s.nodeLimit - s.totalNodes + s.openNodes.length + if s.spacing = .grid then 1 else 0) +
    (s.edgeLimit - s.edgeAttempts) * (limit + 4)

/-- There are directions left at the current node. -/
def flag (s : Search F) : ℕ := if s.nextDirection < 8 then 1 else 0

theorem flag_le (s : Search F) : flag s ≤ 1 := by
  unfold flag
  split <;> omega

/-- Everything that is left of a search. -/
def potential (limit : ℕ) (s : Search F) : ℕ :=
  if s.started then
    fuel limit s + flag s + if s.edgeActive then LivingSurfaceCorridor.left limit s.edge + 1 else 0
  else 2 * s.nodeLimit + s.edgeLimit * (limit + 4) + 4

variable (limit) in
theorem potential_idle (hstarted : s.started = true) (hidle : s.edgeActive = false) :
    potential limit s = fuel limit s + flag s := by
  rw [potential, if_pos hstarted, if_neg (by simp [hidle]), Nat.add_zero]

/-- The walk under way is within the limit. -/
def Walk (limit : ℕ) (s : Search F) : Prop := s.edgeActive = true → LivingSurfaceCorridor.Within limit s.edge

theorem Walk.of_idle (hidle : s.edgeActive = false) : Walk limit s := fun hactive =>
  absurd (hidle.symm.trans hactive) Bool.false_ne_true

/-! ### Choosing an edge -/

/-- What is left when an edge was looked for. -/
structure Spends (limit bound : ℕ) (s t : Search F) : Prop where
  walk : Walk limit t
  started : t.started = s.started
  potential : Pending t → potential limit t < bound

theorem Spends.of_reject (s : Search F) (bound : ℕ) (reason : SurfaceFailure) :
    Spends limit bound s (s.reject reason) :=
  ⟨.of_idle rfl, rfl, fun hpending => absurd hpending (by simp [Pending, Search.reject])⟩

variable (request limit) in
/-- The loop over the directions uses them up, or pays for an edge. -/
theorem nextEdge_spends (h : Sound ops nodeLimit edgeLimit log s) (hidle : s.edgeActive = false)
    (hstarted : s.started = true) (hlt : s.nextDirection < 8) :
    Spends limit (fuel limit s + 1) s (nextEdge ops request i 9 s) := by
  have hconnector := Bool.toNat_le s.originConnectorPending
  obtain ⟨c, hc, ⟨heq, hdone⟩ | heq | ⟨hne, stride, offer, direction, -, heq⟩⟩ :=
    nextEdge_cases ops request i 9 s h.direction
  · rw [heq]
    refine ⟨.of_idle hidle, rfl, fun _ => ?_⟩
    have hdirection : (s.at c).nextDirection = 8 := hdone (by omega)
    have hnone : flag (s.at c) = 0 := by rw [flag, hdirection, if_neg (lt_irrefl 8)]
    have hsame : fuel limit (s.at c) = fuel limit s := rfl
    rw [potential_idle _ (s := s.at c) hstarted hidle]
    omega
  · rw [heq]
    exact ⟨.of_idle rfl, rfl, fun hpending => absurd hpending (by simp [Pending, Search.reject])⟩
  · rw [heq]
    refine ⟨fun _ => ⟨fun _ => rfl, fun hnew => ?_, fun hnew => ?_⟩, rfl, fun _ => ?_⟩
    · contradiction
    · contradiction
    · have hedges := h.edges
      have hlimits := h.limits
      have hflag := flag_le ((s.at c).take ops i stride offer)
      obtain ⟨left, hleft⟩ := Nat.exists_eq_succ_of_ne_zero (n := s.edgeLimit - s.edgeAttempts) (by omega)
      have hpotential : potential limit ((s.at c).take ops i stride offer) =
          2 * (s.nodeLimit - s.totalNodes + s.openNodes.length + if s.spacing = .grid then 1 else 0) +
            (s.edgeLimit - (s.edgeAttempts + 1)) * (limit + 4) + flag ((s.at c).take ops i stride offer) +
            (limit + 2 + 1) := by
        rw [potential]
        exact if_pos hstarted
      have hspent : left.succ * (limit + 4) = left * (limit + 4) + (limit + 4) := Nat.succ_mul _ _
      rw [hpotential, fuel, hleft, show s.edgeLimit - (s.edgeAttempts + 1) = left by omega, hspent]
      omega

variable (limit) in
/-- The first of the heap is looked at, which costs what it was worth. -/
theorem expand_spends (h : Sound ops nodeLimit edgeLimit log s) (hidle : s.edgeActive = false) (hpending : Pending s)
    (hstarted : s.started = true) (hopen : s.openNodes ≠ []) (hrun : (expand ops request s).Runs log' t) :
    Spends limit (fuel limit s) s t := by
  obtain ⟨first, rest, hfirst⟩ := List.exists_cons_of_ne_nil hopen
  have hgraph := h.graph hstarted
  obtain ⟨hpop, hcloses⟩ := expand_closes ops hgraph.heaped hfirst
  have hclosed := closes_sound h hidle hpending hstarted hcloses
  unfold expand at hrun
  dsimp only at hrun
  rw [hpop] at hrun
  generalize closeNode (pop ops s).2 first = m at hrun hcloses hclosed
  have hlength := hcloses.length
  have hperm := hcloses.perm.length_eq
  rw [List.length_cons] at hperm
  obtain ⟨nodes, openNodes, hframe⟩ := hcloses.frame
  have hidlem : m.edgeActive = false := by rw [hframe]; exact hidle
  have hstartedm : m.started = true := by rw [hframe]; exact hstarted
  have hdirection : m.nextDirection = 0 := by rw [hframe]; rfl
  have hfuel : fuel limit m + 2 = fuel limit s := by
    have htotal : m.totalNodes = s.totalNodes := by
      rw [Search.totalNodes, Search.totalNodes, hlength, hframe]
      rfl
    have hsame : m.nodeLimit = s.nodeLimit ∧ m.spacing = s.spacing ∧ m.edgeLimit = s.edgeLimit ∧
        m.edgeAttempts = s.edgeAttempts := by
      rw [hframe]
      exact ⟨rfl, rfl, rfl, rfl⟩
    rw [fuel, fuel, htotal, hsame.1, hsame.2.1, hsame.2.2.1, hsame.2.2.2]
    omega
  have hsame : Spends limit (fuel limit s) s m := by
    refine ⟨.of_idle hidlem, hstartedm.trans hstarted.symm, fun _ => ?_⟩
    have hflag := flag_le m
    rw [potential_idle _ hstartedm hidlem]
    omega
  split at hrun
  next hzero =>
    obtain ⟨front, back, arrived, rfl, hasked, hrun⟩ := Probe.runs_bind.mp hrun
    cases arrived <;> obtain ⟨rfl, rfl⟩ := Probe.runs_pure.mp hrun
    · exact hsame
    · exact ⟨.of_idle hidlem, hsame.started, fun hnot => absurd hnot (by simp [Pending])⟩
  next =>
    obtain ⟨rfl, rfl⟩ := Probe.runs_pure.mp hrun
    obtain ⟨hwalk, hstart, hpotential⟩ := nextEdge_spends (i := first) request limit hclosed
      hidlem hstartedm (by omega)
    exact ⟨hwalk, hstart.trans hsame.started, fun hpt => (hpotential hpt).trans_le (by omega)⟩

/-- The narrow grid is paid for by the coarse one. -/
theorem refine_fuel (h : Sound ops nodeLimit edgeLimit log s) (hstarted : s.started = true) (hopen : s.openNodes = [])
    (hgrid : s.spacing = .grid) : fuel limit (refine ops s) = fuel limit s := by
  obtain ⟨o, ho, -⟩ := (h.graph hstarted).origin
  have hlength := view_lt ho
  obtain ⟨hnodes, -, hperm⟩ := refine_enqueued ops s
  have hone := congrArg List.length hnodes
  rw [List.length_map, List.length_map] at hone
  have hwaiting := hperm.length_eq
  obtain ⟨nodes, openNodes, hqueue⟩ := queue_eq ops (restart ops s) 0
  have hrefine : refine ops s = { restart ops s with nodes, openNodes } := hqueue
  have htotal : (refine ops s).totalNodes = s.totalNodes := by
    rw [Search.totalNodes, hone, hrefine]
    change s.retiredNodes + (s.nodes.length - 1) + 1 = s.retiredNodes + s.nodes.length
    omega
  have hsame : (refine ops s).nodeLimit = s.nodeLimit ∧ (refine ops s).spacing = .narrow ∧
      (refine ops s).edgeLimit = s.edgeLimit ∧ (refine ops s).edgeAttempts = s.edgeAttempts := by
    rw [hrefine]
    exact ⟨rfl, rfl, rfl, rfl⟩
  have hone' : (refine ops s).openNodes.length = 1 := hwaiting
  rw [fuel, fuel, htotal, hsame.1, hsame.2.1, hsame.2.2.1, hsame.2.2.2, hone', hgrid, hopen]
  rfl

variable (limit) in
theorem pickNode_spends (h : Sound ops nodeLimit edgeLimit log s) (hidle : s.edgeActive = false) (hpending : Pending s)
    (hstarted : s.started = true) (hrun : (pickNode ops request s).Runs log' t) :
    Spends limit (fuel limit s) s t := by
  unfold pickNode at hrun
  split at hrun
  next hopen =>
    split at hrun
    · obtain ⟨-, rfl⟩ := Probe.runs_pure.mp hrun
      exact .of_reject _ _ _
    split at hrun
    · obtain ⟨-, rfl⟩ := Probe.runs_pure.mp hrun
      exact .of_reject _ _ _
    next hgrid =>
      split at hrun
      · obtain ⟨-, rfl⟩ := Probe.runs_pure.mp hrun
        exact .of_reject _ _ _
      split at hrun
      · obtain ⟨-, rfl⟩ := Probe.runs_pure.mp hrun
        exact .of_reject _ _ _
      · obtain ⟨⟨hrefined, -⟩, hwaiting⟩ := refine_advances h hpending hstarted
        obtain ⟨nodes, openNodes, hqueue⟩ := queue_eq ops (restart ops s) 0
        have hparts : (refine ops s).edgeActive = false ∧ Pending (refine ops s) ∧
            (refine ops s).started = s.started := by
          rw [refine, hqueue]
          exact ⟨rfl, hpending, rfl⟩
        obtain ⟨hwalk, hstart, hpotential⟩ := expand_spends limit hrefined hparts.1 hparts.2.1
          (hparts.2.2.trans hstarted) hwaiting hrun
        rw [refine_fuel h hstarted (by simpa using hopen) (not_not.mp hgrid)] at hpotential
        exact ⟨hwalk, hstart.trans hparts.2.2, hpotential⟩
  next hopen => exact expand_spends _ h hidle hpending hstarted (by simpa using hopen) hrun

variable (limit) in
theorem select_spends (h : Sound ops nodeLimit edgeLimit log s) (hidle : s.edgeActive = false) (hpending : Pending s)
    (hstarted : s.started = true) (hrun : (select ops request s).Runs log' t) :
    Spends limit (potential limit s) s t := by
  have hpotential := potential_idle limit hstarted hidle
  have hpick : (pickNode ops request s).Runs log' t → Spends limit (potential limit s) s t := by
    intro hpicked
    obtain ⟨hwalk, hstart, hspent⟩ := pickNode_spends limit h hidle hpending hstarted hpicked
    exact ⟨hwalk, hstart, fun hpt => (hspent hpt).trans_le (by omega)⟩
  unfold select at hrun
  split at hrun
  · exact hpick hrun
  · split at hrun
    · exact hpick hrun
    next hnot =>
      obtain ⟨-, rfl⟩ := Probe.runs_pure.mp hrun
      have hdirection := h.direction
      have hflag : flag s = 1 := if_pos (by omega)
      obtain ⟨hwalk, hstart, hspent⟩ := nextEdge_spends request limit h hidle hstarted
        (by omega)
      exact ⟨hwalk, hstart, fun hpt => (hspent hpt).trans_le (by omega)⟩

/-! ### The end of an edge -/

theorem reaches_fuel (h : Sound ops nodeLimit edgeLimit log s) {u : Search F} {j : ℕ} {n : Node F}
    (hreaches : Reaches s u j n) (hframe : ∃ nodes openNodes index, u = { s with nodes, openNodes, index })
    (hroom : s.retiredNodes + max s.nodes.length (j + 1) ≤ s.nodeLimit) : fuel limit u = fuel limit s := by
  have hjoined := hreaches.joined
  have hlength := hreaches.length_le
  have htotal := h.nodes
  have hlimits := h.limits
  obtain ⟨nodes, openNodes, index, rfl⟩ := hframe
  simp only [fuel, Search.totalNodes] at hjoined hlength htotal ⊢
  omega

/-- A node that is made pays for its place among those that wait. -/
theorem acceptEdge_fuel (h : Sound ops nodeLimit edgeLimit log s) (hstarted : s.started = true)
    (hexisting : ∀ j, s.edgeExisting = some j → s.IsWaiting j) (source : ℕ) :
    (acceptEdge ops request source s).state = .rejected ∨
      fuel limit (acceptEdge ops request source s) = fuel limit s := by
  have hgraph := h.graph hstarted
  have htotal := h.nodes
  have hlimits := h.limits
  rw [Search.totalNodes] at htotal
  unfold acceptEdge
  extract_lets endpoint cost
  split
  · exact .inr rfl
  split
  · exact .inr rfl
  split
  next j hj =>
    split
    · exact .inr rfl
    · obtain ⟨n, hn, hwaiting⟩ := hexisting j hj
      have hlt := view_lt hn
      have hreaches := improveNode_reaches source endpoint cost hgraph hn hwaiting
      obtain ⟨nodes, openNodes, hqueue⟩ := queue_eq ops (improveNode s j source endpoint cost) j
      exact .inr (reaches_fuel h hreaches ⟨nodes, openNodes, s.index, hqueue⟩ (by omega))
  next =>
    split
    · exact .inl rfl
    next hroom =>
      have hreaches := addNode_reaches request source endpoint cost hgraph
      obtain ⟨nodes, openNodes, hqueue⟩ := queue_eq ops (addNode ops request s source endpoint cost) s.nodes.length
      rw [Search.totalNodes] at hroom
      exact .inr (reaches_fuel h hreaches ⟨nodes, openNodes, _, hqueue⟩ (by omega))

/-- A call of the walk spends a sample, or ends the edge. -/
theorem walkEdge_spends {budget : UInt32} (hlimit : LivingSurfaceCorridor.SampleLimit ops limit)
    (hroom : limit + 10 ≤ 4294967296) (hbudget : budget.toNat ≤ 8) (hspend : 0 < budget.toNat)
    (h : Sound ops nodeLimit edgeLimit log s) (hactive : s.edgeActive = true) (hwalk : Walk limit s)
    (hrun : (walkEdge ops request budget s).Runs log' t) : Spends limit (potential limit s) s t := by
  obtain ⟨hpending, hstarted⟩ := h.idle hactive
  obtain ⟨i, hwalking⟩ := h.walk hactive
  have hwithin := hwalk hactive
  have hpositive := hwithin.left_pos
  have hpotential : potential limit s = fuel limit s + flag s + (LivingSurfaceCorridor.left limit s.edge + 1) := by
    rw [potential, if_pos hstarted, if_pos hactive]
  obtain ⟨front, back, edge, rfl, hadvance, hlast⟩ := Probe.runs_bind.mp hrun
  obtain ⟨rfl, rfl⟩ := Probe.runs_pure.mp hlast
  have hidle : ∀ u : Search F, u.edgeActive = false → u.started = s.started →
      (u.state = .rejected ∨ fuel limit u = fuel limit s) → Spends limit (potential limit s) s u := by
    intro u hu hstart hfuel
    refine ⟨.of_idle hu, hstart, fun hpu => ?_⟩
    have hsame := hfuel.resolve_left (by simp [hpu])
    have hflag := flag_le u
    rw [potential_idle _ (hstart.trans hstarted) hu]
    omega
  unfold settleEdge
  dsimp only
  split
  next hstate =>
    have hcall : (budget - if s.edge.started then 0 else 1).toNat ≤ 8 ∧
        (s.edge.started = true → 0 < (budget - if s.edge.started then 0 else 1).toNat) := by
      cases s.edge.started with
      | true => simpa using ⟨hbudget, hspend⟩
      | false =>
        have hone : (1 : UInt32) ≤ budget := UInt32.le_iff_toNat_le.mpr hspend
        rw [if_neg Bool.false_ne_true, UInt32.toNat_sub_of_le _ _ hone]
        refine ⟨?_, fun hnot => absurd hnot Bool.false_ne_true⟩
        omega
    obtain ⟨hwithin', hless⟩ := LivingSurfaceCorridor.advance_left hlimit hroom hcall.1 hcall.2 hwithin hadvance hstate
    refine ⟨fun _ => hwithin', rfl, fun _ => ?_⟩
    have hleft : potential limit { s with edge } =
        fuel limit s + flag s + (LivingSurfaceCorridor.left limit edge + 1) := by
      rw [potential]
      exact (if_pos hstarted).trans (congrArg _ (if_pos hactive))
    omega
  next =>
    unfold rejectEdge
    split
    · exact hidle _ rfl rfl (.inr rfl)
    · exact hidle _ rfl rfl (.inr rfl)
  next hstate =>
    have hsettled := h.settle hpending hstarted edge front
    obtain ⟨hsettings, -, hstill⟩ := acceptEdge_settled ops request
      (s := { s with edge, edgeActive := false, lastEdgeFailure := edge.failure }) (s.edgeFrom.getD 0) rfl
    exact hidle _ hstill (congrArg Settings.started hsettings)
      (acceptEdge_fuel hsettled hstarted hwalking.existing (s.edgeFrom.getD 0))

/-! ### Calls -/

theorem search_spends {budget : UInt32} (hlimit : LivingSurfaceCorridor.SampleLimit ops limit)
    (hroom : limit + 10 ≤ 4294967296) (hbudget : budget.toNat ≤ 8) (hspend : 0 < budget.toNat)
    (h : Sound ops nodeLimit edgeLimit log s) (hpending : Pending s) (hstarted : s.started = true) (hwalk : Walk limit s)
    (hrun : (search ops request budget s).Runs log' t) : Spends limit (potential limit s) s t := by
  obtain ⟨front, back, m, rfl, hfirst, hrest⟩ := Probe.runs_bind.mp hrun
  cases hactive : s.edgeActive with
  | true =>
    rw [if_pos hactive] at hfirst
    obtain ⟨rfl, rfl⟩ := Probe.runs_pure.mp hfirst
    rw [if_pos hactive] at hrest
    exact walkEdge_spends hlimit hroom hbudget hspend h hactive hwalk hrest
  | false =>
    rw [if_neg (by simp [hactive])] at hfirst
    obtain ⟨hm, -⟩ := select_advances h hactive hpending hstarted hfirst
    have hchosen := select_spends limit h hactive hpending hstarted hfirst
    cases hwalkm : m.edgeActive with
    | true =>
      rw [if_pos hwalkm] at hrest
      obtain ⟨hwalk', hstart, hspent⟩ :=
        walkEdge_spends hlimit hroom hbudget hspend hm hwalkm hchosen.walk hrest
      have hpm := (hm.idle hwalkm).1
      exact ⟨hwalk', hstart.trans hchosen.started, fun hpt => (hspent hpt).trans (hchosen.potential hpm)⟩
    | false =>
      rw [if_neg (by simp [hwalkm])] at hrest
      obtain ⟨rfl, rfl⟩ := Probe.runs_pure.mp hrest
      exact hchosen

variable (limit) in
/-- The first call pays for the origin. -/
theorem begin_spends (cell : ℤ × ℤ) (h : Sound ops nodeLimit edgeLimit log s) (hidle : s.edgeActive = false)
    (hnew : s.started = false) (hbounds : outOfBounds ops request s = false) :
    (begin ops request s cell).edgeActive = false ∧
      potential limit (begin ops request s cell) < potential limit s := by
  obtain ⟨hnodes, hopen, -, -, hretired⟩ := (h.blank hnew).1
  obtain ⟨hkept, -, hperm⟩ := begin_enqueued ops request cell hnodes hopen
  have hone : (queue ops (admitStart ops request s cell) 0).nodes.length = 1 := by
    have hlengths := congrArg List.length hkept
    rw [List.length_map, List.length_map] at hlengths
    refine hlengths.trans ?_
    change (s.nodes ++ [_]).length = 1
    rw [hnodes]
    rfl
  have hwaiting : (queue ops (admitStart ops request s cell) 0).openNodes.length = 1 := by
    rw [hperm.length_eq]
    change (s.openNodes ++ [0]).length = 1
    rw [hopen]
    rfl
  have hlimit : s.nodeLimit ≠ 0 := by
    intro hzero
    simp [outOfBounds, hzero] at hbounds
  obtain ⟨nodes, openNodes, hqueue⟩ := queue_eq ops (admitStart ops request s cell) 0
  have hbegin : begin ops request s cell = { admitStart ops request s cell with nodes, openNodes, failure := .none } := by
    rw [begin, hqueue]
  rw [hqueue] at hone hwaiting
  dsimp only at hone hwaiting
  have hstill : (begin ops request s cell).edgeActive = false := by rw [hbegin]; exact hidle
  have hstarted : (begin ops request s cell).started = true := by rw [hbegin]; rfl
  have hflag := flag_le (begin ops request s cell)
  have hedges := Nat.mul_le_mul_right (limit + 4) (Nat.sub_le s.edgeLimit s.edgeAttempts)
  have hfuel : fuel limit (begin ops request s cell) ≤ 2 * (s.nodeLimit + 1) + s.edgeLimit * (limit + 4) := by
    rw [hbegin]
    simp only [fuel, Search.totalNodes, admitStart, hretired, hone, hwaiting]
    split <;> split <;> omega
  refine ⟨hstill, ?_⟩
  rw [potential_idle _ hstarted hstill, potential, if_neg (by simp [hnew])]
  omega

/-- A call with a budget spends, as long as the search goes on. -/
theorem advance_spends (hlimit : LivingSurfaceCorridor.SampleLimit ops limit) (hroom : limit + 10 ≤ 4294967296)
    {samples edges : UInt32} (hsamples : samples ≠ 0) (hedges : edges ≠ 0) (h : Sound ops nodeLimit edgeLimit log s)
    (hwalk : Walk limit s) (hpending : Pending s) (hrun : (advance ops request samples edges s).Runs log' t) :
    Walk limit t ∧ (Pending t → potential limit t < potential limit s) := by
  have hpositive : 0 < samples.toNat := by
    refine Nat.pos_of_ne_zero fun hzero => hsamples ?_
    exact UInt32.toNat_inj.mp hzero
  have hmin : (min 8 samples).toNat = min 8 samples.toNat := by
    change (if 8 ≤ samples then 8 else samples).toNat = _
    split
    next hle =>
      have hle' : 8 ≤ samples.toNat := UInt32.le_iff_toNat_le.mp hle
      exact (min_eq_left hle').symm
    next hgt =>
      have hgt' : ¬8 ≤ samples.toNat := fun hle => hgt (UInt32.le_iff_toNat_le.mpr hle)
      exact (min_eq_right (Nat.le_of_not_le hgt')).symm
  unfold advance at hrun
  split at hrun
  · obtain ⟨-, rfl⟩ := Probe.runs_pure.mp hrun
    exact ⟨.of_idle rfl, fun hnot => absurd hnot (by simp [Pending, Search.reject])⟩
  rw [if_neg (by simp [hpending, hsamples, hedges])] at hrun
  dsimp only at hrun
  split at hrun
  next hstarted =>
    obtain ⟨hwalk', -, hspent⟩ := search_spends hlimit hroom (by omega) (by omega) h hpending hstarted hwalk hrun
    exact ⟨hwalk', hspent⟩
  next hnew =>
    replace hnew : s.started = false := by simpa using hnew
    have hidle : s.edgeActive = false := by
      cases hactive : s.edgeActive with
      | false => rfl
      | true => exact absurd (hnew.symm.trans (h.idle hactive).2) Bool.false_ne_true
    obtain ⟨front, back, m, rfl, hfirst, hrest⟩ := Probe.runs_bind.mp hrun
    obtain ⟨reason, rfl⟩ | ⟨hbounds, cell, rfl⟩ := start_cases hfirst
    · rw [if_pos (by simp [Search.reject])] at hrest
      obtain ⟨-, rfl⟩ := Probe.runs_pure.mp hrest
      exact ⟨.of_idle rfl, fun hnot => absurd hnot (by simp [Pending, Search.reject])⟩
    · obtain ⟨hstill, hspent⟩ := begin_spends limit cell h hidle hnew hbounds
      obtain ⟨hbegin, -⟩ := begin_advances cell h hidle hnew hpending hbounds
      obtain ⟨hstate, hstarted⟩ := begin_state ops request (s := s) cell
      split at hrest
      · obtain ⟨-, rfl⟩ := Probe.runs_pure.mp hrest
        exact ⟨.of_idle hstill, fun _ => hspent⟩
      next hmore =>
        have hone : (1 : UInt32) ≤ min 8 samples := UInt32.le_iff_toNat_le.mpr (by rw [hmin]; exact le_min (by decide) hpositive)
        have hsub := UInt32.toNat_sub_of_le _ _ hone
        have hnonzero : (min 8 samples - 1).toNat ≠ 0 := by
          intro hzero
          refine hmore ((Bool.or_eq_true _ _).mpr (.inr (decide_eq_true ?_)))
          exact UInt32.toNat_inj.mp hzero
        have hrest' : 0 < (min 8 samples - 1).toNat ∧ (min 8 samples - 1).toNat ≤ 8 := by omega
        obtain ⟨hwalk', -, hspent'⟩ := search_spends hlimit hroom hrest'.2 hrest'.1 hbegin (hstate.trans hpending)
          hstarted (.of_idle hstill) hrest
        exact ⟨hwalk', fun hpt => (hspent' hpt).trans hspent⟩

/-- However the calls are made and whatever is answered, the search ends after a number of calls that the limits
determine. -/
theorem search_terminates (ops : FloatOps F) (limit : ℕ) (hlimit : LivingSurfaceCorridor.SampleLimit ops limit)
    (hroom : limit + 10 ≤ 4294967296) (fineTurnsEnabled : Bool) (nodeLimit edgeLimit : ℕ)
    (calls : List (Call F × Probe.Transcript (SurfaceQuery F) SurfaceQuery.Answer)) (t : Search F)
    (h : Probe.Steps Pending (Call.advance ops) (.initial ops fineTurnsEnabled nodeLimit edgeLimit) calls t)
    (hbudgets : ∀ call ∈ calls, call.1.budget.samples ≠ 0 ∧ call.1.budget.edges ≠ 0) :
    calls.length ≤ 2 * nodeLimit + edgeLimit * (limit + 4) + 5 := by
  refine h.length_le (P := fun s => (∃ log, Sound ops nodeLimit edgeLimit log s) ∧ Walk limit s)
    (C := fun call => call.budget.samples ≠ 0 ∧ call.budget.edges ≠ 0) (potential limit)
    (fun s call log' m hs hcall hpending hrun => ?_) ⟨⟨[], sound_initial fineTurnsEnabled⟩, .of_idle rfl⟩ hbudgets
  obtain ⟨⟨log, hsound⟩, hwalk⟩ := hs
  obtain ⟨hwalk', hspent⟩ := advance_spends hlimit hroom hcall.1 hcall.2 hsound hwalk hpending hrun
  exact ⟨⟨⟨_, (advance_advances hsound hrun).1⟩, hwalk'⟩, hspent⟩

/-- The search on the level floor, as long as it goes on. -/
def endedRun :=
  Probe.exec levelFloor Pending (Call.advance axisFloats) (List.replicate 20 ⟨sampleRequest, ⟨1, 1⟩⟩)
    (.initial axisFloats false 512 2048)

theorem axisFloats_sampleLimit : LivingSurfaceCorridor.SampleLimit axisFloats 960 := by
  intro a b _ _ ⟨_, hfar⟩
  have hfar' : LivingSurfaceCorridor.distance axisFloats a b ≤ 480 := by
    simpa [axisFloats] using hfar
  change (LivingSurfaceCorridor.distance axisFloats a b / (1 / 2)).ceil.toNat ≤ 960
  have hceil : (LivingSurfaceCorridor.distance axisFloats a b / (1 / 2)).ceil ≤ 960 := by
    rw [Rat.ceil_le_iff]
    norm_num
    linarith
  omega

theorem search_terminates_sample : endedRun.2.state = .complete ∧ endedRun.1.length ≤ 2 * 512 + 2048 * (960 + 4) + 5 := by
  have hbudgets : ∀ call ∈ endedRun.1, call.1.budget.samples ≠ 0 ∧ call.1.budget.edges ≠ 0 := by decide +kernel
  exact ⟨by decide +kernel, search_terminates axisFloats 960 axisFloats_sampleLimit (by decide) false 512 2048 endedRun.1
    endedRun.2 (Probe.steps_exec _ _ _ _ _) hbudgets⟩

end LivingSurfaceDetour

end AIWorld.Agent
