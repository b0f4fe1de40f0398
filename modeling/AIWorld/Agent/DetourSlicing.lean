import AIWorld.Agent.CorridorSlicing
import AIWorld.Agent.DetourParts
import Mathlib.Algebra.Order.Archimedean.Basic
import Mathlib.Algebra.Order.Round

/-! How the search for a way home is cut into calls does not matter either. A call is a number of ticks: the
checks of the first call, the choice of an edge, or one tick of the walk over an edge. -/

namespace AIWorld.Agent.LivingSurfaceDetour

open Lib

variable {F : Type} {ops : FloatOps F} {request : Request F} {s t : Search F}
  {log : Probe.Transcript (SurfaceQuery F) SurfaceQuery.Answer}

/-! ### What stays -/

/-- What is set by the first call and then stays. -/
structure Settings (F : Type) where
  started : Bool
  fromPosition : ActionPosition F
  home : ActionPosition F
  arrivalRadius : F
  limit : F
  fineTurnsEnabled : Bool
  startedFineTurnsEnabled : Bool
  nodeLimit : ℕ
  edgeLimit : ℕ
  startedNodeLimit : ℕ
  startedEdgeLimit : ℕ

def Search.settings (s : Search F) : Settings F where
  started := s.started
  fromPosition := s.fromPosition
  home := s.home
  arrivalRadius := s.arrivalRadius
  limit := s.limit
  fineTurnsEnabled := s.fineTurnsEnabled
  startedFineTurnsEnabled := s.startedFineTurnsEnabled
  nodeLimit := s.nodeLimit
  edgeLimit := s.edgeLimit
  startedNodeLimit := s.startedNodeLimit
  startedEdgeLimit := s.startedEdgeLimit

/-- Settings of a search that was started for a request. -/
structure Settings.For (ops : FloatOps F) (request : Request F) (settings : Settings F) : Prop where
  fromPosition : settings.fromPosition = request.fromPosition
  home : settings.home = request.home
  arrivalRadius : settings.arrivalRadius = request.arrivalRadius
  limit : settings.limit = request.limit
  fineTurnsEnabled : settings.fineTurnsEnabled = settings.startedFineTurnsEnabled
  nodeLimit : settings.nodeLimit = settings.startedNodeLimit
  edgeLimit : settings.edgeLimit = settings.startedEdgeLimit
  finiteFrom : LivingSurfaceCorridor.finite ops request.fromPosition = true
  finiteHome : LivingSurfaceCorridor.finite ops request.home = true
  finiteRadius : ops.isFinite request.arrivalRadius = true
  finiteLimit : ops.isFinite request.limit = true

/-- A search that was not started, or was started for the request. -/
def Keeps (ops : FloatOps F) (request : Request F) (s : Search F) : Prop :=
  s.started = true → s.settings.For ops request

theorem Keeps.of_settings (h : Keeps ops request s) (heq : t.settings = s.settings) : Keeps ops request t := by
  intro hstarted
  rw [heq]
  exact h ((congrArg Settings.started heq).symm.trans hstarted)

theorem Keeps.contextChanged (h : Keeps ops request s) : contextChanged ops request s = false := by
  cases hstarted : s.started with
  | false => simp [LivingSurfaceDetour.contextChanged, hstarted]
  | true =>
    obtain ⟨hfrom, hhome, hradius, hlimit, hfine, hnodes, hedges, hff, hfh, hfr, hfl⟩ := h hstarted
    dsimp only [Search.settings] at hfrom hhome hradius hlimit hfine hnodes hedges
    simp [LivingSurfaceDetour.contextChanged, hfrom, hhome, hradius, hlimit, hfine, hnodes, hedges,
      LivingSurfaceCorridor.same_self hff, LivingSurfaceCorridor.same_self hfh, ops.eq_self hfr, ops.eq_self hfl]

/-! ### The parts -/

theorem queue_settings (i : ℕ) : (queue ops s i).settings = s.settings := by
  obtain ⟨nodes, openNodes, h⟩ := queue_eq ops s i
  rw [h]
  rfl

theorem start_cases (h : (start ops request s).Runs log t) : (∃ reason, t = s.reject reason) ∨
    outOfBounds ops request s = false ∧ ∃ cell, t = begin ops request s cell := by
  unfold start at h
  dsimp only at h
  split at h
  next =>
    obtain ⟨-, rfl⟩ := Probe.runs_pure.mp h
    exact .inl ⟨_, rfl⟩
  next hbounds =>
    obtain rfl | ⟨_, h⟩ := require_cases h
    · exact .inl ⟨_, rfl⟩
    split at h
    · obtain ⟨-, rfl⟩ := Probe.runs_pure.mp h
      exact .inl ⟨_, rfl⟩
    obtain rfl | ⟨_, h⟩ := require_cases h
    · exact .inl ⟨_, rfl⟩
    obtain rfl | ⟨height, _, h⟩ := requireHeight_cases h
    · exact .inl ⟨_, rfl⟩
    split at h
    · obtain ⟨-, rfl⟩ := Probe.runs_pure.mp h
      exact .inl ⟨_, rfl⟩
    split at h <;> obtain ⟨-, rfl⟩ := Probe.runs_pure.mp h
    · exact .inl ⟨_, rfl⟩
    · exact .inr ⟨by simpa using hbounds, _, rfl⟩

theorem begin_settings (cell : ℤ × ℤ) :
    (begin ops request s cell).settings = (admitStart ops request s cell).settings :=
  queue_settings 0

theorem begin_keeps {cell : ℤ × ℤ} (h : outOfBounds ops request s = false) :
    Keeps ops request (begin ops request s cell) := by
  intro _
  simp only [outOfBounds, Bool.or_eq_false_iff, Bool.not_eq_false'] at h
  obtain ⟨⟨⟨⟨⟨⟨⟨⟨⟨⟨⟨⟨hfrom, hhome⟩, -⟩, hradius⟩, -⟩, hlimit⟩, -⟩, -⟩, -⟩, -⟩, -⟩, -⟩, -⟩ := h
  rw [begin_settings]
  exact ⟨rfl, rfl, rfl, rfl, rfl, rfl, rfl, hfrom, hhome, hradius, hlimit⟩

/-- What choosing an edge leaves: the same settings, and a fresh walk when an edge was taken. -/
structure Chosen (ops : FloatOps F) (s t : Search F) : Prop where
  settings : t.settings = s.settings
  direction : t.nextDirection ≤ 8
  edge : t.edgeActive = true → t.edge = .initial ops ∧ t.state = s.state

theorem nextEdge_chosen (i : ℕ) (hdirection : s.nextDirection ≤ 8) (hidle : s.edgeActive = false) :
    Chosen ops s (nextEdge ops request i 9 s) := by
  obtain ⟨c, hc, ⟨heq, -⟩ | heq | ⟨-, stride, offer, -, -, heq⟩⟩ := nextEdge_cases ops request
    i 9 s hdirection
  · rw [heq]
    exact ⟨rfl, hc, fun h => by simp [Search.at, hidle] at h⟩
  · rw [heq]
    exact ⟨rfl, hc, fun h => by simp [Search.reject] at h⟩
  · rw [heq]
    exact ⟨rfl, hc, fun _ => ⟨rfl, rfl⟩⟩

theorem Chosen.of_eq {m : Search F} (h : Chosen ops m t) (hsettings : m.settings = s.settings)
    (hstate : m.state = s.state) : Chosen ops s t :=
  ⟨h.settings.trans hsettings, h.direction, fun he => ⟨(h.edge he).1, (h.edge he).2.trans hstate⟩⟩

theorem expand_chosen (hidle : s.edgeActive = false) (h : (expand ops request s).Runs log t) : Chosen ops s t := by
  obtain ⟨nodes, openNodes, hpop⟩ := pop_eq ops s
  have hclose : ∀ i, (closeNode (pop ops s).2 i).settings = s.settings ∧ (closeNode (pop ops s).2 i).state = s.state ∧
      (closeNode (pop ops s).2 i).edgeActive = false ∧ (closeNode (pop ops s).2 i).nextDirection = 0 := by
    intro i
    rw [hpop]
    exact ⟨rfl, rfl, hidle, rfl⟩
  unfold expand at h
  dsimp only at h
  generalize (pop ops s).1 = i at h
  obtain ⟨hsettings, hstate, hstill, hdirection⟩ := hclose i
  generalize closeNode (pop ops s).2 i = m at h hsettings hstate hstill hdirection
  split at h
  · obtain ⟨front, back, arrived, rfl, -, h⟩ := Probe.runs_bind.mp h
    cases arrived <;> obtain ⟨-, rfl⟩ := Probe.runs_pure.mp h
    · exact ⟨hsettings, hdirection.trans_le (Nat.zero_le _), fun h => by simp [hstill] at h⟩
    · exact ⟨hsettings, hdirection.trans_le (Nat.zero_le _), fun h => by simp [hstill] at h⟩
  · obtain ⟨-, rfl⟩ := Probe.runs_pure.mp h
    exact (nextEdge_chosen i (by omega) hstill).of_eq hsettings hstate

theorem pickNode_chosen (hdirection : s.nextDirection ≤ 8) (hidle : s.edgeActive = false)
    (h : (pickNode ops request s).Runs log t) : Chosen ops s t := by
  have hreject : ∀ reason, Chosen ops s (s.reject reason) :=
    fun reason => ⟨rfl, hdirection, fun h => by simp [Search.reject] at h⟩
  unfold pickNode at h
  split at h
  · split at h
    · obtain ⟨-, rfl⟩ := Probe.runs_pure.mp h
      exact hreject _
    split at h
    · obtain ⟨-, rfl⟩ := Probe.runs_pure.mp h
      exact hreject _
    split at h
    · obtain ⟨-, rfl⟩ := Probe.runs_pure.mp h
      exact hreject _
    split at h
    · obtain ⟨-, rfl⟩ := Probe.runs_pure.mp h
      exact hreject _
    · obtain ⟨nodes, openNodes, hrefine⟩ := queue_eq ops (restart ops s) 0
      rw [refine, hrefine] at h
      exact (expand_chosen rfl h).of_eq rfl rfl
  · exact expand_chosen hidle h

theorem select_chosen (hdirection : s.nextDirection ≤ 8) (hidle : s.edgeActive = false)
    (h : (select ops request s).Runs log t) : Chosen ops s t := by
  unfold select at h
  split at h
  · exact pickNode_chosen hdirection hidle h
  · split at h
    · exact pickNode_chosen hdirection hidle h
    · obtain ⟨-, rfl⟩ := Probe.runs_pure.mp h
      exact nextEdge_chosen _ hdirection hidle

/-- What the end of a walk leaves. -/
structure Settled (s t : Search F) : Prop where
  settings : t.settings = s.settings
  direction : t.nextDirection ≤ s.nextDirection
  edge : t.edgeActive = false

theorem rejectEdge_settled (hidle : s.edgeActive = false) : Settled s (rejectEdge s) := by
  unfold rejectEdge
  split
  · exact ⟨rfl, Nat.sub_le _ _, hidle⟩
  · exact ⟨rfl, le_rfl, hidle⟩

theorem queue_settled (i : ℕ) (hidle : s.edgeActive = false) : Settled s (queue ops s i) := by
  obtain ⟨nodes, openNodes, h⟩ := queue_eq ops s i
  rw [h]
  exact ⟨rfl, le_rfl, hidle⟩

theorem Settled.of_eq {m : Search F} (h : Settled m t) (hsettings : m.settings = s.settings)
    (hdirection : m.nextDirection = s.nextDirection) : Settled s t :=
  ⟨h.settings.trans hsettings, h.direction.trans_eq hdirection, h.edge⟩

theorem acceptEdge_settled (ops : FloatOps F) (request : Request F) (source : ℕ) (hidle : s.edgeActive = false) : Settled s (acceptEdge ops request source s) := by
  have hsame : Settled s s := ⟨rfl, le_rfl, hidle⟩
  unfold acceptEdge
  dsimp only
  split
  · exact ⟨rfl, le_rfl, hidle⟩
  split
  · exact hsame
  split
  · split
    · exact hsame
    · exact (queue_settled (s := improveNode s _ source _ _) _ hidle).of_eq rfl rfl
  · split
    · exact ⟨rfl, le_rfl, rfl⟩
    · exact (queue_settled (s := addNode ops request s source _ _) _ hidle).of_eq rfl rfl

/-- A walk that goes on leaves the search as it is. -/
theorem settleEdge_cases (ops : FloatOps F) (request : Request F) (source : ℕ) : s.edge.state = .pending ∧ settleEdge ops request source s = s ∨
    s.edge.state ≠ .pending ∧ Settled s (settleEdge ops request source s) := by
  unfold settleEdge
  split
  next h => exact .inl ⟨h, rfl⟩
  next h =>
    obtain ⟨hsettings, hdirection, hedge⟩ := rejectEdge_settled
      (s := { s with edgeActive := false, lastEdgeFailure := s.edge.failure }) rfl
    exact .inr ⟨by simp [h], hsettings, hdirection, hedge⟩
  next h =>
    obtain ⟨hsettings, hdirection, hedge⟩ := acceptEdge_settled ops request
      (s := { s with edgeActive := false, lastEdgeFailure := s.edge.failure }) source rfl
    exact .inr ⟨by simp [h], hsettings, hdirection, hedge⟩

/-! ### Ticks -/

abbrev Pending (s : Search F) : Prop := s.state = .pending

/-- The walk of the edge goes on by one tick. -/
def walkTick (ops : FloatOps F) (request : Request F) (s : Search F) : SurfaceProbe F (Search F) := do
  let source := s.edgeFrom.getD 0
  let edge ← LivingSurfaceCorridor.tick ops (edgeRequest ops s source) () s.edge
  pure (settleEdge ops request source { s with edge })

def tick (ops : FloatOps F) (request : Request F) (_ : Unit) (s : Search F) : SurfaceProbe F (Search F) :=
  if s.started then if s.edgeActive then walkTick ops request s else select ops request s
  else start ops request s

/-- A walk that is under way can go on. -/
structure Walks (ops : FloatOps F) (s : Search F) : Prop where
  pending : s.edge.state = .pending
  awaits : LivingSurfaceCorridor.Awaits ops (edgeRequest ops s (s.edgeFrom.getD 0)) s.edge

/-- A search that can go on. -/
structure Ready (ops : FloatOps F) (request : Request F) (s : Search F) : Prop where
  keeps : Keeps ops request s
  direction : s.nextDirection ≤ 8
  unstarted : s.started = false → s.edgeActive = false
  walk : s.edgeActive = true → Walks ops s

theorem ready_initial (fineTurnsEnabled : Bool) (nodeLimit edgeLimit : ℕ) :
    Ready ops request (.initial ops fineTurnsEnabled nodeLimit edgeLimit) := by
  refine ⟨?_, Nat.zero_le _, fun _ => rfl, ?_⟩
  · intro h
    contradiction
  · intro h
    contradiction

theorem Ready.reject (h : Ready ops request s) (reason : SurfaceFailure) : Ready ops request (s.reject reason) :=
  ⟨h.keeps, h.direction, fun _ => rfl, fun h => by simp [Search.reject] at h⟩

theorem Settled.ready (h : Ready ops request s) (hst : Settled s t) : Ready ops request t :=
  ⟨h.keeps.of_settings hst.settings, hst.direction.trans h.direction, fun _ => hst.edge,
    fun he => by simp [hst.edge] at he⟩

theorem Chosen.ready (h : Ready ops request s) (hst : Chosen ops s t)
    (hstarted : s.started = true) : Ready ops request t := by
  refine ⟨h.keeps.of_settings hst.settings, hst.direction, fun hnot => ?_, fun he => ?_⟩
  · have hsame : t.started = s.started := congrArg Settings.started hst.settings
    rw [hsame, hstarted] at hnot
    contradiction
  · obtain ⟨hedge, -⟩ := hst.edge he
    refine ⟨?_, ?_⟩
    · rw [hedge]
      rfl
    · rw [hedge]
      exact LivingSurfaceCorridor.awaits_initial

/-- Ticks of a walk are ticks of the search. -/
theorem walk_ticks {source : ℕ} (hsource : s.edgeFrom.getD 0 = source) (hpending : Pending s)
    (hstarted : s.started = true) (hactive : s.edgeActive = true) (hedge : s.edge.state = .pending)
    {ticks : List (Unit × Probe.Transcript (SurfaceQuery F) SurfaceQuery.Answer)} {edge : LivingSurfaceCorridor.Search F}
    (h : Probe.Steps LivingSurfaceCorridor.Pending (LivingSurfaceCorridor.tick ops (edgeRequest ops s source)) s.edge
      ticks edge) :
    ∃ ticks', Probe.Steps Pending (tick ops request) s ticks' (settleEdge ops request source { s with edge }) ∧
      Probe.transcript ticks' = Probe.transcript ticks := by
  generalize hcurrent : s.edge = current at h hedge
  generalize hrequest : edgeRequest ops s source = walked at h
  induction h generalizing s with
  | nil =>
    subst hcurrent
    have hsame : settleEdge ops request source s = s := by
      obtain ⟨-, hsame⟩ | ⟨hnot, -⟩ := settleEdge_cases ops request (s := s) source
      · exact hsame
      · exact absurd hedge hnot
    refine ⟨[], ?_, rfl⟩
    change Probe.Steps Pending (tick ops request) s [] (settleEdge ops request source s)
    rw [hsame]
    exact .nil s
  | @cons current m edge i log rest hlive hrun hrest ih =>
    have htick : (tick ops request () s).Runs log (settleEdge ops request source { s with edge := m }) := by
      rw [tick, if_pos hstarted, if_pos hactive, walkTick]
      refine Probe.runs_bind.mpr ⟨log, [], m, (List.append_nil log).symm, ?_, ?_⟩
      · rw [hsource, hrequest, hcurrent]
        exact hrun
      · rw [hsource]
        exact Probe.runs_pure.mpr ⟨rfl, rfl⟩
    obtain ⟨hm, hsame⟩ | ⟨hm, -⟩ := settleEdge_cases ops request (s := { s with edge := m }) source
    · obtain ⟨ticks', hticks', hlog⟩ := ih (s := { s with edge := m }) hsource hpending hstarted hactive rfl hm hrequest
      rw [hsame] at htick
      exact ⟨((), log) :: ticks', .cons hpending htick hticks', by rw [Probe.transcript_cons, hlog]; rfl⟩
    · obtain ⟨rfl, rfl⟩ := hrest.eq_of_not_live hm
      exact ⟨[((), log)], .cons hpending htick (.nil _), rfl⟩

theorem walkEdge_ticks {budget : UInt32} (hready : Ready ops request s) (hpending : Pending s)
    (hstarted : s.started = true) (hactive : s.edgeActive = true) (h : (walkEdge ops request budget s).Runs log t) :
    Ready ops request t ∧ ∃ ticks, Probe.Steps Pending (tick ops request) s ticks t ∧ Probe.transcript ticks = log := by
  obtain ⟨hedge, hawaits⟩ := hready.walk hactive
  obtain ⟨front, back, edge, rfl, hadvance, hlast⟩ := Probe.runs_bind.mp h
  obtain ⟨rfl, rfl⟩ := Probe.runs_pure.mp hlast
  obtain ⟨hkept, ticks, hticks, hlog⟩ := LivingSurfaceCorridor.advance_ticks hawaits hedge hadvance
  obtain ⟨ticks', hticks', hlog'⟩ := walk_ticks rfl hpending hstarted hactive hedge hticks
  refine ⟨?_, ticks', hticks', by rw [hlog', hlog, List.append_nil]⟩
  obtain ⟨hwalks, hsame⟩ | ⟨-, hsettled⟩ := settleEdge_cases ops request (s := { s with edge })
    (s.edgeFrom.getD 0)
  · rw [hsame]
    exact ⟨hready.keeps, hready.direction, hready.unstarted, fun _ => ⟨hwalks, hkept⟩⟩
  · exact Settled.ready (s := s) hready ⟨hsettled.settings, hsettled.direction, hsettled.edge⟩

theorem search_ticks {budget : UInt32} (hready : Ready ops request s) (hpending : Pending s)
    (hstarted : s.started = true) (h : (search ops request budget s).Runs log t) :
    Ready ops request t ∧ ∃ ticks, Probe.Steps Pending (tick ops request) s ticks t ∧ Probe.transcript ticks = log := by
  obtain ⟨front, back, m, rfl, hfirst, hrest⟩ := Probe.runs_bind.mp h
  cases hactive : s.edgeActive with
  | true =>
    rw [if_pos hactive] at hfirst
    obtain ⟨rfl, rfl⟩ := Probe.runs_pure.mp hfirst
    rw [if_pos hactive] at hrest
    exact walkEdge_ticks hready hpending hstarted hactive hrest
  | false =>
    rw [if_neg (by simp [hactive])] at hfirst
    have htick : (tick ops request () s).Runs front m := by
      rw [tick, if_pos hstarted, if_neg (by simp [hactive])]
      exact hfirst
    have hchosen := select_chosen hready.direction hactive hfirst
    have hready' := hchosen.ready hready hstarted
    cases hm : m.edgeActive with
    | true =>
      rw [if_pos hm] at hrest
      have hstarted' : m.started = true := (congrArg Settings.started hchosen.settings).trans hstarted
      have hpending' : Pending m := (hchosen.edge hm).2.trans hpending
      obtain ⟨hkept, ticks, hticks, hlog⟩ := walkEdge_ticks hready' hpending' hstarted' hm hrest
      exact ⟨hkept, ((), front) :: ticks, .cons hpending htick hticks, by rw [Probe.transcript_cons, hlog]⟩
    | false =>
      rw [if_neg (by simp [hm])] at hrest
      obtain ⟨rfl, rfl⟩ := Probe.runs_pure.mp hrest
      exact ⟨hready', [((), front)], .cons hpending htick (.nil _), rfl⟩

/-- One call's budgets. -/
structure Budget where
  samples : UInt32
  edges : UInt32

def advanceBy (ops : FloatOps F) (request : Request F) (budget : Budget) (s : Search F) : SurfaceProbe F (Search F) :=
  advance ops request budget.samples budget.edges s

theorem begin_ready (cell : ℤ × ℤ) (hready : Ready ops request s) (hnew : s.started = false)
    (h : outOfBounds ops request s = false) : Ready ops request (begin ops request s cell) := by
  obtain ⟨nodes, openNodes, hqueue⟩ := queue_eq ops (admitStart ops request s cell) 0
  have hidle : (begin ops request s cell).edgeActive = false := by
    rw [begin, hqueue]
    exact hready.unstarted hnew
  refine ⟨begin_keeps h, ?_, fun _ => hidle, fun he => by simp [hidle] at he⟩
  rw [begin, hqueue]
  exact hready.direction

theorem begin_state (ops : FloatOps F) (request : Request F) (cell : ℤ × ℤ) :
    (begin ops request s cell).state = s.state ∧ (begin ops request s cell).started = true := by
  obtain ⟨nodes, openNodes, hqueue⟩ := queue_eq ops (admitStart ops request s cell) 0
  rw [begin, hqueue]
  exact ⟨rfl, rfl⟩

/-- A call is a number of ticks. -/
theorem advance_ticks {budget : Budget} (hready : Ready ops request s) (hpending : Pending s)
    (h : (advanceBy ops request budget s).Runs log t) :
    Ready ops request t ∧ ∃ ticks, Probe.Steps Pending (tick ops request) s ticks t ∧ Probe.transcript ticks = log := by
  unfold advanceBy advance at h
  rw [if_neg (by simp [hready.keeps.contextChanged])] at h
  split at h
  · obtain ⟨rfl, rfl⟩ := Probe.runs_pure.mp h
    exact ⟨hready, [], .nil _, rfl⟩
  · dsimp only at h
    split at h
    next hstarted => exact search_ticks hready hpending hstarted h
    next hnew =>
      replace hnew : s.started = false := by simpa using hnew
      obtain ⟨front, back, m, rfl, hfirst, hrest⟩ := Probe.runs_bind.mp h
      have htick : (tick ops request () s).Runs front m := by
        rw [tick, if_neg (by simp [hnew])]
        exact hfirst
      have hdone : Ready ops request m → t = m → back = [] → Ready ops request t ∧ ∃ ticks,
          Probe.Steps Pending (tick ops request) s ticks t ∧ Probe.transcript ticks = front ++ back := by
        rintro hm rfl rfl
        exact ⟨hm, [((), front)], .cons hpending htick (.nil _), rfl⟩
      obtain ⟨reason, rfl⟩ | ⟨hbounds, cell, rfl⟩ := start_cases hfirst
      · rw [if_pos (by simp [Search.reject])] at hrest
        obtain ⟨rfl, rfl⟩ := Probe.runs_pure.mp hrest
        exact hdone (hready.reject reason) rfl rfl
      · have hready' := begin_ready cell hready hnew hbounds
        obtain ⟨hstate, hstarted⟩ := begin_state ops request (s := s) cell
        split at hrest
        · obtain ⟨rfl, rfl⟩ := Probe.runs_pure.mp hrest
          exact hdone hready' rfl rfl
        · obtain ⟨hkept, ticks, hticks, hlog⟩ := search_ticks hready' (hstate.trans hpending) hstarted hrest
          exact ⟨hkept, ((), front) :: ticks, .cons hpending htick hticks, by rw [Probe.transcript_cons, hlog]⟩

/-! ### Slicing -/

/-- Calls keep a search ready, also when it has come to its end. -/
theorem ready_of_steps {live : Search F → Prop} {fineTurnsEnabled : Bool} {nodeLimit edgeLimit : ℕ}
    {calls : List (Budget × Probe.Transcript (SurfaceQuery F) SurfaceQuery.Answer)}
    (h : Probe.Steps live (advanceBy ops request) (.initial ops fineTurnsEnabled nodeLimit edgeLimit) calls s) :
    Ready ops request s := by
  refine h.keeps (fun s budget log t hready _ hrun => ?_) (ready_initial _ _ _)
  by_cases hpending : Pending s
  · exact (advance_ticks hready hpending hrun).1
  · rw [advanceBy, advance, if_neg (by simp [hready.keeps.contextChanged]), if_pos (by simp [hpending])] at hrun
    obtain ⟨-, rfl⟩ := Probe.runs_pure.mp hrun
    exact hready

/-- The same answers lead every sequence of calls to the same end. -/
theorem calls_unique (f : ∀ q : SurfaceQuery F, q.Answer) {fineTurnsEnabled : Bool} {nodeLimit edgeLimit : ℕ}
    {calls calls' : List (Budget × Probe.Transcript (SurfaceQuery F) SurfaceQuery.Answer)} {t' : Search F}
    (h : Probe.Steps Pending (advanceBy ops request) (.initial ops fineTurnsEnabled nodeLimit edgeLimit) calls t)
    (h' : Probe.Steps Pending (advanceBy ops request) (.initial ops fineTurnsEnabled nodeLimit edgeLimit) calls' t')
    (ht : ¬Pending t) (ht' : ¬Pending t') (hf : Probe.AnsweredBy f (Probe.transcript calls))
    (hf' : Probe.AnsweredBy f (Probe.transcript calls')) :
    t = t' ∧ Probe.transcript calls = Probe.transcript calls' := by
  obtain ⟨ticks, hticks, hlog⟩ := h.refine (fun s i log m hs hlive h => advance_ticks hs hlive h) (ready_initial _ _ _)
  obtain ⟨ticks', hticks', hlog'⟩ := h'.refine (fun s i log m hs hlive h => advance_ticks hs hlive h) (ready_initial _ _ _)
  rw [← hlog] at hf
  rw [← hlog'] at hf'
  obtain ⟨hlogs, heq⟩ := hticks.unique hticks' ht ht' hf hf'
  exact ⟨heq, hlog.symm.trans (hlogs.trans hlog')⟩

/-- The walk and the search end in the same state with the same questions, however they are cut into calls. A call
without a budget asks nothing and changes nothing. -/
theorem slicing (ops : FloatOps F) (f : ∀ q : SurfaceQuery F, q.Answer) :
    (∀ (request : LivingSurfaceCorridor.Request F)
        (calls calls' : List (UInt32 × Probe.Transcript (SurfaceQuery F) SurfaceQuery.Answer))
        (t t' : LivingSurfaceCorridor.Search F), LivingSurfaceCorridor.Calls ops request (.initial ops) calls t →
        LivingSurfaceCorridor.Calls ops request (.initial ops) calls' t' → t.state ≠ .pending → t'.state ≠ .pending →
        Probe.AnsweredBy f (Probe.transcript calls) → Probe.AnsweredBy f (Probe.transcript calls') →
        t = t' ∧ Probe.transcript calls = Probe.transcript calls') ∧
      ∀ (request : Request F) (fineTurnsEnabled : Bool) (nodeLimit edgeLimit : ℕ)
        (calls : List (Budget × Probe.Transcript (SurfaceQuery F) SurfaceQuery.Answer)) (t : Search F),
        (∀ (calls' : List (Budget × Probe.Transcript (SurfaceQuery F) SurfaceQuery.Answer)) (t' : Search F),
          Probe.Steps Pending (advanceBy ops request) (.initial ops fineTurnsEnabled nodeLimit edgeLimit) calls t →
          Probe.Steps Pending (advanceBy ops request) (.initial ops fineTurnsEnabled nodeLimit edgeLimit) calls' t' →
          t.state ≠ .pending → t'.state ≠ .pending →
          Probe.AnsweredBy f (Probe.transcript calls) → Probe.AnsweredBy f (Probe.transcript calls') →
          t = t' ∧ Probe.transcript calls = Probe.transcript calls') ∧
        (Probe.Steps (fun _ => True) (advanceBy ops request) (.initial ops fineTurnsEnabled nodeLimit edgeLimit) calls t →
          ∀ budget : Budget, budget.samples = 0 ∨ budget.edges = 0 → advanceBy ops request budget t = pure t) := by
  refine ⟨fun request calls calls' t t' h h' ht ht' hf hf' => ?_,
    fun request fineTurnsEnabled nodeLimit edgeLimit calls t => ⟨fun calls' t' h h' ht ht' hf hf' => ?_,
      fun h budget hzero => ?_⟩⟩
  · exact LivingSurfaceCorridor.calls_unique f h h' ht ht' hf hf'
  · exact calls_unique f h h' ht ht' hf hf'
  · have hready := ready_of_steps h
    rw [advanceBy, advance, if_neg (by simp [hready.keeps.contextChanged]), if_pos]
    simpa [or_assoc] using Or.inr hzero

/-- Exact arithmetic; lengths are exact along the axes. -/
def axisFloats : FloatOps ℚ where
  lit := id
  add := (· + ·)
  sub := (· - ·)
  mul := (· * ·)
  div := (· / ·)
  abs := fun x => |x|
  hypot := fun x y => max |x| |y|
  hypot3 := fun x y z => max |x| (max |y| |z|)
  ceil := fun x => x.ceil.toNat
  roundQuotient := fun x q => some (round (x / q))
  isFinite := fun _ => true
  lt := fun x y => x < y
  le := fun x y => x ≤ y
  eq := fun x y => x = y
  eq_self := by simp

/-- A level floor along one axis. -/
def levelFloor : ∀ q : SurfaceQuery ℚ, q.Answer
  | .heightAt _ => (some 0 : Option ℚ)
  | .clearSegment _ _ => true
  | .contains _ => true
  | .hasTile p => decide (p.y = 0)
  | .isGoal _ => true

def sampleRequest : Request ℚ := ⟨⟨1, 0, 0, 0⟩, ⟨1, 3, 0, 0⟩, 1, 100⟩

/-- The search on the level floor, in calls of one budget. -/
def sampleRun (samples : UInt32) :=
  Probe.exec levelFloor Pending (advanceBy axisFloats sampleRequest) (List.replicate 20 ⟨samples, 1⟩)
    (.initial axisFloats false 512 2048)

theorem slicing_sample : (sampleRun 1).2.route = [⟨1, 5 / 2, 0, 0⟩] ∧ (sampleRun 1).2 = (sampleRun 8).2 ∧
    Probe.transcript (sampleRun 1).1 = Probe.transcript (sampleRun 8).1 := by
  have hone : (sampleRun 1).2.state = .complete ∧ (sampleRun 1).2.route = [⟨1, 5 / 2, 0, 0⟩] := by decide +kernel
  have height : (sampleRun 8).2.state = .complete := by decide +kernel
  have hsame := ((slicing axisFloats levelFloor).2 sampleRequest false 512 2048 (sampleRun 1).1 (sampleRun 1).2).1
    (sampleRun 8).1 (sampleRun 8).2 (Probe.steps_exec _ _ _ _ _) (Probe.steps_exec _ _ _ _ _) (by simp [hone.1])
    (by simp [height]) (Probe.answeredBy_exec _ _ _ _ _) (Probe.answeredBy_exec _ _ _ _ _)
  exact ⟨hone.2, hsame⟩

end AIWorld.Agent.LivingSurfaceDetour
