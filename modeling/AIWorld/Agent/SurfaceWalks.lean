import AIWorld.Agent.CorridorSlicing
import AIWorld.Agent.CorridorCoverage

/-! What the walks over the surface have asked, in exact arithmetic. A walk that is complete has asked for the
floor at every place of its route, and whether the place belongs to the bounds and the way to it is clear; a
walk that fails publishes nothing. -/

namespace AIWorld.Agent

open Lib

abbrev SurfaceLog := Probe.Transcript (SurfaceQuery ℝ) SurfaceQuery.Answer

/-! ### Questions -/

section Questions
variable {σ : Type} {log : SurfaceLog} {t failed : σ} {p a b : ActionPosition ℝ} {granted : Bool}

def Contained (log : SurfaceLog) (p : ActionPosition ℝ) : Prop := ⟨.contains p, true⟩ ∈ log

def Clear (log : SurfaceLog) (a b : ActionPosition ℝ) : Prop := ⟨.clearSegment a b, true⟩ ∈ log

/-- The floor that was found at a place. -/
def Floor (log : SurfaceLog) (p : ActionPosition ℝ) (height : ℝ) : Prop := ⟨.heightAt p, some height⟩ ∈ log

theorem require_runs {asked : SurfaceProbe ℝ Bool} {next : SurfaceProbe ℝ σ}
    (h : (require asked failed next).Runs log t) :
    t = failed ∨ ∃ front rest, log = front ++ rest ∧ asked.Runs front true ∧ next.Runs rest t := by
  obtain ⟨front, back, granted, rfl, hasked, h⟩ := Probe.runs_bind.mp h
  cases granted with
  | false => exact .inl (Probe.runs_pure.mp h).2
  | true => exact .inr ⟨front, back, rfl, hasked, h⟩

/-- A single question, with its answer. -/
theorem ask_runs {q : SurfaceQuery ℝ} {answer : q.Answer} (h : Probe.Runs (.ask q .done) log answer) :
    (⟨q, answer⟩ : Σ q, SurfaceQuery.Answer q) ∈ log := by
  obtain ⟨answer', rest, rfl, hdone⟩ := Probe.runs_ask.mp h
  obtain ⟨-, rfl⟩ := Probe.runs_pure.mp hdone
  exact List.mem_cons_self

theorem contains_runs (h : (contains p).Runs log true) : Contained log p := ask_runs h

theorem clearSegment_runs (h : (clearSegment a b).Runs log true) : Clear log a b := ask_runs h

theorem requireHeight_runs {next : ℝ → SurfaceProbe ℝ σ} (h : (requireHeight exactFloats p failed next).Runs log t) :
    t = failed ∨ ∃ height front rest, log = front ++ rest ∧ Floor front p height ∧ (next height).Runs rest t := by
  obtain ⟨front, back, answer, rfl, hasked, h⟩ := Probe.runs_bind.mp h
  have hfloor := ask_runs hasked
  cases answer with
  | none => exact .inl (Probe.runs_pure.mp h).2
  | some height => 
    dsimp only at h
    rw [exact_isFinite, if_pos rfl] at h
    exact .inr ⟨height, front, back, rfl, hfloor, h⟩

end Questions

/-! ### Places on the way -/

/-- The place after `i` of `n` steps from one position to another, at a height. -/
noncomputable def place (source target : ActionPosition ℝ) (n i : ℕ) (z : ℝ) : ActionPosition ℝ :=
  ⟨source.mapId, source.x + (target.x - source.x) * (i / n), source.y + (target.y - source.y) * (i / n), z⟩

noncomputable def reach (source target : ActionPosition ℝ) : ℝ :=
  √((target.x - source.x) ^ 2 + (target.y - source.y) ^ 2)

theorem place_last (source target : ActionPosition ℝ) {n : ℕ} (hn : n ≠ 0) (z : ℝ) :
    (place source target n n z).x = target.x ∧ (place source target n n z).y = target.y := by
  have hone : (n : ℝ) / n = 1 := div_self (Nat.cast_ne_zero.mpr hn)
  simp [place, hone]

/-- As many half-yard steps as there are reach at least as far. -/
theorem reach_div_le {r : ℝ} (hr : 0 < r) : r / ⌈r / (1 / 2)⌉₊ ≤ 1 / 2 := by
  have hle : r / (1 / 2) ≤ ⌈r / (1 / 2)⌉₊ := Nat.le_ceil _
  have hpos : (0 : ℝ) < ⌈r / (1 / 2)⌉₊ := Nat.cast_pos.mpr (Nat.ceil_pos.mpr (by positivity))
  rw [div_le_iff₀ hpos]
  linarith

namespace LivingSurfaceCorridor

variable {request : Request ℝ} {s t : Search ℝ} {log : SurfaceLog}

theorem samplePoint_exact (request : Request ℝ) (s : Search ℝ) : samplePoint exactFloats request s =
    place request.fromPosition request.target s.samples s.nextSample s.previousHeight := by
  simp [samplePoint, place]

theorem sample_runs (h : (sample exactFloats request s).Runs log t) : t.state = .rejected ∧ t.route = [] ∨
    ∃ height point, point = place request.fromPosition request.target s.samples s.nextSample height ∧
      Floor log (samplePoint exactFloats request s) height ∧ |height - s.previousHeight| ≤ 3 / 4 ∧
      Contained log point ∧ Clear log (s.route.getLastD request.fromPosition) point ∧ t.length ≤ 480 ∧
      t = { s with
        length := s.length + stride exactFloats (s.route.getLastD request.fromPosition) point
        route := s.route ++ [point]
        previousHeight := height
        nextSample := s.nextSample + 1 } := by
  unfold sample at h
  dsimp only at h
  obtain rfl | ⟨_, _, rfl, -, h⟩ := require_runs h
  · exact .inl ⟨rfl, rfl⟩
  obtain rfl | ⟨height, _, _, rfl, hfloor, h⟩ := requireHeight_runs h
  · exact .inl ⟨rfl, rfl⟩
  split at h
  · obtain ⟨-, rfl⟩ := Probe.runs_pure.mp h
    exact .inl ⟨rfl, rfl⟩
  next hcliff =>
    obtain rfl | ⟨_, _, rfl, hcontained, h⟩ := require_runs h
    · exact .inl ⟨rfl, rfl⟩
    obtain rfl | ⟨_, _, rfl, hclear, h⟩ := require_runs h
    · exact .inl ⟨rfl, rfl⟩
    replace hcontained := contains_runs hcontained
    replace hclear := clearSegment_runs hclear
    split at h
    · obtain ⟨-, rfl⟩ := Probe.runs_pure.mp h
      exact .inl ⟨rfl, rfl⟩
    next hlength =>
      obtain ⟨-, rfl⟩ := Probe.runs_pure.mp h
      simp only [exact_lt, exact_abs, exact_sub, exact_lit, decide_eq_true_eq, not_lt] at hcliff hlength
      refine .inr ⟨height, _, by rw [samplePoint_exact]; rfl, List.mem_append_right _ (List.mem_append_left _ hfloor), ?_,
        List.mem_append_right _ (List.mem_append_right _ (List.mem_append_left _ hcontained)),
        List.mem_append_right _ (List.mem_append_right _ (List.mem_append_right _ (List.mem_append_left _ hclear))), ?_, rfl⟩
      · exact hcliff.trans_eq (by norm_num)
      · exact hlength.trans_eq (by norm_num)

theorem start_runs (h : (start exactFloats request s).Runs log t) : t.state = .rejected ∧ t.route = [] ∨
    ∃ height, Floor log request.fromPosition height ∧ Contained log request.fromPosition ∧
      1 / 100 ≤ reach request.fromPosition request.target ∧ reach request.fromPosition request.target ≤ 480 ∧
      t = { s with
        started := true
        fromPosition := request.fromPosition
        target := request.target
        resolveEndpointHeight := request.resolveEndpointHeight
        previousHeight := height
        samples := ⌈reach request.fromPosition request.target / (1 / 2)⌉₊
        route := s.route ++ [request.fromPosition]
        failure := .none } := by
  unfold start at h
  dsimp only at h
  split at h
  · obtain ⟨-, rfl⟩ := Probe.runs_pure.mp h
    exact .inl ⟨rfl, rfl⟩
  obtain rfl | ⟨_, _, rfl, hcontained, h⟩ := require_runs h
  · exact .inl ⟨rfl, rfl⟩
  obtain rfl | ⟨_, _, rfl, -, h⟩ := require_runs h
  · exact .inl ⟨rfl, rfl⟩
  obtain rfl | ⟨_, _, rfl, -, h⟩ := require_runs h
  · exact .inl ⟨rfl, rfl⟩
  obtain rfl | ⟨_, _, rfl, -, h⟩ := require_runs h
  · exact .inl ⟨rfl, rfl⟩
  replace hcontained := contains_runs hcontained
  split at h
  · obtain ⟨-, rfl⟩ := Probe.runs_pure.mp h
    exact .inl ⟨rfl, rfl⟩
  next hrange =>
    simp only [exact_lt, exact_hypot, exact_sub, exact_lit, Bool.or_eq_true, decide_eq_true_eq, not_or, not_lt] at hrange
    obtain rfl | ⟨height, _, _, rfl, hfloor, h⟩ := requireHeight_runs h
    · exact .inl ⟨rfl, rfl⟩
    split at h
    · obtain ⟨-, rfl⟩ := Probe.runs_pure.mp h
      exact .inl ⟨rfl, rfl⟩
    · obtain ⟨-, rfl⟩ := Probe.runs_pure.mp h
      refine .inr ⟨height, ?_, List.mem_append_left _ hcontained, hrange.1.trans_eq' (by norm_num),
        hrange.2.trans_eq (by norm_num), ?_⟩
      · simp only [← List.append_assoc]
        exact List.mem_append_left _ (List.mem_append_right _ hfloor)
      · simp [reach]

/-! ### A walk under way -/

/-- What a walk has found out after `k` samples: the floor at the start and at every place of its route. -/
structure Surveyed (request : Request ℝ) (log : SurfaceLog) (s : Search ℝ) (floors : ℕ → ℝ) (k : ℕ) : Prop where
  route : s.route = request.fromPosition ::
    (List.range' 1 k).map fun i => place request.fromPosition request.target s.samples i (floors i)
  nextSample : s.nextSample = k + 1
  samples : s.samples = ⌈reach request.fromPosition request.target / (1 / 2)⌉₊
  range : 1 / 100 ≤ reach request.fromPosition request.target ∧ reach request.fromPosition request.target ≤ 480
  previousHeight : s.previousHeight = floors k
  origin : Floor log request.fromPosition (floors 0) ∧ Contained log request.fromPosition
  floor : ∀ i < k, Floor log (place request.fromPosition request.target s.samples (i + 1) (floors i)) (floors (i + 1)) ∧
    |floors (i + 1) - floors i| ≤ 3 / 4 ∧
    Contained log (place request.fromPosition request.target s.samples (i + 1) (floors (i + 1)))
  clear : s.route.IsChain (Clear log)
  length : s.length = wayLength exactFloats s.route ∧ s.length ≤ 480

/-- How a search stands: it waits for its first call, or has surveyed its route, or publishes none. -/
def Sound (request : Request ℝ) (log : SurfaceLog) (s : Search ℝ) : Prop :=
  (s.state = .rejected ∧ s.route = []) ∨
  (Pending s ∧ s.started = false ∧ s.route = [] ∧ s.nextSample = 1 ∧ s.length = 0) ∨
  (s.started = true ∧ ∃ floors k, Surveyed request log s floors k ∧
    (Pending s ∧ k < s.samples ∨ s.state = .complete ∧ k = s.samples))

theorem Surveyed.mono {floors : ℕ → ℝ} {k : ℕ} {log' : SurfaceLog} (h : Surveyed request log s floors k)
    (hlog : ∀ e ∈ log, e ∈ log') : Surveyed request log' s floors k :=
  { h with
    origin := ⟨hlog _ h.origin.1, hlog _ h.origin.2⟩
    floor := fun i hi => ⟨hlog _ (h.floor i hi).1, (h.floor i hi).2.1, hlog _ (h.floor i hi).2.2⟩
    clear := h.clear.imp fun _ _ => hlog _ }

/-- The first call surveys the start. -/
theorem Surveyed.begin {height : ℝ} (hroute : s.route = []) (hnext : s.nextSample = 1) (hlength : s.length = 0)
    (hfloor : Floor log request.fromPosition height) (hcontained : Contained log request.fromPosition)
    (hrange : 1 / 100 ≤ reach request.fromPosition request.target ∧ reach request.fromPosition request.target ≤ 480) :
    Surveyed request log { s with
      started := true
      fromPosition := request.fromPosition
      target := request.target
      resolveEndpointHeight := request.resolveEndpointHeight
      previousHeight := height
      samples := ⌈reach request.fromPosition request.target / (1 / 2)⌉₊
      route := s.route ++ [request.fromPosition]
      failure := .none } (fun _ => height) 0 := by
  refine ⟨by simp [hroute], hnext, rfl, hrange, rfl, ⟨hfloor, hcontained⟩, by simp, by simp [hroute], ?_⟩
  simp [hroute, hlength, wayLength]

/-- A sample surveys one more place. -/
theorem Surveyed.sample {floors : ℕ → ℝ} {k : ℕ} {height : ℝ} {point : ActionPosition ℝ}
    (h : Surveyed request log s floors k)
    (hpoint : point = place request.fromPosition request.target s.samples s.nextSample height)
    (hfloor : Floor log (samplePoint exactFloats request s) height) (hcliff : |height - s.previousHeight| ≤ 3 / 4)
    (hcontained : Contained log point) (hclear : Clear log (s.route.getLastD request.fromPosition) point)
    (hlength : s.length + stride exactFloats (s.route.getLastD request.fromPosition) point ≤ 480) :
    Surveyed request log { s with
      length := s.length + stride exactFloats (s.route.getLastD request.fromPosition) point
      route := s.route ++ [point]
      previousHeight := height
      nextSample := s.nextSample + 1 } (Function.update floors (k + 1) height) (k + 1) := by
  have hold : ∀ i ≤ k, Function.update floors (k + 1) height i = floors i := fun i hi =>
    Function.update_of_ne (by omega) _ _
  have hnew : Function.update floors (k + 1) height (k + 1) = height := Function.update_self _ _ _
  rw [samplePoint_exact, h.nextSample, h.previousHeight] at hfloor
  rw [h.previousHeight] at hcliff
  rw [h.nextSample] at hpoint
  have hne : s.route ≠ [] := by simp [h.route]
  refine ⟨?_, by simp [h.nextSample], h.samples, h.range, hnew.symm, by rw [hold 0 (by omega)]; exact h.origin, fun i hi => ?_,
    ?_, ?_, hlength⟩
  · have hmap : (List.range' 1 k).map (fun i => place request.fromPosition request.target s.samples i
        (Function.update floors (k + 1) height i)) =
        (List.range' 1 k).map fun i => place request.fromPosition request.target s.samples i (floors i) :=
      List.map_congr_left fun i hi => by rw [hold i (by rw [List.mem_range'_1] at hi; omega)]
    rw [List.range'_1_concat, List.map_append, hmap, List.map_singleton, add_comm 1 k, hnew, ← hpoint, h.route]
    rfl
  · rcases Nat.lt_succ_iff_lt_or_eq.mp hi with hi | rfl
    · rw [hold i (by omega), hold (i + 1) (by omega)]
      exact h.floor i hi
    · rw [hold i le_rfl, hnew, ← hpoint]
      exact ⟨hfloor, hcliff, hcontained⟩
  · refine List.isChain_append.mpr ⟨h.clear, .singleton _, fun a ha b hb => ?_⟩
    rw [List.head?_singleton, Option.mem_some_iff] at hb
    rw [← hb]
    rw [List.getLastD_eq_getLast?, Option.mem_def.mp ha] at hclear
    exact hclear
  · rw [wayLength_append hne request.fromPosition, ← h.length.1]
    rfl

theorem finish_cases {floors : ℕ → ℝ} {k : ℕ} (h : Surveyed request log s floors k) (hstarted : s.started = true)
    (hpending : Pending s) (hk : k ≤ s.samples) : Sound request log (finishPending exactFloats request s) := by
  rw [finishPending, if_pos hpending, finish]
  split
  next hle =>
    rw [h.nextSample] at hle
    exact .inr (.inr ⟨hstarted, floors, k, h, .inl ⟨hpending, hle⟩⟩)
  next hlast =>
    rw [h.nextSample] at hlast
    split
    · exact .inl ⟨rfl, rfl⟩
    · have hend : k = s.samples := by omega
      refine .inr (.inr ⟨hstarted, floors, k, ?_, .inr ⟨rfl, hend⟩⟩)
      exact ⟨h.route, h.nextSample, h.samples, h.range, h.previousHeight, h.origin, h.floor, h.clear, h.length⟩

/-- A tick keeps what is known sound. -/
theorem Sound.tick {log' : SurfaceLog} (h : Sound request log s) (hpending : Pending s)
    (hrun : (tick exactFloats request () s).Runs log' t) : Sound request (log ++ log') t := by
  have hold : ∀ e ∈ log, e ∈ log ++ log' := fun e he => List.mem_append_left _ he
  obtain ⟨front, back, m, rfl, hfirst, hlast⟩ := Probe.runs_bind.mp hrun
  obtain ⟨rfl, rfl⟩ := Probe.runs_pure.mp hlast
  rw [List.append_nil] at hold ⊢
  have hnew : ∀ e ∈ front, e ∈ log ++ front := fun e he => List.mem_append_right _ he
  obtain ⟨hrejected, -⟩ | ⟨-, hstarted, hroute, hnext, hlength⟩ | ⟨hstarted, floors, k, hsurveyed, hk⟩ := h
  · simp [Pending, hrejected] at hpending
  · rw [if_neg (by simp [hstarted])] at hfirst
    obtain ⟨hrejected, hempty⟩ | ⟨height, hfloor, hcontained, hlow, hhigh, rfl⟩ := start_runs hfirst
    · rw [finishPending_of_not_pending (by simp [Pending, hrejected])]
      exact .inl ⟨hrejected, hempty⟩
    · exact finish_cases (.begin hroute hnext hlength (hnew _ hfloor) (hnew _ hcontained) ⟨hlow, hhigh⟩) rfl hpending
        (Nat.zero_le _)
  · rw [if_pos hstarted] at hfirst
    have hlt : k < s.samples := by
      rcases hk with ⟨-, hk⟩ | ⟨hcomplete, -⟩
      · exact hk
      · simp [Pending, hcomplete] at hpending
    obtain ⟨hrejected, hempty⟩ | ⟨height, point, hpoint, hfloor, hcliff, hcontained, hclear, hbound, rfl⟩ :=
      sample_runs hfirst
    · rw [finishPending_of_not_pending (by simp [Pending, hrejected])]
      exact .inl ⟨hrejected, hempty⟩
    · exact finish_cases ((hsurveyed.mono hold).sample hpoint (hnew _ hfloor) hcliff (hnew _ hcontained) (hnew _ hclear)
        hbound) hstarted hpending hlt

theorem sound_initial : Sound request [] (.initial exactFloats) :=
  .inr (.inl ⟨rfl, rfl, rfl, rfl, Rat.cast_zero⟩)

/-- Whatever the budgets, a search stays sound. -/
theorem calls_sound {calls : List (UInt32 × SurfaceLog)} (h : Calls exactFloats request (.initial exactFloats) calls t) :
    Sound request (Probe.transcript calls) t := by
  obtain ⟨ticks, hticks, hlog⟩ := h.refine (fun s i log m hs hlive h => advance_ticks hs hlive h) awaits_initial
  rw [← hlog]
  exact hticks.invariant (fun _ _ _ _ _ hs hlive hrun => hs.tick hlive hrun) [] sound_initial

end LivingSurfaceCorridor

/-! ### The connector -/

namespace LivingReturnPolicy

variable {source target : ActionPosition ℝ} {log log' : SurfaceLog} {result lead : List (ActionPosition ℝ)}
  {failure : ConnectorFailure}

/-- What the connector has found out after `k` of `n` samples. Where the source is off the floor the way leads
down to the floor first. -/
structure Connected (log : SurfaceLog) (source target : ActionPosition ℝ) (lead : List (ActionPosition ℝ))
    (floors : ℕ → ℝ) (n k : ℕ) (result : List (ActionPosition ℝ)) : Prop where
  route : result = source :: (lead ++ (List.range' 1 k).map fun i => place source target n i (floors i))
  lead : lead = [] ∨ lead = [{ source with z := floors 0 }]
  origin : Floor log source (floors 0)
  floor : ∀ i < k, Floor log (place source target n (i + 1) (floors i)) (floors (i + 1)) ∧
    |floors (i + 1) - floors i| ≤ 3 / 4
  clear : result.IsChain (Clear log)

theorem Connected.mono {floors : ℕ → ℝ} {n k : ℕ} (h : Connected log source target lead floors n k result)
    (hlog : ∀ e ∈ log, e ∈ log') : Connected log' source target lead floors n k result :=
  { h with
    origin := hlog _ h.origin
    floor := fun i hi => ⟨hlog _ (h.floor i hi).1, (h.floor i hi).2⟩
    clear := h.clear.imp fun _ _ => hlog _ }

theorem Connected.sample {floors : ℕ → ℝ} {n k : ℕ} {height : ℝ}
    (h : Connected log source target lead floors n k result)
    (hfloor : Floor log (place source target n (k + 1) (floors k)) height) (hcliff : |height - floors k| ≤ 3 / 4)
    (hclear : Clear log (result.getLastD source) (place source target n (k + 1) height)) :
    Connected log source target lead (Function.update floors (k + 1) height) n (k + 1)
      (result ++ [place source target n (k + 1) height]) := by
  have hold : ∀ i ≤ k, Function.update floors (k + 1) height i = floors i := fun i hi =>
    Function.update_of_ne (by omega) _ _
  have hnew : Function.update floors (k + 1) height (k + 1) = height := Function.update_self _ _ _
  refine ⟨?_, by rw [hold 0 (by omega)]; exact h.lead, by rw [hold 0 (by omega)]; exact h.origin, fun i hi => ?_, ?_⟩
  · have hmap : (List.range' 1 k).map (fun i => place source target n i (Function.update floors (k + 1) height i)) =
        (List.range' 1 k).map fun i => place source target n i (floors i) :=
      List.map_congr_left fun i hi => by rw [hold i (by rw [List.mem_range'_1] at hi; omega)]
    rw [List.range'_1_concat, List.map_append, hmap, List.map_singleton, add_comm 1 k, hnew, h.route]
    simp
  · rcases Nat.lt_succ_iff_lt_or_eq.mp hi with hi | rfl
    · rw [hold i (by omega), hold (i + 1) (by omega)]
      exact h.floor i hi
    · rw [hold i le_rfl, hnew]
      exact ⟨hfloor, hcliff⟩
  · refine List.isChain_append.mpr ⟨h.clear, .singleton _, fun a ha b hb => ?_⟩
    rw [List.head?_singleton, Option.mem_some_iff] at hb
    rw [← hb]
    rw [List.getLastD_eq_getLast?, Option.mem_def.mp ha] at hclear
    exact hclear

/-- What the answer of the connector says. -/
def Answers (log : SurfaceLog) (source target : ActionPosition ℝ) (n : ℕ)
    (answer : List (ActionPosition ℝ) × ConnectorFailure) : Prop :=
  answer.1 = [] ∧ answer.2 ≠ .none ∨
    answer.2 = .none ∧ ∃ lead floors, Connected log source target lead floors n n answer.1 ∧ |floors n - target.z| ≤ 1

theorem connectorLoop_answers {answer : List (ActionPosition ℝ) × ConnectorFailure} {floors : ℕ → ℝ} {n k left : ℕ}
    (hleft : k + left = n) (h : Connected log source target lead floors n k result)
    (hrun : (connectorLoop exactFloats source target n left (k + 1) (floors k) result).Runs log' answer) :
    Answers (log ++ log') source target n answer := by
  induction left generalizing k floors result log log' with
  | zero =>
    rw [connectorLoop] at hrun
    split at hrun
    · obtain ⟨-, rfl⟩ := Probe.runs_pure.mp hrun
      exact .inl ⟨rfl, by decide⟩
    next hend =>
      obtain ⟨rfl, rfl⟩ := Probe.runs_pure.mp hrun
      simp only [exact_lt, exact_abs, exact_sub, exact_lit, decide_eq_true_eq, not_lt, Rat.cast_one] at hend
      obtain rfl : k = n := hleft
      rw [List.append_nil]
      exact .inr ⟨rfl, lead, floors, h, hend⟩
  | succ left ih =>
    have hplace : ∀ z, ({ between exactFloats source target (exactFloats.div (exactFloats.lit ↑(k + 1)) (exactFloats.lit n))
        with z := z } : ActionPosition ℝ) = place source target n (k + 1) z := fun z => by simp [between, place]
    simp only [connectorLoop, hplace] at hrun
    obtain rfl | ⟨height, front, rest, rfl, hfloor, hrun⟩ := requireHeight_runs hrun
    · exact .inl ⟨rfl, by decide⟩
    split at hrun
    · obtain ⟨-, rfl⟩ := Probe.runs_pure.mp hrun
      exact .inl ⟨rfl, by decide⟩
    next hcliff =>
      simp only [exact_lt, exact_abs, exact_sub, exact_lit, decide_eq_true_eq, not_lt] at hcliff
      obtain rfl | ⟨asked, rest, rfl, hclear, hrun⟩ := require_runs hrun
      · exact .inl ⟨rfl, by decide⟩
      have hknown : ∀ e ∈ log, e ∈ log ++ (front ++ asked) := fun e he => List.mem_append_left _ he
      have hnext := (h.mono hknown).sample (List.mem_append_right _ (List.mem_append_left _ hfloor))
        (hcliff.trans_eq (by norm_num))
        (List.mem_append_right _ (List.mem_append_right _ (clearSegment_runs hclear)))
      have hlast : Function.update floors (k + 1) height (k + 1) = height := Function.update_self _ _ _
      have hanswers := ih (by omega) hnext (by rwa [hlast])
      simpa only [List.append_assoc] using hanswers

theorem Connected.begin {height : ℝ} (hfloor : Floor log source height) :
    Connected log source target [] (fun _ => height) (⌈reach source target / (1 / 2)⌉₊) 0 [source] :=
  ⟨by simp, .inl rfl, hfloor, by simp, .singleton _⟩

theorem Connected.begin_grounded {height : ℝ} (target : ActionPosition ℝ) (hfloor : Floor log source height)
    (hclear : Clear log source { source with z := height }) :
    Connected log source target [{ source with z := height }] (fun _ => height) (⌈reach source target / (1 / 2)⌉₊) 0
      [source, { source with z := height }] :=
  ⟨by simp, .inr rfl, hfloor, by simp, .cons_cons hclear (.singleton _)⟩

theorem surfaceConnector_answers {startSupport : Option (ActionPosition ℝ)}
    {answer : List (ActionPosition ℝ) × ConnectorFailure}
    (h : (surfaceConnector exactFloats source target startSupport).Runs log answer) :
    answer.1 = [] ∧ answer.2 ≠ .none ∨ 1 / 2 ≤ reach source target ∧ reach source target ≤ 6 ∧
      Answers log source target ⌈reach source target / (1 / 2)⌉₊ answer := by
  unfold surfaceConnector at h
  split at h
  · obtain ⟨-, rfl⟩ := Probe.runs_pure.mp h
    exact .inl ⟨rfl, nofun⟩
  dsimp only at h
  split at h
  · obtain ⟨-, rfl⟩ := Probe.runs_pure.mp h
    exact .inl ⟨rfl, nofun⟩
  next hrange =>
    simp only [exact_lt, exact_hypot, exact_abs, exact_sub, exact_lit, Bool.or_eq_true, decide_eq_true_eq, not_or,
      not_lt] at hrange
    obtain ⟨⟨hlow, hhigh⟩, -⟩ := hrange
    have hsteps : exactFloats.ceil (exactFloats.div (exactFloats.hypot (exactFloats.sub target.x source.x)
        (exactFloats.sub target.y source.y)) (exactFloats.lit (1 / 2))) = ⌈reach source target / (1 / 2)⌉₊ := by
      simp [reach]
    rw [hsteps] at h
    obtain rfl | ⟨height, front, rest, rfl, hfloor, h⟩ := requireHeight_runs h
    · exact .inl ⟨rfl, nofun⟩
    have hreach : 1 / 2 ≤ reach source target ∧ reach source target ≤ 6 :=
      ⟨hlow.trans_eq' (by norm_num), hhigh.trans_eq (by norm_num)⟩
    split at h
    · split at h
      · obtain ⟨-, rfl⟩ := Probe.runs_pure.mp h
        exact .inl ⟨rfl, nofun⟩
      · split at h
        · obtain ⟨-, rfl⟩ := Probe.runs_pure.mp h
          exact .inl ⟨rfl, nofun⟩
        obtain rfl | ⟨supportHeight, asked, rest, rfl, -, h⟩ := requireHeight_runs h
        · exact .inl ⟨rfl, nofun⟩
        split at h
        · obtain ⟨-, rfl⟩ := Probe.runs_pure.mp h
          exact .inl ⟨rfl, nofun⟩
        obtain rfl | ⟨cleared, rest, rfl, hclear, h⟩ := require_runs h
        · exact .inl ⟨rfl, nofun⟩
        have hbegin := Connected.begin_grounded target (List.mem_append_left (asked ++ cleared) hfloor)
          (List.mem_append_right _ (List.mem_append_right _ (clearSegment_runs hclear)))
        have hanswers := connectorLoop_answers (Nat.zero_add _) hbegin h
        refine .inr ⟨hreach.1, hreach.2, ?_⟩
        simpa only [List.append_assoc] using hanswers
    · exact .inr ⟨hreach.1, hreach.2, connectorLoop_answers (Nat.zero_add _) (.begin hfloor) h⟩

end LivingReturnPolicy

/-! ### Both walks -/

open LivingSurfaceCorridor in
open LivingReturnPolicy in
/-- Surface walks are sound, whatever the world answers. A search that is complete has surveyed its whole
route, in steps of at most half a yard, and one that is rejected publishes no route; the same holds of the
connector and its answer. -/
theorem surface_walks_sound :
    (∀ (request : Request ℝ) (calls : List (UInt32 × SurfaceLog)) (s : Search ℝ),
      Calls exactFloats request (.initial exactFloats) calls s →
        (s.state = .rejected → s.route = []) ∧
        (s.state = .complete → ∃ floors n, n ≠ 0 ∧ Surveyed request (Probe.transcript calls) s floors n ∧
          s.samples = n ∧ reach request.fromPosition request.target / n ≤ 1 / 2 ∧
          (place request.fromPosition request.target n n (floors n)).x = request.target.x ∧
          (place request.fromPosition request.target n n (floors n)).y = request.target.y)) ∧
    ∀ (source target : ActionPosition ℝ) (startSupport : Option (ActionPosition ℝ)) (log : SurfaceLog)
      (result : List (ActionPosition ℝ)) (failure : ConnectorFailure),
      (surfaceConnector exactFloats source target startSupport).Runs log (result, failure) →
        (failure ≠ .none → result = []) ∧
        (result ≠ [] → ∃ lead floors n, n ≠ 0 ∧ Connected log source target lead floors n n result ∧
          1 / 2 ≤ reach source target ∧ reach source target ≤ 6 ∧ reach source target / n ≤ 1 / 2 ∧
          (place source target n n (floors n)).x = target.x ∧ (place source target n n (floors n)).y = target.y ∧
          |floors n - target.z| ≤ 1) := by
  refine ⟨fun request calls s h => ?_, fun source target startSupport log result failure h => ?_⟩
  · obtain ⟨hrejected, hempty⟩ | ⟨hpending, -⟩ | ⟨-, floors, k, hsurveyed, hk⟩ := calls_sound h
    · exact ⟨fun _ => hempty, fun hcomplete => by simp [hrejected] at hcomplete⟩
    · exact ⟨fun hrejected => by simp [Pending, hrejected] at hpending,
        fun hcomplete => by simp [Pending, hcomplete] at hpending⟩
    · constructor
      · intro hrejected
        rcases hk with ⟨hpending, -⟩ | ⟨hcomplete, -⟩
        · simp [Pending, hrejected] at hpending
        · simp [hrejected] at hcomplete
      · intro hcomplete
        have hk : k = s.samples := by
          rcases hk with ⟨hpending, -⟩ | ⟨-, hk⟩
          · simp [Pending, hcomplete] at hpending
          · exact hk
        have hpos : 0 < reach request.fromPosition request.target := by linarith [hsurveyed.range.1]
        have hne : k ≠ 0 := by
          rw [hk, hsurveyed.samples]
          exact (Nat.ceil_pos.mpr (by positivity)).ne'
        refine ⟨floors, k, hne, hsurveyed, hk.symm, ?_, place_last _ _ hne _⟩
        rw [hk, hsurveyed.samples]
        exact reach_div_le hpos
  · obtain ⟨hempty, -⟩ | ⟨hlow, hhigh, ⟨hempty, -⟩ | ⟨hnone, lead, floors, hconnected, hend⟩⟩ := surfaceConnector_answers h
    · exact ⟨fun _ => hempty, fun hne => absurd hempty hne⟩
    · exact ⟨fun _ => hempty, fun hne => absurd hempty hne⟩
    · have hpos : 0 < reach source target := by linarith
      have hne : ⌈reach source target / (1 / 2)⌉₊ ≠ 0 := (Nat.ceil_pos.mpr (by positivity)).ne'
      exact ⟨fun hfailed => absurd hnone hfailed, fun _ => ⟨lead, floors, _, hne, hconnected, hlow, hhigh,
        reach_div_le hpos, (place_last _ _ hne _).1, (place_last _ _ hne _).2, hend⟩⟩

/-- A level floor, open everywhere. -/
def openFloor : ∀ q : SurfaceQuery ℝ, q.Answer
  | .heightAt _ => (some 0 : Option ℝ)
  | .clearSegment _ _ => true
  | .contains _ => true
  | .hasTile _ => true
  | .isGoal _ => true

noncomputable def halfYard : LivingSurfaceCorridor.Request ℝ :=
  ⟨⟨0, 0, 0, 0⟩, ⟨0, exactFloats.lit (1 / 2), 0, 0⟩, false⟩

/-- One call, which takes the only sample. -/
noncomputable def halfYardWalk : SurfaceLog × LivingSurfaceCorridor.Search ℝ :=
  Probe.eval openFloor (LivingSurfaceCorridor.advance exactFloats halfYard 8 (.initial exactFloats))

open LivingSurfaceCorridor in
theorem halfYardWalk_complete : halfYardWalk.2.state = .complete := by
  have hlow : ¬((2 : ℝ)⁻¹ < 100⁻¹) := by norm_num
  have hlength : ¬(480 < (2 : ℝ)⁻¹) := by norm_num
  have hcliff : ¬((3 : ℝ) / 4 < 0) := by norm_num
  have hone : ¬((1 : ℝ) < 0) := by norm_num
  simp [halfYardWalk, advance, contextChanged, Search.initial, start, halfYard, finite, require, requireHeight, Bind.bind,
    Probe.bind, Pure.pure, contains, hasTile, heightAt, clearSegment, Probe.eval, openFloor, sampleLoop, sample,
    samplePoint, finishPending, finish, Search.reject, hlow, hlength, hcliff, hone]

open LivingSurfaceCorridor in
theorem surface_walks_sound_half : ∃ floors n, n ≠ 0 ∧
    Surveyed halfYard (Probe.transcript [((8 : UInt32), halfYardWalk.1)]) halfYardWalk.2 floors n := by
  have hcalls : Calls exactFloats halfYard (.initial exactFloats) [((8 : UInt32), halfYardWalk.1)] halfYardWalk.2 :=
    .cons rfl (Probe.runs_eval openFloor _) (.nil _)
  obtain ⟨floors, n, hne, hsurveyed, -⟩ := (surface_walks_sound.1 _ _ _ hcalls).2 halfYardWalk_complete
  exact ⟨floors, n, hne, hsurveyed⟩

end AIWorld.Agent
