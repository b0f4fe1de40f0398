import AIWorld.Agent.LivingSurfaceCorridor

/-! How a walk is cut into calls does not matter. A call is a number of ticks, each of which begins the walk or
takes one sample, and the ticks of a walk are determined by the answers. -/

namespace AIWorld.Agent.LivingSurfaceCorridor

open Lib

variable {F : Type} {ops : FloatOps F} {request : Request F} {s t : Search F}
  {log : Probe.Transcript (SurfaceQuery F) SurfaceQuery.Answer}

abbrev Pending (s : Search F) : Prop := s.state = .pending

/-- The first call's checks, or one sample, and the end of the walk when it was the last. -/
def tick (ops : FloatOps F) (request : Request F) (_ : Unit) (s : Search F) : SurfaceProbe F (Search F) := do
  let s ← (if s.started then sample ops request s else start ops request s)
  pure (finishPending ops request s)

/-- A search waits for its first call, or for its next sample. -/
def Awaits (ops : FloatOps F) (request : Request F) (s : Search F) : Prop :=
  Pending s → s.started = true → StartedFor ops request s ∧ s.nextSample ≤ s.samples

theorem awaits_initial : Awaits ops request (.initial ops) := by
  intro _ h
  contradiction

theorem finishPending_of_not_pending (h : ¬Pending s) : finishPending ops request s = s := if_neg h

theorem finishPending_of_le (h : s.nextSample ≤ s.samples) : finishPending ops request s = s := by
  unfold finishPending finish
  rw [if_pos h, ite_self]

/-- A finished walk is not pending. -/
theorem finishPending_pending (h : Pending (finishPending ops request s)) :
    Pending s ∧ s.nextSample ≤ s.samples ∧ finishPending ops request s = s := by
  by_cases hs : Pending s
  · by_cases hle : s.nextSample ≤ s.samples
    · exact ⟨hs, hle, finishPending_of_le hle⟩
    · rw [finishPending, if_pos hs, finish, if_neg hle] at h
      split at h <;> contradiction
  · rw [finishPending_of_not_pending hs] at h
    contradiction

theorem awaits_finishPending (h : Pending s → s.started = true → StartedFor ops request s) :
    Awaits ops request (finishPending ops request s) := by
  intro hpending
  obtain ⟨hs, hle, heq⟩ := finishPending_pending hpending
  rw [heq]
  exact fun hstarted => ⟨h hs hstarted, hle⟩

theorem StartedFor.sample (h : StartedFor ops request s) {length previousHeight : F} {route : List (ActionPosition F)}
    {nextSample : ℕ} : StartedFor ops request { s with length, route, previousHeight, nextSample } :=
  ⟨h.started, h.fromPosition, h.target, h.resolveEndpointHeight, h.finiteFrom, h.finiteTarget⟩

/-- A tick is a run of its part. -/
theorem runs_tick {m : Search F}
    (h : (if s.started then sample ops request s else start ops request s).Runs log m) :
    (tick ops request () s).Runs log (finishPending ops request m) :=
  Probe.runs_bind.mpr ⟨log, [], m, (List.append_nil log).symm, h, Probe.runs_pure.mpr ⟨rfl, rfl⟩⟩

/-- Samples one after another are ticks. -/
theorem sampleLoop_ticks (n : ℕ) (hs : StartedFor ops request s) (hpending : Pending s)
    (hnext : s.nextSample ≤ s.samples) (hroom : s.nextSample + n ≤ s.samples + 1)
    (h : (sampleLoop ops request n s).Runs log t) :
    (Pending t → t.started = true → StartedFor ops request t) ∧ ∃ ticks,
      Probe.Steps Pending (tick ops request) s ticks (finishPending ops request t) ∧ Probe.transcript ticks = log := by
  induction n generalizing s log with
  | zero =>
    obtain ⟨rfl, rfl⟩ := Probe.runs_pure.mp h
    rw [finishPending_of_le hnext]
    exact ⟨fun _ _ => hs, [], .nil _, rfl⟩
  | succ n ih =>
    obtain ⟨front, back, m, rfl, hsample, hback⟩ := Probe.runs_bind.mp h
    have htick : (tick ops request () s).Runs front (finishPending ops request m) := by
      refine runs_tick ?_
      rwa [if_pos hs.started]
    obtain hm | ⟨point, previousHeight, hm⟩ := sample_cases hsample
    · rw [if_neg (by simp [hm])] at hback
      obtain ⟨rfl, rfl⟩ := Probe.runs_pure.mp hback
      have hnot : ¬Pending t := by simp [Pending, hm]
      rw [finishPending_of_not_pending hnot] at htick ⊢
      exact ⟨fun h => absurd h hnot, [((), front)], .cons hpending htick (.nil _), by simp⟩
    · have hsm : StartedFor ops request m := hm ▸ hs.sample
      have hpm : Pending m := by rw [hm]; exact hpending
      have hnm : m.nextSample = s.nextSample + 1 ∧ m.samples = s.samples := by rw [hm]; exact ⟨rfl, rfl⟩
      rw [if_pos hpm] at hback
      obtain - | n := n
      · obtain ⟨rfl, rfl⟩ := Probe.runs_pure.mp hback
        exact ⟨fun _ _ => hsm, [((), front)], .cons hpending htick (.nil _), by simp⟩
      · rw [finishPending_of_le (by omega)] at htick
        obtain ⟨hkeep, ticks, hticks, hlog⟩ := ih hsm hpm (by omega) (by omega) hback
        exact ⟨hkeep, ((), front) :: ticks, .cons hpending htick hticks, by rw [Probe.transcript_cons, hlog]⟩

/-- A call is a number of ticks. -/
theorem advance_ticks {budget : UInt32} (hs : Awaits ops request s) (hpending : Pending s)
    (h : (advance ops request budget s).Runs log t) : Awaits ops request t ∧ ∃ ticks,
      Probe.Steps Pending (tick ops request) s ticks t ∧ Probe.transcript ticks = log := by
  unfold advance at h
  have hcontext : contextChanged ops request s = false := by
    cases hstarted : s.started with
    | false => simp [contextChanged, hstarted]
    | true => exact (hs hpending hstarted).1.contextChanged
  rw [if_neg (by simp [hcontext]), if_neg (not_not.mpr hpending)] at h
  obtain ⟨front, back, m, rfl, hfirst, hrest⟩ := Probe.runs_bind.mp h
  cases hstarted : s.started with
  | true =>
    obtain ⟨hfor, hnext⟩ := hs hpending hstarted
    rw [if_pos hstarted] at hfirst
    obtain ⟨rfl, rfl⟩ := Probe.runs_pure.mp hfirst
    rw [if_neg (not_not.mpr hpending)] at hrest
    obtain ⟨loop, last, n, rfl, hloop, hlast⟩ := Probe.runs_bind.mp hrest
    obtain ⟨rfl, rfl⟩ := Probe.runs_pure.mp hlast
    obtain ⟨hkeep, ticks, hticks, hlog⟩ := sampleLoop_ticks _ hfor hpending hnext (by omega) hloop
    exact ⟨awaits_finishPending hkeep, ticks, hticks, by simpa using hlog⟩
  | false =>
    rw [if_neg (by simp [hstarted])] at hfirst
    have htick : (tick ops request () s).Runs front (finishPending ops request m) := by
      refine runs_tick ?_
      rwa [if_neg (by simp [hstarted])]
    obtain hm | ⟨hfor, hstate, hnextSample, -⟩ := start_cases hfirst
    · rw [if_pos (by simp [hm])] at hrest
      obtain ⟨rfl, rfl⟩ := Probe.runs_pure.mp hrest
      have hnot : ¬Pending t := by simp [Pending, hm]
      rw [finishPending_of_not_pending hnot] at htick
      exact ⟨fun h => absurd h hnot, [((), front)], .cons hpending htick (.nil _), by simp⟩
    · have hpm : Pending m := hstate.trans hpending
      rw [if_neg (not_not.mpr hpm)] at hrest
      obtain ⟨loop, last, n, rfl, hloop, hlast⟩ := Probe.runs_bind.mp hrest
      obtain ⟨rfl, rfl⟩ := Probe.runs_pure.mp hlast
      by_cases hle : m.nextSample ≤ m.samples
      · rw [finishPending_of_le hle] at htick
        obtain ⟨hkeep, ticks, hticks, hlog⟩ := sampleLoop_ticks _ hfor hpm hle (by omega) hloop
        exact ⟨awaits_finishPending hkeep, ((), front) :: ticks, .cons hpending htick hticks, by simp [hlog]⟩
      · have hnone : min (m.samples + 1) ((m.nextSample + budget.toNat) % 4294967296) - m.nextSample = 0 := by omega
        rw [hnone] at hloop
        obtain ⟨rfl, rfl⟩ := Probe.runs_pure.mp hloop
        exact ⟨awaits_finishPending fun _ _ => hfor, [((), front)], .cons hpending htick (.nil _), by simp⟩

/-- The calls of one search, with any budgets. -/
abbrev Calls (ops : FloatOps F) (request : Request F) :=
  Probe.Steps Pending (advance ops request : UInt32 → Search F → SurfaceProbe F (Search F))

/-- The same answers lead every sequence of calls to the same end. -/
theorem calls_unique (f : ∀ q : SurfaceQuery F, q.Answer)
    {calls calls' : List (UInt32 × Probe.Transcript (SurfaceQuery F) SurfaceQuery.Answer)} {t' : Search F}
    (h : Calls ops request (.initial ops) calls t) (h' : Calls ops request (.initial ops) calls' t')
    (ht : ¬Pending t) (ht' : ¬Pending t') (hf : Probe.AnsweredBy f (Probe.transcript calls))
    (hf' : Probe.AnsweredBy f (Probe.transcript calls')) :
    t = t' ∧ Probe.transcript calls = Probe.transcript calls' := by
  obtain ⟨ticks, hticks, hlog⟩ := h.refine (fun s i log m hs hlive h => advance_ticks hs hlive h) awaits_initial
  obtain ⟨ticks', hticks', hlog'⟩ := h'.refine (fun s i log m hs hlive h => advance_ticks hs hlive h) awaits_initial
  rw [← hlog] at hf
  rw [← hlog'] at hf'
  obtain ⟨hlogs, heq⟩ := hticks.unique hticks' ht ht' hf hf'
  exact ⟨heq, hlog.symm.trans (hlogs.trans hlog')⟩

/-! ### The route of a walk -/

/-- The length of a way along its samples. -/
def wayLength (ops : FloatOps F) (route : List (ActionPosition F)) : F :=
  (route.zip route.tail).foldl (fun length step => ops.add length (stride ops step.1 step.2)) (ops.lit 0)

theorem zip_tail_append (a : ActionPosition F) (route : List (ActionPosition F)) (last point : ActionPosition F) :
    (a :: route ++ [point]).zip (a :: route ++ [point]).tail =
      (a :: route).zip (a :: route).tail ++ [((a :: route).getLastD last, point)] := by
  induction route generalizing a last with
  | nil => rfl
  | cons b route ih =>
    have hrest := ih b a
    simp only [List.cons_append, List.tail_cons, List.zip_cons_cons, List.getLastD_cons] at hrest ⊢
    rw [hrest]

theorem wayLength_append {route : List (ActionPosition F)} (hne : route ≠ []) (last point : ActionPosition F) :
    wayLength ops (route ++ [point]) = ops.add (wayLength ops route) (stride ops (route.getLastD last) point) := by
  obtain ⟨a, route, rfl⟩ := List.exists_cons_of_ne_nil hne
  rw [wayLength, zip_tail_append a route last point, List.foldl_append]
  rfl

/-- The route of a walk begins at its source, and its length is known. -/
structure UnderWay (ops : FloatOps F) (request : Request F) (s : Search F) : Prop where
  started : s.started = true
  source : s.route.head? = some request.fromPosition
  length : s.length = wayLength ops s.route

/-- A walk that was not rejected waits for its first call, or is under way. -/
def Departs (ops : FloatOps F) (request : Request F) (s : Search F) : Prop :=
  s.state = .rejected ∨ UnderWay ops request s ∨
    s.started = false ∧ s.route = [] ∧ s.length = ops.lit 0 ∧ Pending s

theorem sampleLoop_departs (n : ℕ) (h : UnderWay ops request s) (hpending : Pending s)
    (hrun : (sampleLoop ops request n s).Runs log t) : t.state = .rejected ∨ UnderWay ops request t := by
  induction n generalizing s log with
  | zero =>
    obtain ⟨-, rfl⟩ := Probe.runs_pure.mp hrun
    exact .inr h
  | succ n ih =>
    obtain ⟨front, back, m, rfl, hsample, hback⟩ := Probe.runs_bind.mp hrun
    obtain hm | ⟨point, previousHeight, hm⟩ := sample_cases hsample
    · rw [if_neg (by simp [hm])] at hback
      obtain ⟨-, rfl⟩ := Probe.runs_pure.mp hback
      exact .inl hm
    · have hpm : Pending m := by rw [hm]; exact hpending
      have hne : s.route ≠ [] := by
        intro hempty
        simpa [hempty] using h.source
      have hunder : UnderWay ops request m := by
        rw [hm]
        refine ⟨h.started, by simp [List.head?_append, h.source], ?_⟩
        dsimp only
        rw [wayLength_append hne request.fromPosition, h.length]
      rw [if_pos hpm] at hback
      exact ih hunder hpm hback

theorem finishPending_departs (h : s.state = .rejected ∨ UnderWay ops request s) :
    Departs ops request (finishPending ops request s) := by
  unfold finishPending finish
  split
  next hpending =>
    have hunder : UnderWay ops request s := h.resolve_left (by simp [hpending])
    split
    · exact .inr (.inl hunder)
    · split
      · exact .inl rfl
      · exact .inr (.inl ⟨hunder.started, hunder.source, hunder.length⟩)
  next => exact h.imp_right .inl

theorem advance_departs {budget : UInt32} (h : Departs ops request s)
    (hrun : (advance ops request budget s).Runs log t) : Departs ops request t := by
  unfold advance at hrun
  split at hrun
  · obtain ⟨-, rfl⟩ := Probe.runs_pure.mp hrun
    exact .inl rfl
  split at hrun
  · obtain ⟨-, rfl⟩ := Probe.runs_pure.mp hrun
    exact h
  next hpending =>
    replace hpending : Pending s := not_not.mp hpending
    obtain ⟨front, back, m, rfl, hfirst, hrest⟩ := Probe.runs_bind.mp hrun
    have hm : m.state = .rejected ∨ UnderWay ops request m ∧ Pending m := by
      split at hfirst
      next hstarted =>
        obtain ⟨-, rfl⟩ := Probe.runs_pure.mp hfirst
        obtain hrejected | hunder | ⟨hnot, -⟩ := h
        · exact .inl hrejected
        · exact .inr ⟨hunder, hpending⟩
        · simp [hnot] at hstarted
      next hnew =>
        obtain hrejected | ⟨hfor, hstate, -, hroute, hlength, -⟩ := start_cases hfirst
        · exact .inl hrejected
        · have hempty : s.route = [] ∧ s.length = ops.lit 0 := by
            obtain hrejected | hunder | ⟨-, hempty, hzero, -⟩ := h
            · simp [Pending, hrejected] at hpending
            · exact absurd hunder.started hnew
            · exact ⟨hempty, hzero⟩
          refine .inr ⟨⟨hfor.started, by simp [hroute, hempty.1], ?_⟩, hstate.trans hpending⟩
          rw [hlength, hroute, hempty.1, hempty.2]
          rfl
    obtain hrejected | ⟨hunder, hpm⟩ := hm
    · rw [if_pos (by simp [hrejected])] at hrest
      obtain ⟨-, rfl⟩ := Probe.runs_pure.mp hrest
      exact .inl hrejected
    · rw [if_neg (not_not.mpr hpm)] at hrest
      obtain ⟨loop, last, n, rfl, hloop, hlast⟩ := Probe.runs_bind.mp hrest
      obtain ⟨-, rfl⟩ := Probe.runs_pure.mp hlast
      exact finishPending_departs (sampleLoop_departs _ hunder hpm hloop)

/-- A completed walk has a route from its source, with its length. -/
theorem calls_route {calls : List (UInt32 × Probe.Transcript (SurfaceQuery F) SurfaceQuery.Answer)}
    (h : Calls ops request (.initial ops) calls t) (hcomplete : t.state = .complete) :
    t.route.head? = some request.fromPosition ∧ t.length = wayLength ops t.route := by
  have hdeparts : Departs ops request t :=
    h.keeps (fun s i log m hs _ hrun => advance_departs hs hrun) (.inr (.inr ⟨rfl, rfl, rfl, rfl⟩))
  obtain hrejected | hunder | ⟨-, -, -, hpending⟩ := hdeparts
  · simp [hcomplete] at hrejected
  · exact ⟨hunder.source, hunder.length⟩
  · simp [Pending, hcomplete] at hpending

end AIWorld.Agent.LivingSurfaceCorridor
