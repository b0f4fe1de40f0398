import AIWorld.Agent.DetourTermination
import AIWorld.Lib.HeapOrder

/-! The numbers of the surface searches. Single precision knows numbers and what is not a number; of the latter no
order is to be had. The lengths of walks are numbers: every place on a walk is finite, or the walk is too long. -/

namespace AIWorld.Agent

open Lib

section Numbers
variable {F : Type} (ops : FloatOps F)

/-- What is not a number does not equal itself. -/
def IsNumber (x : F) : Prop := ops.eq x x = true

/-- A number that is not negative; it may be infinite. -/
structure Amount (x : F) : Prop where
  number : IsNumber ops x
  nonneg : ops.lt x (ops.lit 0) = false

/-- What the searches use of single precision: comparisons order the numbers, sums of amounts are amounts and
grow with them, and what is computed from finite numbers is finite unless it overflows. -/
structure SinglePrecision : Prop where
  number_of_lt : ∀ {x y}, ops.lt x y = true → IsNumber ops x ∧ IsNumber ops y
  lt_asymm : ∀ {x y}, ops.lt x y = true → ops.lt y x = false
  lt_cotrans : ∀ {x y z}, IsNumber ops z → ops.lt x y = true → ops.lt x z = true ∨ ops.lt z y = true
  eq_iff : ∀ {x y}, IsNumber ops x → IsNumber ops y → (ops.eq x y = true ↔ ops.lt x y = false ∧ ops.lt y x = false)
  le_iff : ∀ {x y}, IsNumber ops x → IsNumber ops y → (ops.le x y = true ↔ ops.lt y x = false)
  amount_zero : Amount ops (ops.lit 0)
  amount_add : ∀ {x y}, Amount ops x → Amount ops y → Amount ops (ops.add x y)
  amount_triple : ∀ {x}, Amount ops x → Amount ops (ops.mul (ops.lit 3) x)
  add_mono : ∀ {x y z}, Amount ops x → Amount ops y → Amount ops z → ops.lt x y = true →
    ops.lt (ops.add y z) (ops.add x z) = false
  finite_of_add : ∀ {x y}, Amount ops x → Amount ops y → ops.isFinite (ops.add x y) = true → ops.isFinite y = true
  finite_of_le : ∀ {x}, Amount ops x → ops.lt (ops.lit 480) x = false → ops.isFinite x = true
  number_sub : ∀ {x y}, IsNumber ops x → ops.isFinite y = true → IsNumber ops (ops.sub x y)
  finite_of_sub : ∀ {x y}, ops.isFinite y = true → ops.isFinite (ops.sub x y) = true → ops.isFinite x = true
  number_add : ∀ {x y}, ops.isFinite x = true → IsNumber ops y → IsNumber ops (ops.add x y)
  number_scale : ∀ {x} {k n : ℕ}, IsNumber ops x → 0 < k → k ≤ n → n ≤ 960 →
    IsNumber ops (ops.mul x (ops.div (ops.lit k) (ops.lit n)))
  amount_hypot3 : ∀ {x y z}, IsNumber ops x → IsNumber ops y → IsNumber ops z → Amount ops (ops.hypot3 x y z)
  finite_of_hypot3 : ∀ {x y z}, ops.isFinite (ops.hypot3 x y z) = true →
    ops.isFinite x = true ∧ ops.isFinite y = true
  samples : LivingSurfaceCorridor.SampleLimit ops 960

variable {ops} {x y : F}

theorem number_of_finite (h : ops.isFinite x = true) : IsNumber ops x := ops.eq_self h

/-- Where all keys are numbers, a comparison by their keys is a preference. -/
theorem SinglePrecision.preference {α : Type*} (h : SinglePrecision ops) {key : α → F}
    (hkey : ∀ a, IsNumber ops (key a)) : HeapOrder.Preference fun a b => ops.lt (key a) (key b) = true := by
  constructor
  · intro a b hab hba
    exact Bool.false_ne_true ((h.lt_asymm hab).symm.trans hba)
  · intro a b c hba hcb hca
    rcases h.lt_cotrans (hkey b) hca with hlt | hlt
    · exact hcb hlt
    · exact hba hlt

end Numbers

namespace LivingSurfaceCorridor

variable {F : Type} {ops : FloatOps F} {request : Request F} {s t : Search F}
  {log : Probe.Transcript (SurfaceQuery F) SurfaceQuery.Answer}

/-! ### Heights -/

theorem requireHeight_finite {σ : Type} {t failed : σ} {p : ActionPosition F} {next : F → SurfaceProbe F σ}
    (h : (requireHeight ops p failed next).Runs log t) :
    t = failed ∨ ∃ height rest, ops.isFinite height = true ∧ (next height).Runs rest t := by
  obtain ⟨front, back, answer, -, -, h⟩ := Probe.runs_bind.mp h
  cases answer with
  | none => exact .inl (Probe.runs_pure.mp h).2
  | some height =>
    dsimp only at h
    split at h
    next hfinite => exact .inr ⟨height, back, hfinite, h⟩
    · exact .inl (Probe.runs_pure.mp h).2

theorem start_height (h : (start ops request s).Runs log t) :
    t.state = .rejected ∨ ops.isFinite t.previousHeight = true := by
  unfold start at h
  dsimp only at h
  split at h
  · obtain ⟨-, rfl⟩ := Probe.runs_pure.mp h
    exact .inl rfl
  obtain rfl | ⟨_, h⟩ := require_cases h
  · exact .inl rfl
  obtain rfl | ⟨_, h⟩ := require_cases h
  · exact .inl rfl
  obtain rfl | ⟨_, h⟩ := require_cases h
  · exact .inl rfl
  obtain rfl | ⟨_, h⟩ := require_cases h
  · exact .inl rfl
  split at h
  · obtain ⟨-, rfl⟩ := Probe.runs_pure.mp h
    exact .inl rfl
  obtain rfl | ⟨height, _, hfinite, h⟩ := requireHeight_finite h
  · exact .inl rfl
  split at h <;> obtain ⟨-, rfl⟩ := Probe.runs_pure.mp h
  · exact .inl rfl
  · exact .inr hfinite

theorem sample_height (h : (sample ops request s).Runs log t) : t.state = .rejected ∨
    ∃ height point, ops.isFinite height = true ∧ point = { samplePoint ops request s with z := height } ∧
      ops.lt (ops.lit 480) t.length = false ∧ t = { s with
        length := ops.add s.length (stride ops (s.route.getLastD request.fromPosition) point)
        route := s.route ++ [point]
        previousHeight := height
        nextSample := s.nextSample + 1 } := by
  unfold sample at h
  dsimp only at h
  obtain rfl | ⟨_, h⟩ := require_cases h
  · exact .inl rfl
  obtain rfl | ⟨height, _, hfinite, h⟩ := requireHeight_finite h
  · exact .inl rfl
  split at h
  · obtain ⟨-, rfl⟩ := Probe.runs_pure.mp h
    exact .inl rfl
  obtain rfl | ⟨_, h⟩ := require_cases h
  · exact .inl rfl
  obtain rfl | ⟨_, h⟩ := require_cases h
  · exact .inl rfl
  split at h
  · obtain ⟨-, rfl⟩ := Probe.runs_pure.mp h
    exact .inl rfl
  next hlength =>
    obtain ⟨-, rfl⟩ := Probe.runs_pure.mp h
    exact .inr ⟨height, _, hfinite, rfl, Bool.eq_false_iff.mpr hlength, rfl⟩

/-! ### Lengths -/

/-- The places of a walk are finite, and its length is an amount. -/
structure Measured (ops : FloatOps F) (s : Search F) : Prop where
  length : Amount ops s.length
  route : ∀ p ∈ s.route, finite ops p = true
  next : 0 < s.nextSample
  height : s.started = true → ops.isFinite s.previousHeight = true
  samples : s.started = true → s.samples ≤ 960

theorem Measured.initial (hops : SinglePrecision ops) : Measured ops (.initial ops) :=
  ⟨hops.amount_zero, by simp [Search.initial], Nat.one_pos, nofun, nofun⟩

theorem Measured.start (hops : SinglePrecision ops) (h : Measured ops s) (hrun : (start ops request s).Runs log t) :
    t.state = .rejected ∨ Measured ops t := by
  obtain hrejected | ⟨hfor, -, hnext, hroute, hlength, hwalkable, hsamples⟩ := start_cases hrun
  · exact .inl hrejected
  · refine (start_height hrun).imp_right fun hheight => ⟨hlength ▸ h.length, fun p hp => ?_, hnext ▸ h.next,
      fun _ => hheight, fun _ => hsamples ▸ hops.samples _ _ hfor.finiteFrom hfor.finiteTarget hwalkable⟩
    rw [hroute, List.mem_append, List.mem_singleton] at hp
    rcases hp with hp | rfl
    · exact h.route p hp
    · exact hfor.finiteFrom

theorem finite_iff {p : ActionPosition F} : finite ops p = true ↔
    ops.isFinite p.x = true ∧ ops.isFinite p.y = true ∧ ops.isFinite p.z = true := by
  simp [finite, and_assoc]

theorem Measured.sample (hops : SinglePrecision ops) (h : Measured ops s) (hfor : StartedFor ops request s)
    (hnext : s.nextSample ≤ s.samples) (hrun : (sample ops request s).Runs log t) :
    t.state = .rejected ∨ Measured ops t := by
  obtain hrejected | ⟨height, point, hheight, hpoint, hshort, rfl⟩ := sample_height hrun
  · exact .inl hrejected
  obtain ⟨hfromx, hfromy, -⟩ := finite_iff.mp hfor.finiteFrom
  obtain ⟨htox, htoy, -⟩ := finite_iff.mp hfor.finiteTarget
  have hprevious : finite ops (s.route.getLastD request.fromPosition) = true := by
    rw [List.getLastD_eq_getLast?]
    cases hlast : s.route.getLast? with
    | none => exact hfor.finiteFrom
    | some last => exact h.route last (List.mem_of_getLast? hlast)
  obtain ⟨hpx, hpy, hpz⟩ := finite_iff.mp hprevious
  have hsamples := h.samples hfor.started
  have hx : IsNumber ops point.x := by
    rw [hpoint]
    exact hops.number_add hfromx (hops.number_scale (hops.number_sub (number_of_finite htox) hfromx) h.next hnext hsamples)
  have hy : IsNumber ops point.y := by
    rw [hpoint]
    exact hops.number_add hfromy (hops.number_scale (hops.number_sub (number_of_finite htoy) hfromy) h.next hnext hsamples)
  have hz : ops.isFinite point.z = true := by rw [hpoint]; exact hheight
  have hstride : Amount ops (stride ops (s.route.getLastD request.fromPosition) point) :=
    hops.amount_hypot3 (hops.number_sub hx hpx) (hops.number_sub hy hpy) (hops.number_sub (number_of_finite hz) hpz)
  have hlength := hops.amount_add h.length hstride
  have hfinite := hops.finite_of_add h.length hstride (hops.finite_of_le hlength hshort)
  obtain ⟨hdx, hdy⟩ := hops.finite_of_hypot3 hfinite
  refine .inr ⟨hlength, fun p hp => ?_, Nat.succ_pos _, fun _ => hheight, h.samples⟩
  rcases List.mem_append.mp hp with hp | hp
  · exact h.route p hp
  · rw [List.mem_singleton.mp hp]
    exact finite_iff.mpr ⟨hops.finite_of_sub hpx hdx, hops.finite_of_sub hpy hdy, hz⟩

theorem Measured.finishPending (h : s.state = .rejected ∨ Measured ops s) :
    (finishPending ops request s).state = .rejected ∨ Measured ops (finishPending ops request s) := by
  unfold LivingSurfaceCorridor.finishPending finish
  split
  next hpending =>
    have hs := h.resolve_left (by simp [hpending])
    split
    · exact .inr hs
    · split
      · exact .inl rfl
      · exact .inr ⟨hs.length, hs.route, hs.next, hs.height, hs.samples⟩
  · exact h

theorem tick_measured (hops : SinglePrecision ops) (hpending : Pending s) (hs : Awaits ops request s)
    (h : Measured ops s) (hrun : (tick ops request () s).Runs log t) :
    Awaits ops request t ∧ (t.state = .rejected ∨ Measured ops t) := by
  obtain ⟨front, back, m, rfl, hfirst, hlast⟩ := Probe.runs_bind.mp hrun
  obtain ⟨-, rfl⟩ := Probe.runs_pure.mp hlast
  cases hstarted : s.started with
  | true =>
    rw [if_pos hstarted] at hfirst
    obtain ⟨hfor, hnext⟩ := hs hpending hstarted
    refine ⟨awaits_finishPending fun hm _ => ?_, Measured.finishPending (h.sample hops hfor hnext hfirst)⟩
    obtain hrejected | ⟨_, _, rfl⟩ := sample_cases hfirst
    · simp [Pending, hrejected] at hm
    · exact hfor.sample
  | false =>
    rw [if_neg (by simp [hstarted])] at hfirst
    refine ⟨awaits_finishPending fun hm _ => ?_, Measured.finishPending (h.start hops hfirst)⟩
    obtain hrejected | ⟨hfor, -⟩ := start_cases hfirst
    · simp [Pending, hrejected] at hm
    · exact hfor

/-- The length of a walk that completes is an amount. -/
theorem calls_measured (hops : SinglePrecision ops)
    {calls : List (UInt32 × Probe.Transcript (SurfaceQuery F) SurfaceQuery.Answer)}
    (h : Calls ops request (.initial ops) calls t) (hcomplete : t.state = .complete) : Amount ops t.length := by
  obtain ⟨ticks, hticks, -⟩ := h.refine (fun s i log m hs hlive h => advance_ticks hs hlive h) awaits_initial
  have hend := hticks.keeps (P := fun s => Awaits ops request s ∧ (s.state = .rejected ∨ Measured ops s))
    (fun s _ _ m hs hlive hrun => tick_measured hops hlive hs.1 (hs.2.resolve_left (by simp [hlive])) hrun)
    ⟨awaits_initial, .inr (.initial hops)⟩
  exact (hend.2.resolve_left (by simp [hcomplete])).length

end LivingSurfaceCorridor

end AIWorld.Agent
