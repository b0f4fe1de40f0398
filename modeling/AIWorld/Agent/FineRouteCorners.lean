import AIWorld.Agent.FineRoute
import AIWorld.Agent.SurfaceWalks

/-! A fine route keeps its corners, in exact arithmetic. The corners of a batch are those of the plan, those that
remain are the last ones of the batch, and a batch that is proved again has all of them in their order. -/

namespace AIWorld.Agent.FineRoute

open Lib Lib.Thinning
open LivingFineRoute (maxControls maxDensePoints)

variable {source last a b p front : ActionPosition ℝ} {planned stretch rest corners controls dense : List (ActionPosition ℝ)}
  {length : ℝ} {useful limit : ℕ}

theorem distance_exact (a b : ActionPosition ℝ) : distance exactFloats a b = dist (vec a) (vec b) := (dist_vec a b).symm

theorem near_iff : near exactFloats a b = true ↔ dist (vec a) (vec b) ≤ 1 / 1000 := by
  simp [near, distance_exact]

theorem not_near_iff : near exactFloats a b = false ↔ 1 / 1000 < dist (vec a) (vec b) := by
  rw [← Bool.not_eq_true, near_iff, not_le]

theorem far_iff : far exactFloats a b = true ↔ 1 < dist (vec a) (vec b) := by
  simp [far, distance_exact]

theorem finite_exact (p : ActionPosition ℝ) : LivingSurfaceCorridor.finite exactFloats p = true := by
  simp [LivingSurfaceCorridor.finite]

/-! ### Bounded routes -/

theorem boundedFrom_cons : boundedFrom exactFloats front a length (p :: rest) = true ↔
    p.mapId = front.mapId ∧ near exactFloats a p = false ∧ length + dist (vec a) (vec p) ≤ 6 ∧
      boundedFrom exactFloats front p (length + dist (vec a) (vec p)) rest = true := by
  simp [boundedFrom, finite_exact, near, distance_exact, maxLength, and_assoc]

theorem bounded_cons : bounded exactFloats (front :: rest) limit = true ↔
    (limit = maxControls ∨ limit = maxDensePoints) ∧ rest ≠ [] ∧ rest.length + 1 ≤ limit ∧
      1 < dist (vec front) (vec (rest.getLastD front)) ∧ boundedFrom exactFloats front front 0 rest = true := by
  simp [bounded, finite_exact, distance_exact, and_assoc, List.getLast?_cons]

theorem boundedFrom_prefix {some more : List (ActionPosition ℝ)}
    (h : boundedFrom exactFloats front a length (some ++ more) = true) :
    boundedFrom exactFloats front a length some = true := by
  induction some generalizing a length with
  | nil => rfl
  | cons p rest ih =>
    rw [List.cons_append] at h
    obtain ⟨hmap, hnear, hlength, hrest⟩ := boundedFrom_cons.mp h
    exact boundedFrom_cons.mpr ⟨hmap, hnear, hlength, ih hrest⟩

/-- The corners of a bounded route stand apart. -/
theorem apart_of_boundedFrom (h : boundedFrom exactFloats front a length rest = true) :
    (a :: rest).IsChain fun a b => near exactFloats a b = false := by
  induction rest generalizing a length with
  | nil => exact .singleton a
  | cons p rest ih =>
    obtain ⟨-, hnear, -, hrest⟩ := boundedFrom_cons.mp h
    exact .cons_cons hnear (ih hrest)

/-! ### Batches -/

/-- What the loop adds to a batch: corners of the first part of the plan, bounded, with its useful end. -/
structure Selected (source : ActionPosition ℝ) (stretch : List (ActionPosition ℝ)) (length : ℝ) (useful : ℕ)
    (rest : List (ActionPosition ℝ)) (result : List (ActionPosition ℝ) × ℕ) (added : List (ActionPosition ℝ)) : Prop where
  whole : result.1 = stretch ++ added
  kept : added <+: thin (near exactFloats) (stretch.getLastD source) rest
  bounded : boundedFrom exactFloats source (stretch.getLastD source) length added = true
  few : result.1.length ≤ maxControls
  useful : result.2 = useful ∨ ∃ before point, before ++ [point] <+: result.1 ∧ result.2 = before.length + 1 ∧
    stretch.length ≤ before.length ∧ 1 < dist (vec source) (vec point)

theorem select_spec {result : List (ActionPosition ℝ) × ℕ} (hfew : stretch.length ≤ maxControls)
    (h : select exactFloats source last stretch length useful rest = some result) :
    ∃ added, Selected source stretch length useful rest result added := by
  induction rest generalizing stretch length useful with
  | nil =>
    obtain rfl := Option.some.inj h
    exact ⟨[], (List.append_nil _).symm, List.nil_prefix, rfl, hfew, .inl rfl⟩
  | cons point rest ih =>
    have hnear : (exactFloats.le (distance exactFloats (stretch.getLastD source) point)
      (exactFloats.lit (1 / 1000))) = near exactFloats (stretch.getLastD source) point := rfl
    simp only [select, finite_exact, Bool.not_true, Bool.false_or, decide_eq_true_eq, hnear] at h
    split at h
    · contradiction
    next hmap =>
    split at h
    next hclose =>
      obtain ⟨added, hadded⟩ := ih hfew h
      refine ⟨added, { hadded with kept := ?_ }⟩
      rw [thin, if_pos hclose]
      exact hadded.kept
    next hclose =>
    split at h
    · obtain rfl := Option.some.inj h
      exact ⟨[], (List.append_nil _).symm, List.nil_prefix, rfl, hfew, .inl rfl⟩
    next hstop =>
      obtain ⟨hroom, hshort⟩ := not_or.mp hstop
      have hlonger : (stretch ++ [point]).length ≤ maxControls := by
        rw [List.length_append, List.length_singleton]
        omega
      obtain ⟨added, hadded⟩ := ih hlonger h
      have hlast : (stretch ++ [point]).getLastD source = point := by simp
      have hkept := hadded.kept
      have hbounded := hadded.bounded
      rw [hlast] at hkept hbounded
      refine ⟨point :: added, ?_, ?_, ?_, hadded.few, ?_⟩
      · rw [hadded.whole, List.append_assoc]
        rfl
      · rw [thin, if_neg hclose]
        exact List.cons_prefix_cons.mpr ⟨rfl, hkept⟩
      · simp only [selectionLength, exact_lt, exact_lit, exact_add, distance_exact, decide_eq_true_eq, not_lt] at hshort
        refine boundedFrom_cons.mpr ⟨not_not.mp hmap, Bool.eq_false_iff.mpr hclose, ?_, ?_⟩
        · exact hshort.trans (by norm_num)
        · rwa [← distance_exact]
      · rcases hadded.useful with huseful | ⟨before, q, hprefix, huseful, hlonger, hfar⟩
        · by_cases hends : (far exactFloats source point && (rest.isEmpty || far exactFloats point last)) = true
          · rw [if_pos hends] at huseful
            refine .inr ⟨stretch, point, ?_, ?_, Nat.le_refl _, ?_⟩
            · rw [hadded.whole]
              exact List.prefix_append _ _
            · rw [huseful, List.length_append, List.length_singleton]
            · exact far_iff.mp ((Bool.and_eq_true _ _).mp hends).1
          · rw [if_neg hends] at huseful
            exact .inl huseful
        · refine .inr ⟨before, q, hprefix, huseful, ?_, hfar⟩
          rw [List.length_append] at hlonger
          omega

/-- A batch starts at its source, has the corners of a first part of the plan, and is bounded. -/
theorem batch_spec (h : batch exactFloats source planned ≠ []) : ∃ n, n ≤ planned.length ∧
    batch exactFloats source planned = source :: thin (near exactFloats) source (planned.take n) ∧
    bounded exactFloats (batch exactFloats source planned) maxControls = true := by
  unfold batch at h ⊢
  simp only [finite_exact, Bool.not_true, Bool.false_eq_true, if_false] at h ⊢
  cases hselect : select exactFloats source (planned.getLastD source) [source] (exactFloats.lit 0) 0 planned with
  | none =>
    rw [hselect] at h
    contradiction
  | some result =>
    rw [hselect] at h
    dsimp only at h ⊢
    obtain ⟨added, hadded⟩ := select_spec (Nat.le_of_ble_eq_true rfl) hselect
    rcases hadded.useful with huseful | ⟨before, point, hprefix, huseful, hlonger, hfar⟩
    · rw [huseful] at h
      exact absurd rfl h
    have htake : result.1.take result.2 = before ++ [point] := by
      rw [huseful]
      have hlen : before.length + 1 = (before ++ [point]).length := by simp
      rw [hlen]
      exact (List.prefix_iff_eq_take.mp hprefix).symm
    rw [htake]
    have hfew := hprefix.length_le.trans hadded.few
    rw [hadded.whole] at hprefix
    -- The useful end lies past the source.
    obtain ⟨first, middle, rfl⟩ := List.exists_cons_of_length_pos hlonger
    rw [List.cons_append, List.singleton_append, List.cons_prefix_cons] at hprefix
    obtain ⟨rfl, hadds⟩ := hprefix
    have hkept : middle ++ [point] <+: thin (near exactFloats) first planned := hadds.trans hadded.kept
    refine ⟨passed (near exactFloats) first (middle ++ [point]).length planned, passed_le, ?_, ?_⟩
    · rw [thin_take_passed, ← List.prefix_iff_eq_take.mp hkept]
      rfl
    · have hbounded : boundedFrom exactFloats first first 0 (middle ++ [point]) = true := by
        obtain ⟨more, hmore⟩ := hadds
        have hwhole := hadded.bounded
        rw [← hmore] at hwhole
        have hzero : exactFloats.lit 0 = 0 := by simp
        rw [hzero] at hwhole
        exact boundedFrom_prefix hwhole
      rw [List.cons_append]
      refine bounded_cons.mpr ⟨.inl rfl, by simp, ?_, ?_, hbounded⟩
      · simpa using hfew
      · rwa [List.getLastD_concat]

/-! ### What remains -/

theorem resumes_eq : (fun a b => !exactFloats.lt (exactFloats.lit (1 / 1000)) (distance exactFloats a b)) =
    near exactFloats := by
  funext a b
  simp [near, ← not_lt]

/-- The start of a segment is its own projection. -/
theorem projection_start (a b : ActionPosition ℝ) : projection exactFloats a a b = a := by
  have hone : ¬(1 : ℝ) < 0 := by norm_num
  simp [projection, clamp, hone]

theorem remainingFrom_start (h : boundedFrom exactFloats front front length (b :: rest) = true) :
    remainingFrom exactFloats front front (b :: rest) = front :: b :: rest := by
  have hat : exactFloats.lt (sourceTolerance exactFloats) (distance exactFloats front front) = false := by
    simp [sourceTolerance, distance_exact]
  rw [remainingFrom, projection_start, hat, resumes_eq, thin_eq_self (apart_of_boundedFrom h)]
  rfl

/-- From its front all of a bounded route remains. -/
theorem remaining_front (h : bounded exactFloats (front :: rest) limit = true) :
    remaining exactFloats front (front :: rest) limit = front :: rest := by
  obtain ⟨-, hne, -, -, hbounded⟩ := bounded_cons.mp h
  obtain ⟨b, rest, rfl⟩ := List.exists_cons_of_ne_nil hne
  rw [remaining, if_neg (by simp [h, finite_exact])]
  exact remainingFrom_start hbounded

theorem remainingFrom_spec (hapart : (a :: rest).IsChain fun a b => near exactFloats a b = false)
    (h : remainingFrom exactFloats source a rest ≠ []) : ∃ before skipped after, a :: rest = before ++ (skipped ++ after) ∧
      before ≠ [] ∧ (∀ p ∈ skipped, dist (vec source) (vec p) ≤ 1 / 1000) ∧
      remainingFrom exactFloats source a rest = source :: after := by
  induction rest generalizing a with
  | nil => contradiction
  | cons b rest ih =>
    unfold remainingFrom at h ⊢
    split at h
    next hoff =>
      obtain ⟨before, skipped, after, hrest, -, hskipped, hafter⟩ := ih hapart.tail h
      exact ⟨a :: before, skipped, after, by rw [hrest]; rfl, List.cons_ne_nil _ _, hskipped, by rw [if_pos hoff, hafter]⟩
    next hon =>
      have hrest : (b :: rest).IsChain fun a b => near exactFloats a b = false := hapart.tail
      rw [if_neg hon, resumes_eq, thin_of_apart hrest]
      refine ⟨[a], (b :: rest).takeWhile (near exactFloats source), _, ?_, List.cons_ne_nil _ _, fun p hp => ?_, rfl⟩
      · rw [List.takeWhile_append_dropWhile]
        rfl
      · exact near_iff.mp (List.mem_takeWhile_imp hp)

/-- What remains starts at the source and has the last corners of the route, all but those that lie there too. -/
theorem remaining_spec (h : remaining exactFloats source controls limit ≠ []) :
    ∃ before skipped after, controls = before ++ (skipped ++ after) ∧ before ≠ [] ∧
      (∀ p ∈ skipped, dist (vec source) (vec p) ≤ 1 / 1000) ∧
      remaining exactFloats source controls limit = source :: after := by
  unfold remaining at h ⊢
  cases controls with
  | nil => contradiction
  | cons front rest =>
    dsimp only at h ⊢
    split at h
    · contradiction
    next hgood =>
      rw [if_neg hgood]
      simp only [Bool.or_eq_true, not_or, Bool.not_eq_true', Bool.not_eq_false] at hgood
      exact remainingFrom_spec (apart_of_boundedFrom (bounded_cons.mp hgood.1.1).2.2.2.2) h

/-! ### The end of a walk -/

open LivingSurfaceCorridor in
/-- A walk to a known height ends near it. -/
theorem tick_level {request : Request ℝ} {s t : Search ℝ} {log : SurfaceLog} (hend : request.resolveEndpointHeight = false)
    (hpending : Pending s) (h : (tick exactFloats request () s).Runs log t) (hcomplete : t.state = .complete) :
    |(t.route.getLastD request.fromPosition).z - request.target.z| ≤ 1 := by
  obtain ⟨front, back, m, rfl, hfirst, hlast⟩ := Probe.runs_bind.mp h
  obtain ⟨-, rfl⟩ := Probe.runs_pure.mp hlast
  have hm : m.state = .rejected ∨ Pending m := by
    split at hfirst
    · obtain hm | ⟨_, _, rfl⟩ := sample_cases hfirst
      · exact .inl hm
      · exact .inr hpending
    · obtain hm | ⟨-, hm, -⟩ := start_cases hfirst
      · exact .inl hm
      · exact .inr (hm.trans hpending)
  rcases hm with hm | hm
  · rw [finishPending_of_not_pending (by simp [Pending, hm]), hm] at hcomplete
    contradiction
  · rw [finishPending, if_pos hm] at hcomplete ⊢
    unfold finish at hcomplete ⊢
    split at hcomplete
    · rw [hm] at hcomplete
      contradiction
    next hall =>
      rw [if_neg hall]
      split at hcomplete
      · contradiction
      next hlevel =>
        rw [if_neg hlevel]
        simpa [hend] using hlevel

open LivingSurfaceCorridor in
theorem calls_level {request : Request ℝ} {t : Search ℝ} {calls : List (UInt32 × SurfaceLog)}
    (hend : request.resolveEndpointHeight = false) (h : Calls exactFloats request (.initial exactFloats) calls t)
    (hcomplete : t.state = .complete) : |(t.route.getLastD request.fromPosition).z - request.target.z| ≤ 1 := by
  obtain ⟨ticks, hticks, -⟩ := h.refine (fun s i log m hs hlive h => advance_ticks hs hlive h) awaits_initial
  exact hticks.keeps (P := fun s => s.state = .complete →
      |(s.route.getLastD request.fromPosition).z - request.target.z| ≤ 1)
    (fun _ _ _ _ _ hlive hrun => tick_level hend hlive hrun) (fun h => absurd h (by simp [Search.initial])) hcomplete

/-- The samples of one segment: those between do not stand at its end, and the last does. -/
def Resampling (corner : ActionPosition ℝ) (samples : List (ActionPosition ℝ)) : Prop :=
  ∃ between last, samples = between ++ [last] ∧ (∀ p ∈ between, standsAt exactFloats corner p = false) ∧
    standsAt exactFloats corner last = true

theorem standsAt_iff : standsAt exactFloats a p = true ↔ (p.x = a.x ∧ p.y = a.y) ∧ |p.z - a.z| ≤ 1 := by
  simp [standsAt]

/-- A place on the way is not the end of it. -/
theorem place_before {n i : ℕ} {z : ℝ} (hi : i < n) (hreach : 0 < reach a b) :
    standsAt exactFloats b (place a b n i z) = false := by
  rw [← Bool.not_eq_true, standsAt_iff]
  rintro ⟨⟨hx, hy⟩, -⟩
  have hn : (n : ℝ) ≠ 0 := Nat.cast_ne_zero.mpr (by omega)
  have hlt : (i : ℝ) / n - 1 ≠ 0 := by
    rw [sub_ne_zero, ne_eq, div_eq_one_iff_eq hn]
    exact_mod_cast hi.ne
  have hx0 : (b.x - a.x) * (i / n - 1) = 0 := by
    simp only [place] at hx
    linear_combination hx
  have hy0 : (b.y - a.y) * (i / n - 1) = 0 := by
    simp only [place] at hy
    linear_combination hy
  have hzero : reach a b = 0 := by
    rw [reach, (mul_eq_zero.mp hx0).resolve_right hlt, (mul_eq_zero.mp hy0).resolve_right hlt]
    simp
  exact hreach.ne' hzero

open LivingSurfaceCorridor in
theorem advance_resamples {budget : UInt32} {t : Search ℝ} {log : SurfaceLog}
    (h : (advance exactFloats ⟨a, b, false⟩ budget (.initial exactFloats)).Runs log t) (hcomplete : t.state = .complete) :
    ∃ samples, t.route = a :: samples ∧ Resampling b samples := by
  have hcalls : Calls exactFloats ⟨a, b, false⟩ (.initial exactFloats) [(budget, log)] t := .cons rfl h (.nil _)
  obtain ⟨hrejected, -⟩ | ⟨hpending, -⟩ | ⟨-, floors, k, hsurveyed, hk⟩ := calls_sound hcalls
  · rw [hcomplete] at hrejected
    contradiction
  · rw [Pending, hcomplete] at hpending
    contradiction
  · have hall : k = t.samples := by
      rcases hk with ⟨hpending, -⟩ | ⟨-, hk⟩
      · rw [Pending, hcomplete] at hpending
        contradiction
      · exact hk
    have hreach : 0 < reach a b := lt_of_lt_of_le (by norm_num) hsurveyed.range.1
    have hne : k ≠ 0 := by
      rw [hall, hsurveyed.samples]
      exact (Nat.ceil_pos.mpr (by positivity)).ne'
    obtain ⟨m, rfl⟩ := Nat.exists_eq_succ_of_ne_zero hne
    have hroute := hsurveyed.route
    have hlevel := calls_level rfl hcalls hcomplete
    rw [← hall, Nat.succ_eq_add_one, List.range'_1_concat, List.map_append, List.map_singleton, add_comm 1 m] at hroute
    refine ⟨_, hroute, _, _, rfl, fun p hp => ?_, ?_⟩
    · obtain ⟨i, hi, rfl⟩ := List.mem_map.mp hp
      exact place_before (by rw [List.mem_range'_1] at hi; omega) hreach
    · rw [hroute, ← List.cons_append, List.getLastD_concat] at hlevel
      exact standsAt_iff.mpr ⟨place_last a b hne _, hlevel⟩

/-! ### Proving it again -/

/-- A list of samples, segment by segment. -/
inductive Resampled : List (ActionPosition ℝ) → List (ActionPosition ℝ) → Prop
  | nil : Resampled [] []
  | cons {corner : ActionPosition ℝ} {samples corners dense : List (ActionPosition ℝ)} (h : Resampling corner samples)
      (hrest : Resampled corners dense) : Resampled (corner :: corners) (samples ++ dense)

/-- Looking for the corners one after another finds each at the end of its segment. -/
theorem Resampled.retains (h : Resampled corners dense) : retains exactFloats corners dense = true := by
  induction h with
  | nil => rfl
  | cons h _ ih =>
    obtain ⟨between, last, rfl, hbetween, hlast⟩ := h
    rw [FineRoute.retains, List.append_assoc, List.dropWhile_append_of_pos (by simpa using hbetween),
      List.singleton_append, List.dropWhile_cons_of_neg (by simp [hlast])]
    exact ih

theorem revalidateLoop_spec {result final : List (ActionPosition ℝ)} {executed : ℝ} {failure : Failure} {log : SurfaceLog}
    (h : (revalidateLoop exactFloats source corners result executed).Runs log (final, failure)) (hne : final ≠ []) :
    ∃ dense, final = result ++ dense ∧ Resampled corners dense := by
  induction corners generalizing result executed log with
  | nil =>
    obtain ⟨-, hfinal⟩ := Probe.runs_pure.mp h
    obtain ⟨rfl, -⟩ := Prod.mk.inj hfinal
    exact ⟨[], (List.append_nil _).symm, .nil⟩
  | cons corner corners ih =>
    obtain ⟨front, back, segment, rfl, hsegment, hrest⟩ := Probe.runs_bind.mp h
    split at hrest
    · obtain ⟨-, hfinal⟩ := Probe.runs_pure.mp hrest
      exact absurd (Prod.mk.inj hfinal).1 hne
    next hcomplete =>
    split at hrest
    · obtain ⟨-, hfinal⟩ := Probe.runs_pure.mp hrest
      exact absurd (Prod.mk.inj hfinal).1 hne
    obtain ⟨samples, hroute, hsamples⟩ := advance_resamples hsegment (not_not.mp hcomplete)
    split at hrest
    · obtain ⟨-, hfinal⟩ := Probe.runs_pure.mp hrest
      exact absurd (Prod.mk.inj hfinal).1 hne
    · obtain ⟨dense, hfinal, hdense⟩ := ih hrest
      rw [hroute, List.tail_cons, List.append_assoc] at hfinal
      exact ⟨samples ++ dense, hfinal, .cons hsamples hdense⟩

theorem revalidate_spec {final : List (ActionPosition ℝ)} {failure : Failure} {log : SurfaceLog}
    (h : (revalidate exactFloats source controls limit).Runs log (final, failure)) (hne : final ≠ []) :
    ∃ corners dense, remaining exactFloats source controls limit = source :: corners ∧ final = source :: dense ∧
      Resampled corners dense := by
  unfold revalidate at h
  split at h
  next first corner corners hremaining =>
    obtain ⟨dense, hfinal, hdense⟩ := revalidateLoop_spec h hne
    obtain ⟨-, -, after, -, -, -, hafter⟩ := remaining_spec (by rw [hremaining]; exact List.cons_ne_nil _ _)
    rw [hremaining] at hafter
    obtain ⟨rfl, -⟩ := List.cons.inj hafter
    exact ⟨_, dense, hremaining, hfinal, hdense⟩
  · obtain ⟨-, hfinal⟩ := Probe.runs_pure.mp h
    exact absurd (Prod.mk.inj hfinal).1 hne

/-! ### All of them -/

/-- Fine routes keep every corner. A batch has the corners of a first part of the plan; from its front all of a
bounded route remains, and from elsewhere its last corners; and a route that is proved again retains them. -/
theorem fine_routes_keep_corners :
    (∀ (source : ActionPosition ℝ) (planned : List (ActionPosition ℝ)), batch exactFloats source planned ≠ [] →
      bounded exactFloats (batch exactFloats source planned) maxControls = true ∧ ∃ n ≤ planned.length,
        batch exactFloats source planned = source :: thin (near exactFloats) source (planned.take n)) ∧
    (∀ (front : ActionPosition ℝ) (rest : List (ActionPosition ℝ)) (limit : ℕ),
      bounded exactFloats (front :: rest) limit = true →
        remaining exactFloats front (front :: rest) limit = front :: rest) ∧
    (∀ (source : ActionPosition ℝ) (controls : List (ActionPosition ℝ)) (limit : ℕ),
      remaining exactFloats source controls limit ≠ [] → ∃ before skipped after,
        controls = before ++ (skipped ++ after) ∧ before ≠ [] ∧
        (∀ p ∈ skipped, dist (vec source) (vec p) ≤ 1 / 1000) ∧
        remaining exactFloats source controls limit = source :: after) ∧
    ∀ (source : ActionPosition ℝ) (controls : List (ActionPosition ℝ)) (limit : ℕ) (log : SurfaceLog)
      (result : List (ActionPosition ℝ)) (failure : Failure),
      (revalidate exactFloats source controls limit).Runs log (result, failure) → result ≠ [] →
      bounded exactFloats result maxDensePoints = true →
      bounded exactFloats (remaining exactFloats source controls limit) maxControls = true →
        retainsCorners exactFloats (remaining exactFloats source controls limit) result = true := by
  refine ⟨fun source planned h => ?_, fun front rest limit => remaining_front,
    fun source controls limit => remaining_spec, fun source controls limit log result failure h hne hdense hcorners => ?_⟩
  · obtain ⟨n, hn, hbatch, hbounded⟩ := batch_spec h
    exact ⟨hbounded, n, hn, hbatch⟩
  · obtain ⟨corners, dense, hremaining, rfl, hresampled⟩ := revalidate_spec h hne
    rw [hremaining] at hcorners ⊢
    simp [retainsCorners, hcorners, hdense, sourceTolerance, distance_exact, hresampled.retains]

/-- A place on a straight line. -/
noncomputable def along (q : ℚ) : ActionPosition ℝ := ⟨0, exactFloats.lit q, 0, 0⟩

theorem dist_along (q r : ℚ) : dist (vec (along q)) (vec (along r)) = |(q : ℝ) - r| := by
  simp [dist_vec, along, Real.sqrt_sq_eq_abs]

theorem straight_bounded : bounded exactFloats [along 0, along (3 / 2)] maxControls = true := by
  refine bounded_cons.mpr ⟨.inl rfl, by simp, by decide, ?_, boundedFrom_cons.mpr ⟨rfl, not_near_iff.mpr ?_, ?_, rfl⟩⟩
  all_goals
    simp only [List.getLastD_cons, List.getLastD_nil, dist_along]
    norm_num [abs_of_neg]

theorem straight_batch : batch exactFloats (along 0) [along (3 / 2)] = [along 0, along (3 / 2)] := by
  have hdist : dist (vec (along 0)) (vec (along (3 / 2))) = 3 / 2 := by
    rw [dist_along]
    norm_num [abs_of_neg]
  have hmap : (along (3 / 2)).mapId = (along 0).mapId := rfl
  norm_num [batch, select, finite_exact, distance_exact, hdist, far, selectionLength, maxControls, hmap]

/-- The route between them, proved again. -/
noncomputable def again : SurfaceLog × List (ActionPosition ℝ) × Failure :=
  Probe.eval openFloor (revalidate exactFloats (along 0) [along 0, along (3 / 2)] maxControls)

theorem again_eq : again.2.1 = [along 0, along (1 / 2), along 1, along (3 / 2)] := by
  have hroot : √((3 / 2 : ℝ) ^ 2) = 3 / 2 := Real.sqrt_sq (by norm_num)
  have hback : √(((2 : ℝ)⁻¹ - 1) ^ 2) = 2⁻¹ ∧ √(((1 : ℝ) - 3 / 2) ^ 2) = 2⁻¹ := by
    norm_num [Real.sqrt_sq_eq_abs, abs_of_neg]
  have hlow : ¬((3 / 2 : ℝ) < 100⁻¹) := by norm_num
  have hhigh : ¬(480 < (3 : ℝ) / 2) := by norm_num
  have hcliff : ¬((3 : ℝ) / 4 < 0) := by norm_num
  have hone : ¬((1 : ℝ) < 0) := by norm_num
  have hfirst : (3 / 2 * (3⁻¹ : ℝ)) = 2⁻¹ := by norm_num
  have hsecond : (1 : ℝ) - 2⁻¹ = 2⁻¹ := by norm_num
  have hthird : (3 : ℝ) / 2 - 1 = 2⁻¹ := by norm_num
  have hsum : (2 : ℝ)⁻¹ + 2⁻¹ = 1 := by norm_num
  have hlast : (1 : ℝ) + 2⁻¹ = 3 / 2 := by norm_num
  have hhalf : ¬(480 < (2 : ℝ)⁻¹) := by norm_num
  have hyard : ¬(480 < (1 : ℝ)) := by norm_num
  have hmax : ¬(6 < (2 : ℝ)⁻¹) ∧ ¬(6 < (1 : ℝ)) ∧ ¬((6 : ℝ) < 3 / 2) := by norm_num
  rw [again, revalidate, remaining_front straight_bounded]
  simp [revalidateLoop, LivingSurfaceCorridor.advance, LivingSurfaceCorridor.contextChanged,
    LivingSurfaceCorridor.Search.initial, LivingSurfaceCorridor.start, LivingSurfaceCorridor.finite, require, requireHeight, Bind.bind, Probe.bind, Pure.pure, contains,
    hasTile, heightAt, clearSegment, Probe.eval, openFloor, along, hroot, hlow, hhigh, hcliff, hone,
    LivingSurfaceCorridor.sampleLoop, LivingSurfaceCorridor.sample, LivingSurfaceCorridor.samplePoint,
    LivingSurfaceCorridor.finishPending, LivingSurfaceCorridor.finish, hback, hfirst, hsecond, hthird, hsum, hlast,
    hhalf, hyard, hmax, walked, distance_exact, dist_vec, maxLength, maxDensePoints]

theorem again_bounded : bounded exactFloats again.2.1 maxDensePoints = true := by
  rw [again_eq]
  refine bounded_cons.mpr ⟨.inr rfl, by simp, by decide, ?_, ?_⟩
  · simp only [List.getLastD_cons, List.getLastD_nil, dist_along]
    norm_num [abs_of_neg]
  · simp only [boundedFrom_cons, not_near_iff, dist_along]
    norm_num [abs_of_neg, boundedFrom, along]

theorem fine_routes_keep_corners_straight :
    bounded exactFloats (batch exactFloats (along 0) [along (3 / 2)]) maxControls = true ∧
    remaining exactFloats (along 0) [along 0, along (3 / 2)] maxControls = [along 0, along (3 / 2)] ∧
    (∃ before skipped after, [along 0, along (3 / 2)] = before ++ (skipped ++ after) ∧ before ≠ [] ∧
      (∀ p ∈ skipped, dist (vec (along 0)) (vec p) ≤ 1 / 1000) ∧
      remaining exactFloats (along 0) [along 0, along (3 / 2)] maxControls = along 0 :: after) ∧
    retainsCorners exactFloats (remaining exactFloats (along 0) [along 0, along (3 / 2)] maxControls) again.2.1 = true := by
  obtain ⟨hbatch, hfront, hremaining, hagain⟩ := fine_routes_keep_corners
  have hall := hfront (along 0) [along (3 / 2)] maxControls straight_bounded
  have hne : remaining exactFloats (along 0) [along 0, along (3 / 2)] maxControls ≠ [] := by
    rw [hall]
    exact List.cons_ne_nil _ _
  refine ⟨(hbatch _ _ ?_).1, hall, hremaining _ _ _ hne, hagain _ _ maxControls again.1 again.2.1 again.2.2 ?_ ?_ again_bounded ?_⟩
  · rw [straight_batch]
    exact List.cons_ne_nil _ _
  · exact Probe.runs_eval openFloor _
  · rw [again_eq]
    exact List.cons_ne_nil _ _
  · rw [hall]
    exact straight_bounded

end AIWorld.Agent.FineRoute
