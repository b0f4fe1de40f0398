import AIWorld.Agent.ExactGeometry
import AIWorld.Agent.LivingReturnPolicy
import Mathlib.Analysis.Normed.Affine.AddTorsor

/-! What the corridor of a path covers, in exact arithmetic. Every segment longer than a hundredth of a yard is
walked to its end in equal steps of at most fourteen yards; a shorter one is left out, and the next step begins
at its end all the same. So the gap between two steps is longer by what was left out between them. -/

namespace AIWorld.Agent.LivingReturnPolicy

open LivingSurfaceCorridor (finite)

variable {a b : ActionPosition ℝ} {path result : List (ActionPosition ℝ)} {arc skipped total : ℝ}

/-! ### The steps of a path -/

/-- A step, how far along the path it is, and how much of the path before it was left out. -/
structure Mark where
  arc : ℝ
  skipped : ℝ
  point : ActionPosition ℝ

noncomputable def span (a b : ActionPosition ℝ) : ℝ := dist (vec a) (vec b)

noncomputable def stepCount (a b : ActionPosition ℝ) : ℕ := ⌈span a b / 14⌉₊

noncomputable def stepMark (a b : ActionPosition ℝ) (arc skipped : ℝ) (n : ℕ) : Mark :=
  ⟨arc + n / stepCount a b * span a b, skipped, between exactFloats a b (n / stepCount a b)⟩

/-- The steps of the segments, from `a` on. -/
noncomputable def coverage : ActionPosition ℝ → List (ActionPosition ℝ) → ℝ → ℝ → List Mark
  | _, [], _, _ => []
  | a, b :: path, arc, skipped =>
    if span a b ≤ 1 / 100 then coverage b path (arc + span a b) (skipped + span a b)
    else (List.range' 1 (stepCount a b)).map (stepMark a b arc skipped) ++ coverage b path (arc + span a b) skipped

noncomputable def pathLength : ActionPosition ℝ → List (ActionPosition ℝ) → ℝ
  | _, [] => 0
  | a, b :: path => span a b + pathLength b path

/-- What is left out of a path. -/
noncomputable def skippedLength : ActionPosition ℝ → List (ActionPosition ℝ) → ℝ
  | _, [] => 0
  | a, b :: path => (if span a b ≤ 1 / 100 then span a b else 0) + skippedLength b path

/-- The corners that are away from the corner before them. -/
noncomputable def longCorners : ActionPosition ℝ → List (ActionPosition ℝ) → List (ActionPosition ℝ)
  | _, [] => []
  | a, b :: path => if span a b ≤ 1 / 100 then longCorners b path else b :: longCorners b path

/-- A place on a path, by its arc length. -/
def OnPath : ActionPosition ℝ → List (ActionPosition ℝ) → ℝ → Space → Prop
  | _, [], _, _ => False
  | a, b :: path, arc, p =>
    (∃ t : ℝ, 0 ≤ t ∧ t ≤ 1 ∧ arc = t * span a b ∧ p = AffineMap.lineMap (vec a) (vec b) t) ∨
      OnPath b path (arc - span a b) p

/-! ### What the loop computes -/

theorem distance_exact (a b : ActionPosition ℝ) : distance exactFloats a b = span a b := (dist_vec a b).symm

theorem subdivide_eq (a b : ActionPosition ℝ) (steps left n : ℕ) (hresult : result.length ≤ 128) :
    subdivide exactFloats a b steps left n result =
      if result.length + left ≤ 128 then
        some (result ++ (List.range' n left).map fun n : ℕ => between exactFloats a b (n / steps))
      else none := by
  induction left generalizing n result with
  | zero => simp [subdivide, hresult]
  | succ left ih =>
    rw [subdivide]
    simp only [List.length_append, List.length_singleton, exact_div, exact_lit, Rat.cast_natCast]
    split_ifs with hlong hroom hroom
    · omega
    · rfl
    · rw [ih (n + 1) (by simp; omega), if_pos (by simp; omega), List.range'_succ]
      simp
    · rw [ih (n + 1) (by simp; omega), if_neg (by simp; omega)]

theorem pathLength_nonneg (a : ActionPosition ℝ) (path : List (ActionPosition ℝ)) : 0 ≤ pathLength a path := by
  induction path generalizing a with
  | nil => exact le_rfl
  | cons b path ih => exact add_nonneg dist_nonneg (ih b)

theorem skippedLength_nonneg (a : ActionPosition ℝ) (path : List (ActionPosition ℝ)) : 0 ≤ skippedLength a path := by
  induction path generalizing a with
  | nil => exact le_rfl
  | cons b path ih =>
    rw [skippedLength]
    split_ifs
    · exact add_nonneg dist_nonneg (ih b)
    · exact add_nonneg le_rfl (ih b)

/-- What is checked of the rest of a path, with the length and the steps so far. -/
def Passes (a : ActionPosition ℝ) (path : List (ActionPosition ℝ)) (total : ℝ) (steps : ℕ) (marks : List Mark) : Prop :=
  (∀ b ∈ path, b.mapId = a.mapId) ∧ (path = [] ∨ total + pathLength a path ≤ 480) ∧ steps + marks.length ≤ 128

theorem passes_cons {steps : ℕ} {marks : List Mark} : Passes a (b :: path) total steps marks ↔
    b.mapId = a.mapId ∧ total + span a b ≤ 480 ∧ Passes b path (total + span a b) steps marks := by
  have hnonneg := pathLength_nonneg b path
  unfold Passes
  rw [List.forall_mem_cons, pathLength]
  constructor
  · rintro ⟨⟨hb, hmaps⟩, htotal, hsteps⟩
    have hle := htotal.resolve_left (List.cons_ne_nil b path)
    exact ⟨hb, by linarith, fun c hc => (hmaps c hc).trans hb.symm, .inr (by linarith), hsteps⟩
  · rintro ⟨hb, hle, hmaps, htotal, hsteps⟩
    refine ⟨⟨hb, fun c hc => (hmaps c hc).trans hb⟩, .inr ?_, hsteps⟩
    rcases htotal with rfl | htotal
    · rw [pathLength]
      linarith
    · linarith

theorem corridorLoop_spec (a : ActionPosition ℝ) (path result : List (ActionPosition ℝ)) (total arc skipped : ℝ)
    (hresult : result.length ≤ 128) :
    (Passes a path total result.length (coverage a path arc skipped) ∧ corridorLoop exactFloats a path total result =
        some (result ++ (coverage a path arc skipped).map Mark.point)) ∨
      (¬Passes a path total result.length (coverage a path arc skipped) ∧
        corridorLoop exactFloats a path total result = none) := by
  induction path generalizing a total result arc skipped with
  | nil => exact .inl ⟨⟨by simp, .inl rfl, by simpa [coverage] using hresult⟩, by simp [corridorLoop, coverage]⟩
  | cons b path ih =>
    rw [passes_cons, corridorLoop]
    simp only [finite, exact_isFinite, exact_lt, exact_le, exact_add, exact_lit, exact_ceil, exact_div, distance_exact,
      Bool.and_self, Bool.not_true, Bool.false_or, decide_eq_true_eq, Rat.cast_ofNat]
    by_cases hmap : b.mapId = a.mapId
    · rw [if_neg (not_not.mpr hmap.symm)]
      by_cases htotal : total + span a b ≤ 480
      · rw [if_neg (not_lt.mpr htotal)]
        simp only [hmap, htotal, true_and]
        by_cases hshort : span a b ≤ 1 / 100
        · have hskip : coverage a (b :: path) arc skipped = coverage b path (arc + span a b) (skipped + span a b) :=
            if_pos hshort
          rw [if_pos (by simpa using hshort), hskip]
          exact ih b _ _ _ _ hresult
        · have hwalk : coverage a (b :: path) arc skipped = (List.range' 1 (stepCount a b)).map (stepMark a b arc skipped) ++
              coverage b path (arc + span a b) skipped := if_neg hshort
          have hcount : ⌈span a b / 14⌉₊ = stepCount a b := rfl
          rw [if_neg (by simpa using hshort), hwalk, hcount, subdivide_eq _ _ _ _ _ hresult]
          by_cases hroom : result.length + stepCount a b ≤ 128
          · rw [if_pos hroom, Option.bind_some]
            have hlength : (result ++ (List.range' 1 (stepCount a b)).map fun n : ℕ =>
                between exactFloats a b (n / stepCount a b)).length = result.length + stepCount a b := by simp
            have hrest := ih b _ (total + span a b) (arc + span a b) skipped (hlength.trans_le hroom)
            simpa [Passes, hlength, List.map_append, stepMark, Function.comp_def, add_assoc] using hrest
          · rw [if_neg hroom, Option.bind_none]
            refine .inr ⟨fun h => hroom ?_, rfl⟩
            have hsteps := h.2.2
            rw [List.length_append, List.length_map, List.length_range'] at hsteps
            omega
      · exact .inr ⟨fun h => htotal h.2.1, if_pos (not_le.mp htotal)⟩
    · exact .inr ⟨fun h => hmap h.1, if_pos (Ne.symm hmap)⟩

/-! ### One segment -/

theorem vec_between (a b : ActionPosition ℝ) (t : ℝ) :
    vec (between exactFloats a b t) = AffineMap.lineMap (vec a) (vec b) t := by
  ext i
  fin_cases i <;> simp [vec, between, AffineMap.lineMap_apply] <;> ring

theorem between_one (hmap : b.mapId = a.mapId) : between exactFloats a b 1 = b := by
  cases a
  cases b
  simp_all [between]

theorem dist_start (n : ℕ) : dist (vec a) (vec (stepMark a b arc skipped n).point) =
    n * (span a b / stepCount a b) := by
  simp only [stepMark, vec_between, dist_left_lineMap, Real.norm_eq_abs]
  rw [abs_of_nonneg (by positivity), span]
  ring

section Segment
variable (h : ¬span a b ≤ 1 / 100)
include h

theorem span_pos : 0 < span a b := by
  linarith [not_le.mp h]

theorem stepCount_pos : 0 < stepCount a b := Nat.ceil_pos.mpr (div_pos (span_pos h) (by norm_num))

theorem span_div_stepCount_le : span a b / stepCount a b ≤ 14 := by
  have hcount : span a b / 14 ≤ stepCount a b := Nat.le_ceil _
  have hpos : (0 : ℝ) < stepCount a b := Nat.cast_pos.mpr (stepCount_pos h)
  rw [div_le_iff₀ hpos]
  linarith

theorem dist_steps (m n : ℕ) (arc arc' skipped skipped' : ℝ) :
    dist (vec (stepMark a b arc skipped m).point) (vec (stepMark a b arc' skipped' n).point) =
      |(m : ℝ) - n| * (span a b / stepCount a b) := by
  have hpos : (0 : ℝ) < stepCount a b := Nat.cast_pos.mpr (stepCount_pos h)
  simp only [stepMark, vec_between, dist_lineMap_lineMap, Real.dist_eq]
  rw [← sub_div, abs_div, abs_of_pos hpos, span]
  ring

/-- The last step of a segment is its end. -/
theorem stepMark_last (hmap : b.mapId = a.mapId) :
    stepMark a b arc skipped (stepCount a b) = ⟨arc + span a b, skipped, b⟩ := by
  have hne : (stepCount a b : ℝ) ≠ 0 := Nat.cast_ne_zero.mpr (stepCount_pos h).ne'
  rw [stepMark, div_self hne, one_mul, between_one hmap]

end Segment

/-! ### The whole path -/

/-- The gap between two steps: at most a stride, and what was left out between them. -/
def Near (m m' : Mark) : Prop := dist (vec m.point) (vec m'.point) ≤ 14 + (m'.skipped - m.skipped)

theorem coverage_skip (h : span a b ≤ 1 / 100) :
    coverage a (b :: path) arc skipped = coverage b path (arc + span a b) (skipped + span a b) := if_pos h

theorem coverage_walk (h : ¬span a b ≤ 1 / 100) : coverage a (b :: path) arc skipped =
    (List.range' 1 (stepCount a b)).map (stepMark a b arc skipped) ++ coverage b path (arc + span a b) skipped :=
  if_neg h

/-- The steps from a corner on are near one another, whatever step was made before the corner. -/
theorem coverage_chain (hmaps : ∀ b ∈ path, b.mapId = a.mapId) (m : Mark)
    (hm : dist (vec m.point) (vec a) ≤ skipped - m.skipped) : (m :: coverage a path arc skipped).IsChain Near := by
  induction path generalizing a arc skipped m with
  | nil => exact .singleton m
  | cons b path ih =>
    obtain ⟨hmap, hrest⟩ := List.forall_mem_cons.mp hmaps
    have hrest' : ∀ c ∈ path, c.mapId = b.mapId := fun c hc => (hrest c hc).trans hmap.symm
    by_cases hshort : span a b ≤ 1 / 100
    · rw [coverage_skip hshort]
      refine ih hrest' m ?_
      have htriangle := dist_triangle (vec m.point) (vec a) (vec b)
      rw [span]
      linarith
    · obtain ⟨k, hk⟩ := Nat.exists_eq_succ_of_ne_zero (stepCount_pos hshort).ne'
      have hstride := span_div_stepCount_le hshort
      have hlast : stepMark a b arc skipped (stepCount a b) = ⟨arc + span a b, skipped, b⟩ := stepMark_last hshort hmap
      rw [hk] at hlast
      have htail : (stepMark a b arc skipped (k + 1) :: coverage b path (arc + span a b) skipped).IsChain Near :=
        ih hrest' _ (by rw [hlast]; simp)
      have hsteps : (m :: (List.range' 1 (k + 1)).map (stepMark a b arc skipped)).IsChain Near := by
        rw [List.isChain_cons, List.isChain_map]
        constructor
        · intro m' hm'
          rw [List.range'_succ, List.map_cons, List.head?_cons, Option.mem_some_iff] at hm'
          subst hm'
          have hfirst : dist (vec a) (vec (stepMark a b arc skipped 1).point) = (1 : ℕ) * (span a b / stepCount a b) :=
            dist_start 1
          have htriangle := dist_triangle (vec m.point) (vec a) (vec (stepMark a b arc skipped 1).point)
          have hskip : (stepMark a b arc skipped 1).skipped = skipped := rfl
          rw [Near, hskip]
          push_cast at hfirst
          linarith
        · refine (List.isChain_range' 1 (k + 1) 1).imp fun n n' hn => ?_
          rw [Near, dist_steps hshort, hn]
          have hskip : (stepMark a b arc skipped (n + 1)).skipped - (stepMark a b arc skipped n).skipped = 0 :=
            sub_self _
          rw [hskip]
          push_cast
          simpa using hstride
      rw [coverage_walk hshort, hk]
      rw [List.range'_1_concat, List.map_append, List.map_singleton, add_comm 1 k] at hsteps ⊢
      rw [← List.cons_append] at hsteps
      rw [← List.cons_append, ← List.cons_append]
      exact hsteps.append_overlap htail (by simp)

/-- After the last step nothing but what is left out separates it from the end of the path. -/
theorem coverage_last (hmaps : ∀ b ∈ path, b.mapId = a.mapId) (m : Mark)
    (hm : dist (vec m.point) (vec a) ≤ skipped - m.skipped) :
    dist (vec ((coverage a path arc skipped).getLastD m).point) (vec (path.getLastD a)) ≤
      skipped + skippedLength a path - ((coverage a path arc skipped).getLastD m).skipped := by
  induction path generalizing a arc skipped m with
  | nil => simpa [coverage, skippedLength] using hm
  | cons b path ih =>
    obtain ⟨hmap, hrest⟩ := List.forall_mem_cons.mp hmaps
    have hrest' : ∀ c ∈ path, c.mapId = b.mapId := fun c hc => (hrest c hc).trans hmap.symm
    rw [List.getLastD_cons, skippedLength]
    by_cases hshort : span a b ≤ 1 / 100
    · rw [coverage_skip hshort, if_pos hshort, ← add_assoc]
      refine ih hrest' m ?_
      have htriangle := dist_triangle (vec m.point) (vec a) (vec b)
      rw [span]
      linarith
    · obtain ⟨k, hk⟩ := Nat.exists_eq_succ_of_ne_zero (stepCount_pos hshort).ne'
      have hlast : stepMark a b arc skipped (stepCount a b) = ⟨arc + span a b, skipped, b⟩ := stepMark_last hshort hmap
      have hsteps : (List.range' 1 (stepCount a b)).map (stepMark a b arc skipped) =
          (List.range' 1 k).map (stepMark a b arc skipped) ++ [⟨arc + span a b, skipped, b⟩] := by
        rw [← hlast, hk, List.range'_1_concat, List.map_append, List.map_singleton, add_comm 1 k]
      have hend : (coverage a (b :: path) arc skipped).getLastD m =
          (coverage b path (arc + span a b) skipped).getLastD ⟨arc + span a b, skipped, b⟩ := by
        rw [coverage_walk hshort, hsteps, List.append_assoc, List.singleton_append, List.getLastD_eq_getLast?,
          List.getLast?_append_of_ne_nil _ (List.cons_ne_nil _ _), List.getLast?_cons, Option.getD_some,
          List.getLastD_eq_getLast?]
      rw [hend, if_neg hshort, zero_add]
      exact ih hrest' _ (by simp)

/-- Every step is on the path where its arc length says. -/
theorem coverage_places : ∀ m ∈ coverage a path arc skipped,
    arc < m.arc ∧ OnPath a path (m.arc - arc) (vec m.point) ∧
      skipped ≤ m.skipped ∧ m.skipped ≤ skipped + skippedLength a path := by
  induction path generalizing a arc skipped with
  | nil => simp [coverage]
  | cons b path ih =>
    intro m hm
    rw [OnPath, skippedLength]
    by_cases hshort : span a b ≤ 1 / 100
    · rw [coverage_skip hshort] at hm
      obtain ⟨harc, hplace, hle, hge⟩ := ih m hm
      have hnonneg : 0 ≤ span a b := dist_nonneg
      rw [if_pos hshort, sub_sub]
      exact ⟨by linarith, .inr hplace, by linarith, by linarith⟩
    · rw [coverage_walk hshort] at hm
      rw [if_neg hshort, zero_add, sub_sub]
      have hpos := span_pos hshort
      rcases List.mem_append.mp hm with hm | hm
      · obtain ⟨n, hn, rfl⟩ := List.mem_map.mp hm
        rw [List.mem_range'_1] at hn
        have hcount : (0 : ℝ) < stepCount a b := Nat.cast_pos.mpr (stepCount_pos hshort)
        have hone : (1 : ℝ) ≤ n := Nat.one_le_cast.mpr hn.1
        have hle : (n : ℝ) ≤ stepCount a b := Nat.cast_le.mpr (by omega)
        have hratio : (0 : ℝ) < n / stepCount a b := by positivity
        refine ⟨lt_add_of_pos_right _ (mul_pos hratio hpos), .inl ⟨n / stepCount a b, hratio.le,
          (div_le_one hcount).mpr hle, add_sub_cancel_left _ _, vec_between _ _ _⟩, le_rfl, ?_⟩
        exact le_add_of_nonneg_right (skippedLength_nonneg b path)
      · obtain ⟨harc, hplace, hle, hge⟩ := ih m hm
        exact ⟨by linarith, .inr hplace, hle, hge⟩

theorem coverage_sorted (a : ActionPosition ℝ) (path : List (ActionPosition ℝ)) (arc skipped : ℝ) :
    (coverage a path arc skipped).Pairwise fun m m' => m.arc < m'.arc := by
  induction path generalizing a arc skipped with
  | nil => exact .nil
  | cons b path ih =>
    by_cases hshort : span a b ≤ 1 / 100
    · rw [coverage_skip hshort]
      exact ih b _ _
    · have hpos := span_pos hshort
      have hcount : (0 : ℝ) < stepCount a b := Nat.cast_pos.mpr (stepCount_pos hshort)
      rw [coverage_walk hshort, List.pairwise_append]
      refine ⟨List.pairwise_map.mpr ((List.pairwise_lt_range' 1 Nat.one_pos).imp fun {n n'} hn => ?_), ih b _ _, fun m hm m' hm' => ?_⟩
      · have hlt : (n : ℝ) < n' := Nat.cast_lt.mpr hn
        exact add_lt_add_right (mul_lt_mul_of_pos_right (div_lt_div_of_pos_right hlt hcount) hpos) _
      · obtain ⟨n, hn, rfl⟩ := List.mem_map.mp hm
        rw [List.mem_range'_1] at hn
        have hle : (n : ℝ) ≤ stepCount a b := Nat.cast_le.mpr (by omega)
        have hstep : (n : ℝ) / stepCount a b * span a b ≤ 1 * span a b :=
          mul_le_mul_of_nonneg_right ((div_le_one hcount).mpr hle) hpos.le
        have hnext := (coverage_places m' hm').1
        simp only [stepMark]
        linarith

/-- Every corner away from the one before it is a step. -/
theorem coverage_corners (hmaps : ∀ b ∈ path, b.mapId = a.mapId) :
    (longCorners a path).Sublist ((coverage a path arc skipped).map Mark.point) := by
  induction path generalizing a arc skipped with
  | nil => exact .slnil
  | cons b path ih =>
    obtain ⟨hmap, hrest⟩ := List.forall_mem_cons.mp hmaps
    have hrest' : ∀ c ∈ path, c.mapId = b.mapId := fun c hc => (hrest c hc).trans hmap.symm
    rw [longCorners]
    split_ifs with hshort
    · rw [coverage_skip hshort]
      exact ih hrest'
    · have hlast : stepMark a b arc skipped (stepCount a b) = ⟨arc + span a b, skipped, b⟩ := stepMark_last hshort hmap
      have hcount := stepCount_pos hshort
      have hmem : b ∈ ((List.range' 1 (stepCount a b)).map (stepMark a b arc skipped)).map Mark.point :=
        List.mem_map.mpr ⟨_, List.mem_map_of_mem (List.mem_range'_1.mpr ⟨hcount, by omega⟩), by rw [hlast]⟩
      rw [coverage_walk hshort, List.map_append]
      exact (List.singleton_sublist.mpr hmem).append (ih hrest')

/-- No step at all means that no corner is away from the one before it. -/
theorem coverage_eq_nil (h : coverage a path arc skipped = []) : (a :: path).IsChain fun a b => span a b ≤ 1 / 100 := by
  induction path generalizing a arc skipped with
  | nil => exact .singleton a
  | cons b path ih =>
    by_cases hshort : span a b ≤ 1 / 100
    · rw [coverage_skip hshort] at h
      exact .cons_cons hshort (ih h)
    · have hcount := stepCount_pos hshort
      rw [coverage_walk hshort, List.append_eq_nil_iff, List.map_eq_nil_iff, List.range'_eq_nil_iff] at h
      omega

/-! ### The corridor -/

theorem corridor_eq (a : ActionPosition ℝ) (path : List (ActionPosition ℝ)) :
    (Passes a path 0 0 (coverage a path 0 0) ∧ corridor exactFloats (a :: path) = (coverage a path 0 0).map Mark.point) ∨
      (¬Passes a path 0 0 (coverage a path 0 0) ∧ corridor exactFloats (a :: path) = []) := by
  cases path with
  | nil => exact .inl ⟨⟨by simp, .inl rfl, by simp [coverage]⟩, rfl⟩
  | cons b path =>
    have hguard : (!finite exactFloats a) = false := by simp [finite]
    have hzero : exactFloats.lit 0 = 0 := Rat.cast_zero
    have hloop := corridorLoop_spec a (b :: path) [] 0 0 0 (by simp)
    rw [corridor, hguard, if_neg Bool.false_ne_true, hzero]
    rcases hloop with ⟨hpasses, hloop⟩ | ⟨hpasses, hloop⟩
    · exact .inl ⟨hpasses, by rw [hloop]; rfl⟩
    · exact .inr ⟨hpasses, by rw [hloop]; rfl⟩

/-- What a corridor covers. Its steps come in order of their arc length on the path, every corner more than a
hundredth of a yard from the corner before it is one of them, and from the start to the first step, from step to
step and from the last step to the end of the path it is at most fourteen yards (at the end, none) and
the length that was left out there. -/
theorem corridor_covers (a : ActionPosition ℝ) (path : List (ActionPosition ℝ)) :
    (corridor exactFloats (a :: path) ≠ [] →
      ∃ marks, marks = coverage a path 0 0 ∧ corridor exactFloats (a :: path) = marks.map Mark.point ∧
        marks.length ≤ 128 ∧ (⟨0, 0, a⟩ :: marks).IsChain Near ∧
        dist (vec (marks.getLastD ⟨0, 0, a⟩).point) (vec (path.getLastD a)) ≤
          skippedLength a path - (marks.getLastD ⟨0, 0, a⟩).skipped ∧
        (longCorners a path).Sublist (corridor exactFloats (a :: path)) ∧
        (marks.Pairwise fun m m' => m.arc < m'.arc) ∧
        ∀ m ∈ marks, OnPath a path m.arc (vec m.point) ∧ 0 ≤ m.skipped ∧ m.skipped ≤ skippedLength a path) ∧
    (corridor exactFloats (a :: path) = [] →
      ((a :: path).IsChain fun a b => span a b ≤ 1 / 100) ∨ (∃ b ∈ path, b.mapId ≠ a.mapId) ∨
        480 < pathLength a path ∨ 128 < (coverage a path 0 0).length) := by
  rcases corridor_eq a path with ⟨⟨hmaps, -, hlength⟩, heq⟩ | ⟨hpasses, heq⟩
  · rw [heq]
    constructor
    · intro _
      have hchain : (⟨0, 0, a⟩ :: coverage a path 0 0).IsChain Near := coverage_chain hmaps _ (by simp)
      have hlast : dist (vec ((coverage a path 0 0).getLastD ⟨0, 0, a⟩).point) (vec (path.getLastD a)) ≤
          0 + skippedLength a path - ((coverage a path 0 0).getLastD ⟨0, 0, a⟩).skipped :=
        coverage_last hmaps _ (by simp)
      rw [zero_add] at hlast
      refine ⟨_, rfl, rfl, by omega, hchain, hlast, coverage_corners hmaps, coverage_sorted _ _ _ _, fun m hm => ?_⟩
      obtain ⟨-, hplace, hle, hge⟩ := coverage_places m hm
      rw [sub_zero] at hplace
      rw [zero_add] at hge
      exact ⟨hplace, hle, hge⟩
    · intro hnil
      exact .inl (coverage_eq_nil (List.map_eq_nil_iff.mp hnil))
  · refine ⟨fun hne => absurd heq hne, fun _ => .inr ?_⟩
    by_contra hnone
    push Not at hnone
    obtain ⟨hmaps, htotal, hlength⟩ := hnone
    exact hpasses ⟨hmaps, .inr (by linarith), by omega⟩

/-! ### A short last segment -/

theorem span_axis (m : UInt32) (x x' : ℝ) : span ⟨m, x, 0, 0⟩ ⟨m, x', 0, 0⟩ = |x - x'| := by
  rw [span, dist_vec, sub_self]
  simp [Real.sqrt_sq_eq_abs]

/-- A path of one yard with half a hundredth of a yard after it. -/
noncomputable def shortEnd : List (ActionPosition ℝ) := [⟨0, 1, 0, 0⟩, ⟨0, 201 / 200, 0, 0⟩]

theorem shortEnd_coverage : coverage ⟨0, 0, 0, 0⟩ shortEnd 0 0 = [⟨1, 0, ⟨0, 1, 0, 0⟩⟩] := by
  have hfirst : span ⟨0, 0, 0, 0⟩ ⟨0, 1, 0, 0⟩ = 1 := by
    rw [span_axis]
    norm_num
  have hlast : span ⟨0, 1, 0, 0⟩ ⟨0, 201 / 200, 0, 0⟩ = 1 / 200 := by
    rw [span_axis, abs_of_neg (by norm_num)]
    norm_num
  have hcount : stepCount ⟨0, 0, 0, 0⟩ ⟨0, 1, 0, 0⟩ = 1 := by
    rw [stepCount, hfirst, Nat.ceil_eq_iff (by norm_num)]
    norm_num
  have hlong : ¬span ⟨0, 0, 0, 0⟩ ⟨0, 1, 0, 0⟩ ≤ 1 / 100 := by
    rw [hfirst]
    norm_num
  have hend : stepMark ⟨0, 0, 0, 0⟩ ⟨0, 1, 0, 0⟩ 0 0 (stepCount ⟨0, 0, 0, 0⟩ ⟨0, 1, 0, 0⟩) =
      ⟨0 + span ⟨0, 0, 0, 0⟩ ⟨0, 1, 0, 0⟩, 0, ⟨0, 1, 0, 0⟩⟩ := stepMark_last hlong rfl
  rw [shortEnd, coverage_walk hlong, coverage_skip (by rw [hlast]; norm_num), hcount, coverage]
  rw [hcount, hfirst, zero_add] at hend
  simpa using hend

theorem corridor_shortEnd : corridor exactFloats (⟨0, 0, 0, 0⟩ :: shortEnd) = [⟨0, 1, 0, 0⟩] := by
  rcases corridor_eq ⟨0, 0, 0, 0⟩ shortEnd with ⟨-, heq⟩ | ⟨hpasses, -⟩
  · rw [heq, shortEnd_coverage]
    rfl
  · refine absurd ⟨by simp [shortEnd], .inr ?_, ?_⟩ hpasses
    · rw [shortEnd, pathLength, pathLength, pathLength, span_axis, span_axis, abs_of_neg (by norm_num),
        abs_of_neg (by norm_num)]
      norm_num
    · rw [shortEnd_coverage]
      simp

theorem corridor_covers_shortEnd :
    (longCorners ⟨0, 0, 0, 0⟩ shortEnd).Sublist (corridor exactFloats (⟨0, 0, 0, 0⟩ :: shortEnd)) := by
  obtain ⟨-, -, -, -, -, -, hcorners, -⟩ :=
    (corridor_covers ⟨0, 0, 0, 0⟩ shortEnd).1 (by rw [corridor_shortEnd]; exact List.cons_ne_nil _ _)
  exact hcorners

/-- The corridor of this path is not empty and does not end at the end of the path. -/
theorem shortEnd_left_out : corridor exactFloats (⟨0, 0, 0, 0⟩ :: shortEnd) ≠ [] ∧
    (corridor exactFloats (⟨0, 0, 0, 0⟩ :: shortEnd)).getLast? ≠ shortEnd.getLast? := by
  rw [corridor_shortEnd]
  refine ⟨by simp, fun h => ?_⟩
  have hx := congrArg ActionPosition.x (Option.some.inj h)
  norm_num at hx

end AIWorld.Agent.LivingReturnPolicy
