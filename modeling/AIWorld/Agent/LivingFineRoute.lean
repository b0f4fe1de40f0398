import AIWorld.Action.ActionRequest
import AIWorld.Lib.Binary32Order
import AIWorld.Lib.Thinning

/-! Short stretches of a planned surface route that are walked as one line. A stretch is a prefix of the route
without the corners too close to the one before; it is short, has few corners, and makes real progress. -/

namespace AIWorld.Agent.LivingFineRoute

open Action (samePoint)
open Lib Lib.Binary32 Lib.Thinning

/-- What the route uses of the three dimensional `std::hypot`. -/
structure Hypot (hypot : Float32 → Float32 → Float32 → Float32) : Prop where
  zero : hypot 0 0 0 = 0
  alike : ∀ {x x' y y' z z' : Float32}, Alike x x' → Alike y y' → Alike z z' →
    Alike (hypot x y z) (hypot x' y' z')

abbrev Point := ActionPosition Float32

def maxControls : ℕ := 17

def maxDensePoints : ℕ := 64

def selectionLength : Float32 := 5

def maxLength : Float32 := 6

def sourceTolerance : Float32 := 0.05

def finite (p : Point) : Bool := p.x.isFinite && p.y.isFinite && p.z.isFinite

section Routes
variable (hypot : Float32 → Float32 → Float32 → Float32)

def distance (a b : Point) : Float32 := hypot (a.x - b.x) (a.y - b.y) (a.z - b.z)

/-- Too close to be a corner of its own. -/
def near (a b : Point) : Bool := distance hypot a b ≤ 0.001

/-- Ending a stretch here leaves no rest too short to be walked. -/
def endsWell (source last point : Point) (rest : List Point) : Bool :=
  1 < distance hypot source point && (rest = [] || 1 < distance hypot point last)

/-- The loop of `Batch`: the stretch so far, its length, and how much of it is useful. -/
def select (source last : Point) : List Point → Float32 → ℕ → List Point → Option (List Point × ℕ)
  | batch, _, useful, [] => some (batch, useful)
  | batch, length, useful, point :: rest =>
    if !finite point || point.mapId ≠ source.mapId then none
    else if near hypot (batch.getLastD source) point then select source last batch length useful rest
    else
      let total := length + distance hypot (batch.getLastD source) point
      if batch.length = maxControls ∨ selectionLength < total then some (batch, useful)
      else
        let longer := batch ++ [point]
        let useful := if endsWell hypot source last point rest then longer.length else useful
        select source last longer total useful rest

def batch (source : Point) (planned : List Point) : List Point :=
  if !finite source then []
  else match select hypot source (planned.getLastD source) [source] 0 0 planned with
    | none => []
    | some (batch, useful) => batch.take useful

/-- The loop of `Bounded`. -/
def boundedFrom (front : Point) : Point → Float32 → List Point → Bool
  | _, _, [] => true
  | previous, length, point :: rest =>
    let total := length + distance hypot previous point
    finite point && point.mapId = front.mapId && !near hypot previous point && !(maxLength < total : Bool) &&
      boundedFrom front point total rest

def bounded (controls : List Point) (controlLimit : ℕ) : Bool :=
  match controls with
  | [] => false
  | front :: rest =>
    (controlLimit = maxControls || controlLimit = maxDensePoints) && rest ≠ [] &&
      controls.length ≤ controlLimit && finite front &&
      !(distance hypot front (controls.getLastD front) ≤ 1 : Bool) && boundedFrom hypot front front 0 rest

def standsAt (corner point : Point) : Bool :=
  point.x == corner.x && point.y == corner.y && (point.z - corner.z).abs ≤ 1

/-- The loop of `RetainsCorners`. -/
def retains : List Point → List Point → Bool
  | [], dense => dense = []
  | corner :: corners, dense =>
    match dense.dropWhile fun point => !standsAt corner point with
    | [] => false
    | _ :: rest => retains corners rest

def retainsCorners (original dense : List Point) : Bool :=
  bounded hypot original maxControls && bounded hypot dense maxDensePoints &&
    match original, dense with
    | o :: original, d :: dense =>
      o.mapId = d.mapId && !(sourceTolerance < distance hypot o d : Bool) && retains original dense
    | _, _ => false

end Routes

/-! ### Same points -/

theorem samePoint_iff {a b : Point} : samePoint a b = true ↔
    a.mapId = b.mapId ∧ (a.x == b.x) = true ∧ (a.y == b.y) = true ∧ (a.z == b.z) = true := by
  simp [samePoint, and_assoc]

theorem samePoint_self {a : Point} (h : finite a = true) : samePoint a a = true := by
  simp only [finite, Bool.and_eq_true] at h
  exact samePoint_iff.mpr ⟨rfl, beq_self_iff.mpr (isNaN_of_isFinite h.1.1),
    beq_self_iff.mpr (isNaN_of_isFinite h.1.2), beq_self_iff.mpr (isNaN_of_isFinite h.2)⟩

theorem alike_of_samePoint {a b : Point} (h : samePoint a b = true) :
    Alike a.x b.x ∧ Alike a.y b.y ∧ Alike a.z b.z := by
  obtain ⟨-, hx, hy, hz⟩ := samePoint_iff.mp h
  exact ⟨(beq_iff.mp hx).2, (beq_iff.mp hy).2, (beq_iff.mp hz).2⟩

variable {hypot : Float32 → Float32 → Float32 → Float32} {source last a b p x : Point}
  {planned stretch rest : List Point} {length : Float32} {useful : ℕ}

/-- A distance does not tell the same points apart. -/
theorem near_congr (hh : Hypot hypot) (h : samePoint x p = true) (a : Point) : near hypot a x = near hypot a p := by
  obtain ⟨hx, hy, hz⟩ := alike_of_samePoint h
  unfold near distance
  exact decide_eq_decide.mpr
    ((hh.alike ((Alike.refl _).sub hx) ((Alike.refl _).sub hy) ((Alike.refl _).sub hz)).le_iff (.refl _))

/-- The same point is near. -/
theorem near_of_samePoint (hh : Hypot hypot) (hb : finite b = true) (h : samePoint x b = true) :
    near hypot b x = true := by
  rw [near_congr hh h]
  simp only [finite, Bool.and_eq_true] at hb
  have hzero : Alike (distance hypot b b) 0 := by
    have hd := hh.alike (alike_sub_self hb.1.1) (alike_sub_self hb.1.2) (alike_sub_self hb.2)
    rwa [hh.zero] at hd
  unfold near
  rw [decide_eq_true_iff, hzero.le_iff (.refl _)]
  decide +kernel

/-! ### What a stretch is -/

theorem boundedFrom_prefix {front previous : Point} {some more : List Point}
    (h : boundedFrom hypot front previous length (some ++ more) = true) :
    boundedFrom hypot front previous length some = true := by
  induction some generalizing previous length with
  | nil => rfl
  | cons point rest ih =>
    rw [List.cons_append] at h
    simp only [boundedFrom, Bool.and_eq_true] at h ⊢
    exact ⟨h.1, ih h.2⟩

theorem finite_of_boundedFrom {front previous : Point} (h : boundedFrom hypot front previous length stretch = true)
    (hp : p ∈ stretch) : finite p = true := by
  induction stretch generalizing previous length with
  | nil => contradiction
  | cons point rest ih =>
    simp only [boundedFrom, Bool.and_eq_true] at h
    rcases List.mem_cons.mp hp with rfl | hp
    · exact h.1.1.1.1
    · exact ih h.2 hp

/-- What the loop adds to a stretch: a part of the thinned route, bounded, with its useful end. -/
structure Selected (hypot : Float32 → Float32 → Float32 → Float32) (source : Point) (stretch : List Point)
    (length : Float32) (useful : ℕ) (rest : List Point) (result : List Point × ℕ) (added : List Point) : Prop where
  whole : result.1 = stretch ++ added
  kept : added <+: thin (near hypot) (stretch.getLastD source) rest
  bounded : boundedFrom hypot source (stretch.getLastD source) length added = true
  few : result.1.length ≤ maxControls
  useful : result.2 = useful ∨ ∃ before point, before ++ [point] <+: result.1 ∧ result.2 = before.length + 1 ∧
    stretch.length ≤ before.length ∧ 1 < distance hypot source point

theorem maxLength_of_selectionLength {total : Float32} (h : ¬ selectionLength < total) : ¬ maxLength < total :=
  fun hmax => h (lt_trans_of_lt (by decide +kernel) hmax)

theorem select_spec {result : List Point × ℕ} (hfew : stretch.length ≤ maxControls)
    (h : select hypot source last stretch length useful rest = some result) :
    ∃ added, Selected hypot source stretch length useful rest result added := by
  induction rest generalizing stretch length useful with
  | nil =>
    obtain rfl := Option.some.inj h
    exact ⟨[], (List.append_nil _).symm, List.nil_prefix, rfl, hfew, .inl rfl⟩
  | cons point rest ih =>
    unfold select at h
    by_cases hbad : (!finite point || point.mapId ≠ source.mapId) = true
    · rw [if_pos hbad] at h
      contradiction
    rw [if_neg hbad] at h
    simp only [Bool.or_eq_true, Bool.not_eq_true', decide_eq_true_eq, not_or, Bool.not_eq_false, not_not] at hbad
    by_cases hnear : near hypot (stretch.getLastD source) point = true
    · rw [if_pos hnear] at h
      obtain ⟨added, hadded⟩ := ih hfew h
      refine ⟨added, { hadded with kept := ?_ }⟩
      rw [thin, if_pos hnear]
      exact hadded.kept
    rw [if_neg hnear] at h
    dsimp only at h
    by_cases hstop : stretch.length = maxControls ∨
        selectionLength < length + distance hypot (stretch.getLastD source) point
    · rw [if_pos hstop] at h
      obtain rfl := Option.some.inj h
      exact ⟨[], (List.append_nil _).symm, List.nil_prefix, rfl, hfew, .inl rfl⟩
    rw [if_neg hstop] at h
    obtain ⟨hroom, hshort⟩ := not_or.mp hstop
    have hlonger : (stretch ++ [point]).length ≤ maxControls := by
      rw [List.length_append, List.length_singleton]
      omega
    obtain ⟨added, hadded⟩ := ih hlonger h
    have hlast : (stretch ++ [point]).getLastD source = point := by simp
    have hkept := hadded.kept
    have hbounded := hadded.bounded
    rw [hlast] at hkept hbounded
    refine ⟨point :: added, ?_, ?_, ?_, hadded.few, ?_⟩
    · rw [hadded.whole, List.append_assoc]
      rfl
    · rw [thin, if_neg hnear]
      exact List.cons_prefix_cons.mpr ⟨rfl, hkept⟩
    · simp only [boundedFrom, Bool.and_eq_true, decide_eq_true_eq, Bool.not_eq_true', decide_eq_false_iff_not]
      exact ⟨⟨⟨⟨hbad.1, hbad.2⟩, Bool.eq_false_iff.mpr hnear⟩, maxLength_of_selectionLength hshort⟩, hbounded⟩
    · rcases hadded.useful with huseful | ⟨before, q, hprefix, huseful, hlonger, hfar⟩
      · by_cases hends : endsWell hypot source last point rest = true
        · rw [if_pos hends] at huseful
          refine .inr ⟨stretch, point, ?_, ?_, Nat.le_refl _, ?_⟩
          · rw [hadded.whole]
            exact List.prefix_append _ _
          · rw [huseful, List.length_append, List.length_singleton]
          · simp only [endsWell, Bool.and_eq_true, decide_eq_true_eq] at hends
            exact hends.1
        · rw [if_neg hends] at huseful
          exact .inl huseful
      · refine .inr ⟨before, q, hprefix, huseful, ?_, hfar⟩
        rw [List.length_append] at hlonger
        omega

/-- A batch starts at its source, keeps the first corners of the thinned route, and is bounded. -/
theorem batch_spec (h : batch hypot source planned ≠ []) : ∃ n, n ≠ 0 ∧
    n ≤ (thin (near hypot) source planned).length ∧
    batch hypot source planned = source :: (thin (near hypot) source planned).take n ∧
    finite source = true ∧ boundedFrom hypot source source 0 ((thin (near hypot) source planned).take n) = true ∧
    bounded hypot (batch hypot source planned) maxControls = true := by
  unfold batch at h ⊢
  by_cases hbad : (!finite source) = true
  · rw [if_pos hbad] at h
    contradiction
  rw [if_neg hbad] at h ⊢
  have hfinite : finite source = true := by simpa using hbad
  cases hselect : select hypot source (planned.getLastD source) [source] 0 0 planned with
  | none =>
    rw [hselect] at h
    contradiction
  | some result =>
    rw [hselect] at h
    dsimp only at h ⊢
    obtain ⟨added, hadded⟩ := select_spec (Nat.le_of_ble_eq_true rfl) hselect
    rcases hadded.useful with huseful | ⟨before, point, hprefix, huseful, hlonger, hfar⟩
    · rw [huseful] at h
      exact absurd rfl h
    have htake : result.1.take result.2 = before ++ [point] := by
      rw [huseful]
      have hlen : before.length + 1 = (before ++ [point]).length := by simp
      rw [hlen]
      exact (List.prefix_iff_eq_take.mp hprefix).symm
    rw [htake]
    have hstarts : before ++ [point] <+: source :: added := by
      have hresult := hadded.whole
      rw [hresult] at hprefix
      exact hprefix
    -- The useful end lies past the source.
    obtain ⟨first, middle, rfl⟩ := List.exists_cons_of_length_pos hlonger
    rw [List.cons_append, List.cons_prefix_cons] at hstarts
    obtain ⟨rfl, hadds⟩ := hstarts
    have hkept : middle ++ [point] <+: thin (near hypot) first planned := hadds.trans hadded.kept
    have hbounded : boundedFrom hypot first first 0 (middle ++ [point]) = true := by
      obtain ⟨more, hmore⟩ := hadds
      have hwhole := hadded.bounded
      rw [← hmore] at hwhole
      exact boundedFrom_prefix hwhole
    have hall : (thin (near hypot) first planned).take (middle ++ [point]).length = middle ++ [point] :=
      (List.prefix_iff_eq_take.mp hkept).symm
    refine ⟨(middle ++ [point]).length, by simp, hkept.length_le, by rw [hall]; rfl, hfinite, by rw [hall]; exact hbounded, ?_⟩
    have hlength : (first :: (middle ++ [point])).length ≤ maxControls :=
      Nat.le_trans hprefix.length_le hadded.few
    have hends : (first :: (middle ++ [point])).getLastD first = point := by
      rw [← List.cons_append]
      exact List.getLastD_concat ..
    unfold bounded
    rw [List.cons_append]
    dsimp only
    rw [hends]
    simp only [Bool.and_eq_true, decide_eq_true_eq, Bool.not_eq_true', decide_eq_false_iff_not]
    exact ⟨⟨⟨⟨⟨by decide, by simp⟩, hlength⟩, hfinite⟩, not_le_of_lt hfar⟩, hbounded⟩

end AIWorld.Agent.LivingFineRoute
