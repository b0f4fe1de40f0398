import AIWorld.Lib.Tents
import AIWorld.RealmLab.TerrainGeometry
import Mathlib.Data.Rat.Floor
import Mathlib.Tactic.FieldSimp
import Mathlib.Tactic.NormNum

/-! The height field of a tile. What a sample gives is the field of the tents over the corners and centres, so that it
does not matter which triangle a point on an edge is counted to, and the lookup of the game server agrees with it. -/

namespace AIWorld.RealmLab

open Lib.Tents

variable {K : Type} [Field K] [LinearOrder K] [FloorRing K] {terrain : Terrain K} {row col : ℕ} {u v z x y : K}

/-- The two corners of a triangle, its third vertex being the centre. -/
def Triangle.side : Triangle → (ℕ × ℕ) × (ℕ × ℕ)
  | .top => ((0, 0), (1, 0))
  | .left => ((0, 0), (0, 1))
  | .right => ((1, 0), (1, 1))
  | .bottom => ((0, 1), (1, 1))

/-- A triangle of a square contains a point, and the heights of its vertices give a height there. -/
def Interpolates (terrain : Terrain K) (row col : ℕ) (triangle : Triangle) (u v z : K) : Prop :=
  ∃ α β γ : K, 0 ≤ α ∧ 0 ≤ β ∧ 0 ≤ γ ∧ α + β + γ = 1 ∧
    u = α * (row + triangle.side.1.1 : ℕ) + β * (row + triangle.side.2.1 : ℕ) + γ * (row + half) ∧
    v = α * (col + triangle.side.1.2 : ℕ) + β * (col + triangle.side.2.2 : ℕ) + γ * (col + half) ∧
    z = α * terrain.v9 (row + triangle.side.1.1) (col + triangle.side.1.2) +
      β * terrain.v9 (row + triangle.side.2.1) (col + triangle.side.2.2) + γ * terrain.v8 row col

/-- The heights of a whole tile. -/
def Terrain.field (terrain : Terrain K) (u v : K) : K := Lib.Tents.field terrain.v9 terrain.v8 128 u v

variable [IsStrictOrderedRing K]

/-! ### One square -/

/-- The cap over a square, by the side that is nearest. -/
theorem cap_eq {s t w : K} (hw : 0 ≤ w) (hs : w ≤ s ∧ w ≤ 1 - s) (ht : w ≤ t ∧ w ≤ 1 - t)
    (hnear : w = s ∨ w = 1 - s ∨ w = t ∨ w = 1 - t) : cap (s - half) (t - half) = 2 * w := by
  have habs (r : K) (hr : w ≤ r ∧ w ≤ 1 - r) : |r - half| ≤ 1 / 2 - w := by
    rw [half_eq]
    exact abs_le.mpr ⟨by linarith [hr.1], by linarith [hr.2]⟩
  have hmax : max |s - half| |t - half| = 1 / 2 - w := by
    refine le_antisymm (max_le (habs s hs) (habs t ht)) ?_
    rw [half_eq]
    rcases hnear with h | h | h | h
    · exact le_max_of_le_left (by linarith [neg_le_abs (s - 1 / 2)])
    · exact le_max_of_le_left (by linarith [le_abs_self (s - 1 / 2)])
    · exact le_max_of_le_right (by linarith [neg_le_abs (t - 1 / 2)])
    · exact le_max_of_le_right (by linarith [le_abs_self (t - 1 / 2)])
  rw [cap, hmax]
  push_cast
  rw [max_eq_right (by linarith)]
  ring

/-- The field at a place in a square, by the weights of the corners and the centre there. -/
theorem field_eq (terrain : Terrain K) {s t w₀₀ w₀₁ w₁₀ w₁₁ w : K} (hrow : row < 128) (hcol : col < 128) (hu : u = row + s) (hv : v = col + t)
    (hw : 0 ≤ w) (hs : w ≤ s ∧ w ≤ 1 - s) (ht : w ≤ t ∧ w ≤ 1 - t) (hnear : w = s ∨ w = 1 - s ∨ w = t ∨ w = 1 - t)
    (h₀₀ : max 0 (1 - s - t) = w₀₀) (h₀₁ : max 0 (t - s) = w₀₁) (h₁₀ : max 0 (s - t) = w₁₀)
    (h₁₁ : max 0 (s + t - 1) = w₁₁) : terrain.field u v =
      terrain.v9 row col * w₀₀ + terrain.v9 row (col + 1) * w₀₁ +
        (terrain.v9 (row + 1) col * w₁₀ + terrain.v9 (row + 1) (col + 1) * w₁₁) + terrain.v8 row col * (2 * w) := by
  have hsu : u - row = s := by rw [hu, add_sub_cancel_left]
  have htv : v - col = t := by rw [hv, add_sub_cancel_left]
  rw [Terrain.field, field_square terrain.v9 terrain.v8 hrow hcol (by linarith) (by linarith) (by linarith)
    (by linarith), hsu, htv, h₀₀, h₀₁, h₁₀, h₁₁, cap_eq hw hs ht hnear]

/-- Whichever triangle a point is counted to, it has the height of the field there. -/
theorem field_of_interpolates (triangle : Triangle) (hrow : row < 128) (hcol : col < 128)
    (h : Interpolates terrain row col triangle u v z) : z = terrain.field u v := by
  obtain ⟨α, β, γ, hα, hβ, hγ, hsum, hu, hv, rfl⟩ := h
  obtain rfl : α = 1 - β - γ := by linarith
  rw [half_eq] at hu hv
  cases triangle with
  | top =>
    have hs : u = row + (β + γ / 2) := by
      rw [hu]
      push_cast [Triangle.side]
      ring
    have ht : v = col + (γ / 2) := by
      rw [hv]
      push_cast [Triangle.side]
      ring
    rw [field_eq terrain hrow hcol hs ht (w := γ / 2) (by linarith) ⟨by linarith, by linarith⟩
      ⟨by linarith, by linarith⟩ (.inr (.inr (.inl rfl))) (max_eq_right (by linarith)) (max_eq_left (by linarith))
      (max_eq_right (by linarith)) (max_eq_left (by linarith))]
    simp only [Triangle.side, Nat.add_zero]
    ring
  | left =>
    have hs : u = row + (γ / 2) := by
      rw [hu]
      push_cast [Triangle.side]
      ring
    have ht : v = col + (β + γ / 2) := by
      rw [hv]
      push_cast [Triangle.side]
      ring
    rw [field_eq terrain hrow hcol hs ht (w := γ / 2) (by linarith) ⟨by linarith, by linarith⟩
      ⟨by linarith, by linarith⟩ (.inl rfl) (max_eq_right (by linarith)) (max_eq_right (by linarith))
      (max_eq_left (by linarith)) (max_eq_left (by linarith))]
    simp only [Triangle.side, Nat.add_zero]
    ring
  | right =>
    have hs : u = row + (1 - γ / 2) := by
      rw [hu]
      push_cast [Triangle.side]
      ring
    have ht : v = col + (β + γ / 2) := by
      rw [hv]
      push_cast [Triangle.side]
      ring
    rw [field_eq terrain hrow hcol hs ht (w := γ / 2) (by linarith) ⟨by linarith, by linarith⟩
      ⟨by linarith, by linarith⟩ (.inr (.inl (by ring))) (max_eq_left (by linarith)) (max_eq_left (by linarith))
      (max_eq_right (by linarith)) (max_eq_right (by linarith))]
    simp only [Triangle.side, Nat.add_zero]
    ring
  | bottom =>
    have hs : u = row + (β + γ / 2) := by
      rw [hu]
      push_cast [Triangle.side]
      ring
    have ht : v = col + (1 - γ / 2) := by
      rw [hv]
      push_cast [Triangle.side]
      ring
    rw [field_eq terrain hrow hcol hs ht (w := γ / 2) (by linarith) ⟨by linarith, by linarith⟩
      ⟨by linarith, by linarith⟩ (.inr (.inr (.inr (by ring)))) (max_eq_left (by linarith)) (max_eq_right (by linarith))
      (max_eq_left (by linarith)) (max_eq_right (by linarith))]
    simp only [Triangle.side, Nat.add_zero]
    ring

theorem interpolates_index (terrain : Terrain K) (row col : ℕ) {s t : K} (hs : 0 ≤ s) (hs' : s ≤ 1) (ht : 0 ≤ t)
    (ht' : t ≤ 1) :
    let plane := terrain.planes row col (triangleIndex s t)
    Interpolates terrain row col (triangleIndex s t) (row + s) (col + t) (plane.a * s + plane.b * t + plane.c) := by
  unfold triangleIndex Interpolates Terrain.planes triangleCoefficients
  rw [half_eq]
  split_ifs with hlow hdiagonal hdiagonal
  · refine ⟨1 - s - t, s - t, 2 * t, by linarith, by linarith, by linarith, by ring, ?_, ?_, ?_⟩
    all_goals
      dsimp only [Triangle.side, Nat.add_zero]
      push_cast
      ring
  · refine ⟨1 - s - t, t - s, 2 * s, by linarith, by linarith, by linarith, by ring, ?_, ?_, ?_⟩
    all_goals
      dsimp only [Triangle.side, Nat.add_zero]
      push_cast
      ring
  · refine ⟨s - t, s + t - 1, 2 * (1 - s), by linarith, by linarith, by linarith, by ring, ?_, ?_, ?_⟩
    all_goals
      dsimp only [Triangle.side, Nat.add_zero]
      push_cast
      ring
  · refine ⟨t - s, s + t - 1, 2 * (1 - t), by linarith, by linarith, by linarith, by ring, ?_, ?_, ?_⟩
    all_goals
      dsimp only [Triangle.side, Nat.add_zero]
      push_cast
      ring

/-! ### Corners and centres -/

theorem field_corner (terrain : Terrain K) {i j : ℕ} (hi : i ≤ 128) (hj : j ≤ 128) :
    terrain.field i j = terrain.v9 i j := by
  refine Eq.symm ?_
  rcases hi.lt_or_eq with hi | rfl <;> rcases hj.lt_or_eq with hj | rfl
  · exact field_of_interpolates .top hi hj ⟨1, 0, 0, by simp [Triangle.side]⟩
  · exact field_of_interpolates .left hi (by decide : 127 < 128) ⟨0, 1, 0, by simp [Triangle.side]⟩
  · exact field_of_interpolates .top (by decide : 127 < 128) hj ⟨0, 1, 0, by simp [Triangle.side]⟩
  · exact field_of_interpolates .right (by decide : 127 < 128) (by decide : 127 < 128)
      ⟨0, 1, 0, by simp [Triangle.side]⟩

theorem field_center (terrain : Terrain K) {i j : ℕ} (hi : i < 128) (hj : j < 128) :
    terrain.field (i + half) (j + half) = terrain.v8 i j :=
  (field_of_interpolates .top hi hj ⟨0, 0, 1, by simp⟩).symm

/-! ### Samples -/

/-- A point of the tile, with its edges. -/
def Terrain.Holds (terrain : Terrain K) (x y : K) : Prop :=
  0 ≤ terrain.row x ∧ terrain.row x ≤ (128 : ℕ) ∧ 0 ≤ terrain.col y ∧ terrain.col y ≤ (128 : ℕ)

/-- The number of the square along one side. -/
def squareNumber (u : K) : ℕ := min ⌊u⌋₊ 127

theorem squareNumber_spec (hu : 0 ≤ u) (hu' : u ≤ (128 : ℕ)) :
    squareNumber u < 128 ∧ (squareNumber u : K) ≤ u ∧ u ≤ squareNumber u + 1 := by
  have hfloor := Nat.floor_le hu
  unfold squareNumber
  rcases le_total ⌊u⌋₊ 127 with hle | hle
  · rw [min_eq_left hle]
    exact ⟨by omega, hfloor, (Nat.lt_floor_add_one u).le⟩
  · rw [min_eq_right hle]
    have hcast : ((127 : ℕ) : K) ≤ (⌊u⌋₊ : ℕ) := by exact_mod_cast hle
    push_cast at hu' hcast ⊢
    exact ⟨by decide, hcast.trans hfloor, by linarith⟩

omit [IsStrictOrderedRing K] in
theorem square_eq (h : terrain.Holds x y) : terrain.square x y = .ok (squareNumber (terrain.row x),
    squareNumber (terrain.col y), terrain.row x - squareNumber (terrain.row x),
    terrain.col y - squareNumber (terrain.col y)) := by
  unfold Terrain.square
  exact if_neg (not_not.mpr h)

omit [IsStrictOrderedRing K] in
theorem holds_of_square {q : ℕ × ℕ × K × K} (h : terrain.square x y = .ok q) : terrain.Holds x y := by
  unfold Terrain.square at h
  dsimp only at h
  split_ifs at h with hout
  exact hout

section Sample
variable {slopeDegrees : K → K → K}

omit [IsStrictOrderedRing K] in
/-- There is a sample for every point of the tile outside holes. -/
theorem sample_iff {s : Sample K} : terrain.sample slopeDegrees x y = .ok s ↔ terrain.Holds x y ∧
    terrain.isHole (squareNumber (terrain.row x)) (squareNumber (terrain.col y)) = .ok false ∧
    let u := terrain.row x - squareNumber (terrain.row x)
    let v := terrain.col y - squareNumber (terrain.col y)
    let plane := terrain.planes (squareNumber (terrain.row x)) (squareNumber (terrain.col y)) (triangleIndex u v)
    s = ⟨plane.a * u + plane.b * v + plane.c, slopeDegrees plane.a plane.b, squareNumber (terrain.row x),
      squareNumber (terrain.col y), triangleIndex u v⟩ := by
  by_cases hholds : terrain.Holds x y
  · unfold Terrain.sample
    rw [square_eq hholds]
    dsimp only
    rw [outsideHole_eq_ok]
    exact (and_iff_right hholds).symm
  · refine ⟨fun h => ?_, fun h => absurd h.1 hholds⟩
    unfold Terrain.sample at h
    split at h
    · contradiction
    · next hsquare => exact absurd (holds_of_square hsquare) hholds

end Sample

/-! ### The lookup of the game server -/

omit [FloorRing K] [IsStrictOrderedRing K] in
theorem nativePlane_id (terrain : Terrain K) (row col : ℕ) (u v : K) :
    nativePlane id terrain row col u v = terrain.planes row col (triangleIndex u v) := by
  unfold nativePlane Terrain.planes triangleIndex triangleCoefficients
  dsimp only [id]
  split_ifs <;> rfl

omit [IsStrictOrderedRing K] in
theorem toInt_of_nonneg (hu : 0 ≤ u) : toInt u = ⌊u⌋₊ := by
  rw [toInt, if_pos hu, Int.natCast_floor_eq_floor hu]

/-- The number of a square on the map, taken apart into the tile and the square on it. -/
theorem global_square {tile : ℕ} (hu : 0 ≤ u) (h : toInt (u + (128 * tile : ℕ)) / 128 = tile) :
    (toInt (u + (128 * tile : ℕ)) % 128).toNat = squareNumber u ∧
      u + (128 * tile : ℕ) - toInt (u + (128 * tile : ℕ)) = u - squareNumber u := by
  rw [toInt_of_nonneg (add_nonneg hu (Nat.cast_nonneg _)), Nat.floor_add_natCast hu] at h ⊢
  have hlt : ⌊u⌋₊ < 128 := by omega
  have hnumber : squareNumber u = ⌊u⌋₊ := min_eq_left (by omega)
  refine ⟨by omega, ?_⟩
  rw [hnumber]
  push_cast
  ring

omit [IsStrictOrderedRing K] in
theorem gridSize_ne_zero : (gridSize : K) ≠ 0 := by
  unfold gridSize
  norm_num

omit [IsStrictOrderedRing K] in
theorem global_row (terrain : Terrain K) (x : K) :
    (128 : ℕ) * ((32 : ℕ) - x / gridSize) = terrain.row x + (128 * terrain.tileY : ℕ) := by
  have hgrid : (gridSize : K) ≠ 0 := gridSize_ne_zero
  unfold Terrain.row Terrain.origin unitSize
  push_cast
  field_simp
  ring

omit [IsStrictOrderedRing K] in
theorem global_col (terrain : Terrain K) (y : K) :
    (128 : ℕ) * ((32 : ℕ) - y / gridSize) = terrain.col y + (128 * terrain.tileX : ℕ) := by
  have hgrid : (gridSize : K) ≠ 0 := gridSize_ne_zero
  unfold Terrain.col Terrain.origin unitSize
  push_cast
  field_simp
  ring

theorem sample_of_gridmapHeight {slopeDegrees : K → K → K} (h : gridmapHeight id terrain x y = .ok z) :
    ∃ s, terrain.sample slopeDegrees x y = .ok s ∧ s.groundZ = z := by
  have hholds : terrain.Holds x y := by
    unfold gridmapHeight at h
    split at h
    · contradiction
    · next hsquare => exact holds_of_square hsquare
  unfold gridmapHeight at h
  rw [square_eq hholds] at h
  simp only [id, global_row terrain x, global_col terrain y] at h
  split_ifs at h with hmap
  rw [not_or, not_not, not_not] at hmap
  obtain ⟨hrow, hu⟩ := global_square hholds.1 hmap.1
  obtain ⟨hcol, hv⟩ := global_square hholds.2.2.1 hmap.2
  rw [hrow, hcol, hu, hv, outsideHole_eq_ok] at h
  obtain ⟨hhole, rfl⟩ := h
  refine ⟨_, sample_iff.mpr ⟨hholds, hhole, rfl⟩, ?_⟩
  dsimp only
  rw [← nativePlane_id]

/-- The height of a sample is interpolated in a triangle around the point, whichever it is, and it is what the game
server reads there. -/
theorem terrain_continuous (terrain : Terrain K) (slopeDegrees : K → K → K) (x y : K) :
    ((∃ s, terrain.sample slopeDegrees x y = .ok s) ↔ terrain.Holds x y ∧
      terrain.isHole (squareNumber (terrain.row x)) (squareNumber (terrain.col y)) = .ok false) ∧
    (∀ s, terrain.sample slopeDegrees x y = .ok s →
      (s.squareRow < 128 ∧ s.squareCol < 128 ∧ Interpolates terrain s.squareRow s.squareCol s.triangle
        (terrain.row x) (terrain.col y) s.groundZ) ∧
      (∀ row col triangle z, row < 128 → col < 128 →
        Interpolates terrain row col triangle (terrain.row x) (terrain.col y) z → z = s.groundZ) ∧
      (∀ i j : ℕ, i ≤ 128 → j ≤ 128 → terrain.row x = i → terrain.col y = j → s.groundZ = terrain.v9 i j) ∧
      ∀ i j : ℕ, i < 128 → j < 128 → terrain.row x = i + half → terrain.col y = j + half →
        s.groundZ = terrain.v8 i j) ∧
    ∀ z, gridmapHeight id terrain x y = .ok z → ∃ s, terrain.sample slopeDegrees x y = .ok s ∧ s.groundZ = z := by
  refine ⟨⟨fun ⟨s, h⟩ => ?_, fun ⟨hholds, hhole⟩ => ⟨_, sample_iff.mpr ⟨hholds, hhole, rfl⟩⟩⟩, fun s h => ?_,
    fun z h => sample_of_gridmapHeight h⟩
  · obtain ⟨hholds, hhole, -⟩ := sample_iff.mp h
    exact ⟨hholds, hhole⟩
  obtain ⟨⟨hu, hu', hv, hv'⟩, -, rfl⟩ := sample_iff.mp h
  obtain ⟨hrow, hlow, hhigh⟩ := squareNumber_spec hu hu'
  obtain ⟨hcol, hlow', hhigh'⟩ := squareNumber_spec hv hv'
  have hinside := interpolates_index terrain (squareNumber (terrain.row x)) (squareNumber (terrain.col y))
    (sub_nonneg.mpr hlow) (by linarith) (sub_nonneg.mpr hlow') (by linarith)
  dsimp only at hinside ⊢
  rw [add_sub_cancel, add_sub_cancel] at hinside
  have hfield := field_of_interpolates _ hrow hcol hinside
  refine ⟨⟨hrow, hcol, hinside⟩, fun row col triangle z hr hc hz => ?_, fun i j hi hj hx hy => ?_,
    fun i j hi hj hx hy => ?_⟩
  · exact (field_of_interpolates triangle hr hc hz).trans hfield.symm
  · rw [hfield, hx, hy, field_corner terrain hi hj]
  · rw [hfield, hx, hy, field_center terrain hi hj]

/-- A slope without holes, at the middle of the map. -/
def hill : Terrain ℚ := ⟨32, 32, fun i j => i + j, fun i j => i + j + 1, fun _ _ => some 0⟩

theorem terrain_continuous_hill : ∃ s, hill.sample (fun _ _ => 0) 0 0 = .ok s ∧ s.groundZ = hill.v9 0 0 := by
  obtain ⟨hsome, hheight, -⟩ := terrain_continuous hill (fun _ _ => 0) 0 0
  have hrow : hill.row 0 = (0 : ℕ) := by simp [Terrain.row, Terrain.origin, hill]
  have hcol : hill.col 0 = (0 : ℕ) := by simp [Terrain.col, Terrain.origin, hill]
  have hholds : hill.Holds 0 0 := by simp [Terrain.Holds, hrow, hcol]
  have hhole : hill.isHole (squareNumber (hill.row 0)) (squareNumber (hill.col 0)) = .ok false := by
    simp [Terrain.isHole, hill]
  obtain ⟨s, hs⟩ := hsome.mpr ⟨hholds, hhole⟩
  exact ⟨s, hs, (hheight s hs).2.2.1 0 0 (Nat.zero_le _) (Nat.zero_le _) hrow hcol⟩

end AIWorld.RealmLab
