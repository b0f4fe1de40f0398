import Mathlib.Algebra.Order.Field.Basic
import Mathlib.Algebra.Order.Floor.Ring
import Mathlib.Data.Rat.Cast.Defs

/-! Heights of the terrain of one map tile. A tile has 128 by 128 squares, each cut into four triangles at its centre.
The height at a point is read in two ways: from the tile alone, and as the game server does, from the numbers of squares
over the whole map. The arithmetic is that of an ordered field. Tiles are numbered from zero. -/

namespace AIWorld.RealmLab

variable {K : Type} [Field K] [LinearOrder K] [FloorRing K]

/-- A height `a * u + b * v + c`. -/
structure Plane (K : Type) where
  a : K
  b : K
  c : K

/-- The triangles of a square, each at one side of the diamond. -/
inductive Triangle
  | top | left | right | bottom
  deriving DecidableEq

def triangleCoefficients (h1 h2 h3 h4 center : K) : Triangle → Plane K :=
  let h5 := (2 : ℕ) * center
  fun
  | .top => ⟨h2 - h1, h5 - h1 - h2, h1⟩
  | .left => ⟨h5 - h1 - h3, h3 - h1, h1⟩
  | .right => ⟨h2 + h4 - h5, h4 - h2, h5 - h4⟩
  | .bottom => ⟨h4 - h3, h3 + h4 - h5, h5 - h4⟩

def triangleIndex (u v : K) : Triangle :=
  if u + v < 1 then if u > v then .top else .left
  else if u > v then .right
  else .bottom

/-- The width of a tile, the number 533.33333 as a float of 32 bits. -/
def gridSize : K := (8738133 / 16384 : ℚ)

def unitSize : K := gridSize / (128 : ℕ)

inductive TerrainError
  | outsideTile | hole | neighboringMap | missingMask
  deriving DecidableEq

structure Terrain (K : Type) where
  tileX : ℕ
  tileY : ℕ
  v9 : ℕ → ℕ → K
  v8 : ℕ → ℕ → K
  holes : ℕ → ℕ → Option ℕ

structure Sample (K : Type) where
  groundZ : K
  triangleSlopeDegrees : K
  squareRow : ℕ
  squareCol : ℕ
  triangle : Triangle

namespace Terrain

variable (terrain : Terrain K)

def origin : K × K := (((32 : ℕ) - (terrain.tileY : K)) * gridSize, ((32 : ℕ) - (terrain.tileX : K)) * gridSize)

/-- The place of a coordinate on the tile, in squares. -/
def row (x : K) : K := (terrain.origin.1 - x) / unitSize

def col (y : K) : K := (terrain.origin.2 - y) / unitSize

/-- The square of a point, and the place of the point in it. -/
def square (x y : K) : Except TerrainError (ℕ × ℕ × K × K) :=
  let u := terrain.row x
  let v := terrain.col y
  if ¬(0 ≤ u ∧ u ≤ (128 : ℕ) ∧ 0 ≤ v ∧ v ≤ (128 : ℕ)) then .error .outsideTile
  else
    let row := min ⌊u⌋₊ 127
    let col := min ⌊v⌋₊ 127
    .ok (row, col, u - row, v - col)

def isHole (row col : ℕ) : Except TerrainError Bool :=
  match terrain.holes (col / 8) (row / 8) with
  | none => .error .missingMask
  | some mask => .ok (mask &&& (1 <<< (row % 8 / 2 * 4 + col % 8 / 2)) != 0)

def planes (row col : ℕ) : Triangle → Plane K :=
  triangleCoefficients (terrain.v9 row col) (terrain.v9 (row + 1) col) (terrain.v9 row (col + 1))
    (terrain.v9 (row + 1) (col + 1)) (terrain.v8 row col)

end Terrain

/-- Go on outside holes. -/
def outsideHole {α : Type} (hole : Except TerrainError Bool) (found : α) : Except TerrainError α :=
  match hole with
  | .error e => .error e
  | .ok true => .error .hole
  | .ok false => .ok found

theorem outsideHole_eq_ok {α : Type} {hole : Except TerrainError Bool} {found a : α} :
    outsideHole hole found = .ok a ↔ hole = .ok false ∧ a = found := by
  unfold outsideHole
  split <;> simp [eq_comm]

/-- The height and the slope at a point. The slope of a plane is in degrees. -/
def Terrain.sample (terrain : Terrain K) (slopeDegrees : K → K → K) (x y : K) : Except TerrainError (Sample K) :=
  match terrain.square x y with
  | .error e => .error e
  | .ok (row, col, u, v) =>
    let index := triangleIndex u v
    let plane := terrain.planes row col index
    outsideHole (terrain.isHole row col)
      { groundZ := plane.a * u + plane.b * v + plane.c
        triangleSlopeDegrees := slopeDegrees plane.a plane.b
        squareRow := row, squareCol := col, triangle := index }

/-- A number without its fraction. -/
def toInt (q : K) : ℤ := if 0 ≤ q then ⌊q⌋ else ⌈q⌉

/-- The plane of a triangle, with `f32` as the rounding of every result. -/
def nativePlane (f32 : K → K) (terrain : Terrain K) (row col : ℕ) (u v : K) : Plane K :=
  let h1 := terrain.v9 row col
  let h2 := terrain.v9 (row + 1) col
  let h3 := terrain.v9 row (col + 1)
  let h4 := terrain.v9 (row + 1) (col + 1)
  let h5 := f32 ((2 : ℕ) * terrain.v8 row col)
  if f32 (u + v) < 1 then
    if u > v then ⟨f32 (h2 - h1), f32 (f32 (h5 - h1) - h2), h1⟩
    else ⟨f32 (f32 (h5 - h1) - h3), f32 (h3 - h1), h1⟩
  else if u > v then ⟨f32 (f32 (h2 + h4) - h5), f32 (h4 - h2), f32 (h5 - h4)⟩
  else ⟨f32 (h4 - h3), f32 (f32 (h3 + h4) - h5), f32 (h5 - h4)⟩

/-- The height as the game server reads it, from the square's number on the whole map. -/
def gridmapHeight (f32 : K → K) (terrain : Terrain K) (x y : K) : Except TerrainError K :=
  match terrain.square x y with
  | .error e => .error e
  | .ok _ =>
    let u := f32 ((128 : ℕ) * f32 ((32 : ℕ) - f32 (f32 x / gridSize)))
    let v := f32 ((128 : ℕ) * f32 ((32 : ℕ) - f32 (f32 y / gridSize)))
    let globalRow := toInt u
    let globalCol := toInt v
    if globalRow / 128 ≠ terrain.tileY ∨ globalCol / 128 ≠ terrain.tileX then .error .neighboringMap
    else
      let u := f32 (u - globalRow)
      let v := f32 (v - globalCol)
      let row := (globalRow % 128).toNat
      let col := (globalCol % 128).toNat
      let plane := nativePlane f32 terrain row col u v
      outsideHole (terrain.isHole row col) (f32 (f32 (f32 (plane.a * u) + f32 (plane.b * v)) + plane.c))

end AIWorld.RealmLab
