import AIWorld.Lib.Binary32
import Mathlib.Data.Prod.Lex
import Mathlib.Order.Basic

/-! Single precision numbers in order. Every number but the NaN has a rank in a linear order, and a
program's comparisons are those of the ranks. -/

namespace Lib.Binary32

open Float.Model Float.Model.UnpackedFloat

/-- The place of a number: by sign, then away from zero by exponent and mantissa. -/
def rankUnpacked : UnpackedFloat → ℤ ×ₗ ℤ ×ₗ ℤ
  | .notANumber => toLex (0, toLex (0, 0))
  | .infinity .negative => toLex (-2, toLex (0, 0))
  | .finite .negative mantissa exponent _ => toLex (-1, toLex (-exponent, -mantissa))
  | .zero _ => toLex (0, toLex (0, 0))
  | .finite .positive mantissa exponent _ => toLex (1, toLex (exponent, mantissa))
  | .infinity .positive => toLex (2, toLex (0, 0))

def rank (a : Float32) : ℤ ×ₗ ℤ ×ₗ ℤ := rankUnpacked a.toModel.unpack

theorem toLex_lt {a a' b b' c c' : ℤ} :
    toLex (a, toLex (b, c)) < toLex (a', toLex (b', c')) ↔
      a < a' ∨ a = a' ∧ (b < b' ∨ b = b' ∧ c < c') := by
  rw [Prod.Lex.toLex_lt_toLex, Prod.Lex.toLex_lt_toLex]

theorem compare_eq_lt_iff {x y : UnpackedFloat} (hx : x ≠ .notANumber) (hy : y ≠ .notANumber) :
    x.compare y = some .lt ↔ rankUnpacked x < rankUnpacked y := by
  have hless : compare Sign.negative Sign.positive = .lt := rfl
  have hmore : compare Sign.positive Sign.negative = .gt := rfl
  have hsame : ∀ s : Sign, compare s s = .eq := by
    intro s
    cases s <;> rfl
  rcases x with ⟨_ | _⟩ | _ | _ | ⟨_ | _, m, e, h⟩ <;>
    rcases y with ⟨_ | _⟩ | _ | _ | ⟨_ | _, m', e', h'⟩ <;>
    first
    | exact absurd rfl hx
    | exact absurd rfl hy
    | simp [UnpackedFloat.compare, rankUnpacked, toLex_lt, hless, hmore, hsame, Ordering.swap_eq_lt,
        Ordering.then_eq_lt, Ordering.then_eq_gt, compare_gt_iff_gt, compare_lt_iff_lt]

theorem compare_eq_eq_iff_rank {x y : UnpackedFloat} (hx : x ≠ .notANumber) (hy : y ≠ .notANumber) :
    x.compare y = some .eq ↔ rankUnpacked x = rankUnpacked y := by
  rcases x with ⟨_ | _⟩ | _ | _ | ⟨_ | _, m, e, h⟩ <;>
    rcases y with ⟨_ | _⟩ | _ | _ | ⟨_ | _, m', e', h'⟩ <;>
    simp_all [compare_eq_eq_iff, rankUnpacked, and_comm] <;>
    exact fun _ => Int.ofNat_inj.symm

variable {a b : Float32}

theorem unpack_ne (h : a.isNaN = false) : a.toModel.unpack ≠ .notANumber := by
  intro hnan
  change a.toModel.unpack.isNaN = false at h
  rw [hnan] at h
  contradiction

theorem lt_iff_rank (ha : a.isNaN = false) (hb : b.isNaN = false) : a < b ↔ rank a < rank b := by
  rw [lt_iff, compare_eq_lt_iff (unpack_ne ha) (unpack_ne hb)]
  rfl

theorem beq_iff_rank (ha : a.isNaN = false) (hb : b.isNaN = false) :
    (a == b) = true ↔ rank a = rank b := by
  change (a.toModel.unpack.compare b.toModel.unpack == some .eq) = true ↔ _
  rw [beq_iff_eq, compare_eq_eq_iff_rank (unpack_ne ha) (unpack_ne hb)]
  rfl

theorem le_iff_rank (ha : a.isNaN = false) (hb : b.isNaN = false) : a ≤ b ↔ rank a ≤ rank b := by
  have hle : a ≤ b ↔ a.toModel.unpack.compare b.toModel.unpack = some .lt ∨
      a.toModel.unpack.compare b.toModel.unpack = some .eq := by
    rw [le_iff]
    rcases a.toModel.unpack.compare b.toModel.unpack with _ | _ | _ | _ <;> simp
  rw [hle, compare_eq_lt_iff (unpack_ne ha) (unpack_ne hb),
    compare_eq_eq_iff_rank (unpack_ne ha) (unpack_ne hb)]
  exact le_iff_lt_or_eq.symm

/-- Only numbers compare. -/
theorem isNaN_of_le (h : a ≤ b) : a.isNaN = false ∧ b.isNaN = false := by
  rw [le_iff] at h
  constructor
  · change a.toModel.unpack.isNaN = false
    cases ha : a.toModel.unpack <;> first | rfl | simp [ha, UnpackedFloat.compare] at h
  · change b.toModel.unpack.isNaN = false
    cases hb : b.toModel.unpack <;>
      first | rfl | (cases ha : a.toModel.unpack <;> simp [ha, hb, UnpackedFloat.compare] at h)

theorem le_trans_of_le {c : Float32} (h : a ≤ b) (h' : b ≤ c) : a ≤ c := by
  obtain ⟨ha, hb⟩ := isNaN_of_le h
  have hc := (isNaN_of_le h').2
  rw [le_iff_rank ha hb] at h
  rw [le_iff_rank hb hc] at h'
  exact (le_iff_rank ha hc).mpr (h.trans h')

theorem isNaN_of_lt (h : a < b) : a.isNaN = false ∧ b.isNaN = false := by
  refine isNaN_of_le (le_iff.mpr ?_)
  rw [lt_iff.mp h]
  rfl

theorem lt_trans_of_lt {c : Float32} (h : a < b) (h' : b < c) : a < c := by
  obtain ⟨ha, hb⟩ := isNaN_of_lt h
  have hc := (isNaN_of_lt h').2
  rw [lt_iff_rank ha hb] at h
  rw [lt_iff_rank hb hc] at h'
  exact (lt_iff_rank ha hc).mpr (h.trans h')

theorem not_le_of_lt (h : a < b) : ¬ b ≤ a := by
  intro h'
  obtain ⟨ha, hb⟩ := isNaN_of_lt h
  rw [lt_iff_rank ha hb] at h
  rw [le_iff_rank hb ha] at h'
  exact absurd h (not_lt_of_ge h')

/-! ### Equality to a program -/

theorem Alike.isNaN_eq (h : Alike a b) : a.isNaN = b.isNaN := by
  rcases h with rfl | ⟨s, t, ha, hb⟩
  · rfl
  · change a.toModel.unpack.isNaN = b.toModel.unpack.isNaN
    rw [ha, hb]
    rfl

theorem beq_self_iff : (a == a) = true ↔ a.isNaN = false :=
  beq_iff.trans (and_iff_left (.refl a))

theorem beq_symm (h : (a == b) = true) : (b == a) = true := by
  obtain ⟨hnan, halike⟩ := beq_iff.mp h
  exact beq_iff.mpr ⟨halike.isNaN_eq ▸ hnan, halike.symm⟩

theorem beq_trans {c : Float32} (h : (a == b) = true) (h' : (b == c) = true) : (a == c) = true := by
  obtain ⟨hnan, halike⟩ := beq_iff.mp h
  exact beq_iff.mpr ⟨hnan, halike.trans (beq_iff.mp h').2⟩

end Lib.Binary32
