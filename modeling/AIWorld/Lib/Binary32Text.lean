import AIWorld.Lib.Significant

/-! The number that a single precision float is, and how a stream writes it with its six digits. -/

namespace Lib.Binary32

open Float.Model Float.Model.UnpackedFloat Lib.Json Lib.Significant

def isNegative : Sign → Bool
  | .negative => true
  | .positive => false

/-- The magnitude of a finite float. -/
def magnitude (mantissa : ℕ) (exponent : ℤ) : ℚ := mantissa * 2 ^ exponent

/-- The number that a float is, if it is finite. -/
def value (a : Float32) : Option ℚ :=
  match a.toModel.unpack with
  | .infinity _ | .notANumber => none
  | .zero _ => some 0
  | .finite sign mantissa exponent _ =>
    some (if isNegative sign then -magnitude mantissa exponent else magnitude mantissa exponent)

/-- A float as a stream writes it. -/
def text (a : Float32) : Bytes :=
  match a.toModel.unpack with
  | .infinity sign => (if isNegative sign then ascii "-" else []) ++ ascii "inf"
  | .notANumber => ascii "nan"
  | .zero sign => sixDigitText (isNegative sign) 0
  | .finite sign mantissa exponent _ => sixDigitText (isNegative sign) (magnitude mantissa exponent)

/-- A number of any sign, rounded to six digits. -/
def rounded (q : ℚ) : ℚ := if q < 0 then -sixDigits (-q) else sixDigits q

theorem sixDigits_zero : sixDigits 0 = 0 := by
  have hle : sixDigits 0 ≤ (0 : ℕ) := sixDigits_le le_rfl (by decide) (by simp)
  exact le_antisymm (by simpa using hle) (sixDigits_nonneg 0)

theorem rounded_le {q : ℚ} {n : ℕ} (hn : n < 10 ^ 6) (h : q ≤ n) : rounded q ≤ n := by
  unfold rounded
  split_ifs with hneg
  · have hnonneg := sixDigits_nonneg (-q)
    have hcast : (0 : ℚ) ≤ n := Nat.cast_nonneg n
    linarith
  · exact sixDigits_le (not_lt.mp hneg) hn h

theorem neg_le_rounded {q : ℚ} {n : ℕ} (hn : n < 10 ^ 6) (h : -n ≤ q) : -n ≤ rounded q := by
  unfold rounded
  split_ifs with hneg
  · have hle : sixDigits (-q) ≤ n := sixDigits_le (by linarith) hn (by linarith)
    linarith
  · have hnonneg := sixDigits_nonneg q
    have hcast : (0 : ℚ) ≤ n := Nat.cast_nonneg n
    linarith

/-- A float is written as a number of JSON that stands for the rounded number. -/
theorem exists_text {a : Float32} {q : ℚ} (h : value a = some q) : ∃ negative magnitude, 0 ≤ magnitude ∧
    text a = sixDigitText negative magnitude ∧ numberValue (text a) = rounded q := by
  unfold value at h
  unfold text
  cases hunpack : a.toModel.unpack with
  | infinity sign => simp [hunpack] at h
  | notANumber => simp [hunpack] at h
  | zero sign =>
    rw [hunpack, Option.some.injEq] at h
    subst h
    refine ⟨_, 0, le_rfl, rfl, ?_⟩
    rw [numberValue_sixDigitText _ le_rfl, rounded, if_neg (lt_irrefl _), sixDigits_zero, neg_zero, ite_self]
  | finite sign mantissa exponent hpos =>
    rw [hunpack, Option.some.injEq] at h
    have hmagnitude : 0 < magnitude mantissa exponent := by
      have hcast : (0 : ℚ) < mantissa := by exact_mod_cast hpos
      exact mul_pos hcast (zpow_pos (by norm_num) _)
    refine ⟨_, _, hmagnitude.le, rfl, ?_⟩
    rw [numberValue_sixDigitText _ hmagnitude.le, ← h]
    unfold rounded
    split_ifs with hsign hneg hneg
    · rw [neg_neg]
    · exact absurd (neg_lt_zero.mpr hmagnitude) hneg
    · exact absurd hneg (not_lt.mpr hmagnitude.le)
    · rfl

end Lib.Binary32
