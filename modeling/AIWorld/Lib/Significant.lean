import AIWorld.Lib.Json.Decimal
import Mathlib.Data.Int.Log
import Mathlib.Data.Rat.Floor
import Mathlib.Tactic.FieldSimp
import Mathlib.Tactic.Linarith
import Mathlib.Tactic.Positivity
import Mathlib.Tactic.Ring

/-! Numbers written with six significant digits, as streams write them: rounded to the nearest, halves to the
even neighbour, without zeros at the end, and with an exponent where the number is too small or too large. The
text is a number of JSON and stands for the rounded number. -/

namespace Lib.Significant

open Lib.Json

/-! ### Rounding -/

/-- The nearest natural number, and of two the even one. -/
def halfEven (x : ℚ) : ℕ :=
  if x - ⌊x⌋₊ < 1 / 2 then ⌊x⌋₊
  else if 1 / 2 < x - ⌊x⌋₊ then ⌊x⌋₊ + 1
  else if ⌊x⌋₊ % 2 = 0 then ⌊x⌋₊ else ⌊x⌋₊ + 1

theorem halfEven_le {x : ℚ} {n : ℕ} (h : x ≤ n) : halfEven x ≤ n := by
  have hfloor : ⌊x⌋₊ ≤ n := Nat.floor_le_of_le h
  unfold halfEven
  rcases Nat.lt_or_eq_of_le hfloor with hlt | heq
  · split_ifs <;> omega
  · have hsmall : x - ⌊x⌋₊ < 1 / 2 := by
      rw [heq]
      linarith
    rw [if_pos hsmall]
    exact hfloor

/-- The power of ten of the last of six digits. -/
def unit (q : ℚ) : ℚ := 10 ^ (Int.log 10 q - 5)

/-- A number rounded to six digits. -/
def sixDigits (q : ℚ) : ℚ := halfEven (q / unit q) * unit q

theorem unit_pos (q : ℚ) : 0 < unit q := zpow_pos (by norm_num) _

theorem sixDigits_nonneg (q : ℚ) : 0 ≤ sixDigits q := mul_nonneg (Nat.cast_nonneg _) (unit_pos q).le

/-- A number of at most six digits is a multiple of the unit of every smaller one. -/
theorem exists_multiple {q : ℚ} {n : ℕ} (hq : 0 < q) (hn : n < 10 ^ 6) (h : q ≤ n) : ∃ m : ℕ, (n : ℚ) = m * unit q := by
  have hlog : Int.log 10 q - 5 ≤ 0 := by
    have hsmall : q < (10 : ℕ) ^ (6 : ℤ) := by
      have hcast : (n : ℚ) < 10 ^ 6 := by exact_mod_cast hn
      have hpow : ((10 : ℕ) : ℚ) ^ (6 : ℤ) = 10 ^ 6 := by norm_num
      rw [hpow]
      linarith
    have := (Int.lt_zpow_iff_log_lt (by decide) hq).mp hsmall
    omega
  refine ⟨n * 10 ^ (5 - Int.log 10 q).toNat, ?_⟩
  have hpow : (10 : ℚ) ^ (5 - Int.log 10 q).toNat = 10 ^ (5 - Int.log 10 q) := by
    rw [← zpow_natCast, Int.toNat_of_nonneg (by omega)]
  rw [Nat.cast_mul, Nat.cast_pow, Nat.cast_ofNat, hpow, unit, mul_assoc, ← zpow_add₀ (by norm_num)]
  have hzero : 5 - Int.log 10 q + (Int.log 10 q - 5) = 0 := by omega
  rw [hzero, zpow_zero, mul_one]

/-- Rounding does not pass a number of at most six digits. -/
theorem sixDigits_le {q : ℚ} {n : ℕ} (hq : 0 ≤ q) (hn : n < 10 ^ 6) (h : q ≤ n) : sixDigits q ≤ n := by
  rcases hq.eq_or_lt with rfl | hq
  · have hzero : halfEven (0 / unit 0) ≤ 0 := halfEven_le (by simp)
    rw [sixDigits, Nat.le_zero.mp hzero]
    simp
  · obtain ⟨m, hm⟩ := exists_multiple hq hn h
    have hdiv : q / unit q ≤ m := by
      rw [div_le_iff₀ (unit_pos q), ← hm]
      exact h
    rw [sixDigits, hm]
    exact mul_le_mul_of_nonneg_right (by exact_mod_cast halfEven_le hdiv) (unit_pos q).le

/-- The six digits and the power of ten of the first one. -/
def scientific (q : ℚ) : ℕ × ℤ :=
  let digits := halfEven (q / unit q)
  if digits = 10 ^ 6 then (10 ^ 5, Int.log 10 q + 1) else (digits, Int.log 10 q)

theorem digits_le (q : ℚ) : halfEven (q / unit q) ≤ 10 ^ 6 := by
  refine halfEven_le ?_
  have hpow : ((10 ^ 6 : ℕ) : ℚ) * unit q = 10 ^ (Int.log 10 q + 1) := by
    have hsplit : Int.log 10 q + 1 = 6 + (Int.log 10 q - 5) := by omega
    rw [unit, hsplit, zpow_add₀ (by norm_num)]
    norm_num
  rw [div_le_iff₀ (unit_pos q), hpow]
  exact_mod_cast (Int.lt_zpow_succ_log_self (by decide) q).le

theorem scientific_le (q : ℚ) : (scientific q).1 ≤ 10 ^ 6 := by
  unfold scientific
  dsimp only
  split_ifs
  · norm_num
  · exact digits_le q

theorem sixDigits_eq (q : ℚ) : sixDigits q = (scientific q).1 * 10 ^ ((scientific q).2 - 5) := by
  unfold scientific sixDigits unit
  dsimp only
  split_ifs with hcarry
  · have hpow : Int.log 10 q + 1 - 5 = (Int.log 10 q - 5) + 1 := by omega
    rw [hcarry, hpow, zpow_add₀ (by norm_num), zpow_one]
    push_cast
    ring
  · rfl

/-! ### Writing -/

/-- Some number of digits. -/
def padded : ℕ → ℕ → Bytes
  | 0, _ => []
  | p + 1, n => padded p (n / 10) ++ [(0x30 + n % 10).toUInt8]

/-- A number with some decimals, without zeros at the end of them. -/
def writeDecimals : ℕ → ℕ → Bytes
  | 0, n => decimal n
  | p + 1, n =>
    if n % 10 = 0 then writeDecimals p (n / 10)
    else decimal (n / 10 ^ (p + 1)) ++ '.'.toUInt8 :: padded (p + 1) (n % 10 ^ (p + 1))

/-- An exponent with at least two digits. -/
def writeExponent (k : ℤ) : Bytes :=
  'e'.toUInt8 :: (if k < 0 then '-'.toUInt8 else '+'.toUInt8) ::
    ((if k.natAbs < 10 then ascii "0" else []) ++ decimal k.natAbs)

def writeMagnitude (q : ℚ) : Bytes :=
  if q = 0 then ascii "0"
  else
    let (n, k) := scientific q
    if -4 ≤ k ∧ k < 6 then writeDecimals (5 - k).toNat n else writeDecimals 5 n ++ writeExponent k

def sixDigitText (negative : Bool) (q : ℚ) : Bytes := (if negative then ascii "-" else []) ++ writeMagnitude q

/-! ### Reading -/

/-- What digits after an optional sign stand for. -/
def signed {α : Type*} [Neg α] (value : Bytes → α) (t : Bytes) : α :=
  if t.head? = some '-'.toUInt8 then -(value t.tail)
  else if t.head? = some '+'.toUInt8 then value t.tail
  else value t

def wholeValue (t : Bytes) : ℤ := signed (fun digits => (digitsValue digits : ℤ)) t

def unsignedValue (t : Bytes) : ℚ :=
  let integer := t.takeWhile isDigit
  let rest := t.dropWhile isDigit
  if rest.head? = some '.'.toUInt8 then
    let fraction := rest.tail.takeWhile isDigit
    digitsValue (integer ++ fraction) * 10 ^ (wholeValue (rest.tail.dropWhile isDigit).tail - fraction.length)
  else digitsValue integer * 10 ^ wholeValue rest.tail

/-- The number that a number of JSON stands for. -/
def numberValue (t : Bytes) : ℚ := signed unsignedValue t

/-! ### What is written is read -/

theorem digitsValue_concat (t : Bytes) (c : UInt8) : digitsValue (t ++ [c]) = digitsValue t * 10 + (c.toNat - 0x30) := by
  rw [digitsValue, List.foldl_append]
  rfl

theorem length_padded (p n : ℕ) : (padded p n).length = p := by
  induction p generalizing n with
  | zero => rfl
  | succ p ih => rw [padded, List.length_append, ih, List.length_singleton]

theorem isDigit_padded (p n : ℕ) : ∀ c ∈ padded p n, isDigit c = true := by
  induction p generalizing n with
  | zero => simp [padded]
  | succ p ih =>
    intro c hc
    rcases List.mem_append.mp hc with hc | hc
    · exact ih _ c hc
    · obtain rfl := List.mem_singleton.mp hc
      have hlt : n % 10 < 10 := Nat.mod_lt _ (by decide)
      rw [isDigit_iff, toNat_digit hlt]
      omega

theorem digitsValue_padded (t : Bytes) {p n : ℕ} (h : n < 10 ^ p) :
    digitsValue (t ++ padded p n) = digitsValue t * 10 ^ p + n := by
  induction p generalizing n with
  | zero =>
    rw [pow_zero, Nat.lt_one_iff] at h
    simp [padded, h]
  | succ p ih =>
    have hlt : n % 10 < 10 := Nat.mod_lt _ (by decide)
    have hquot : n / 10 < 10 ^ p := by
      rw [Nat.div_lt_iff_lt_mul (by decide), ← pow_succ]
      exact h
    rw [padded, ← List.append_assoc, digitsValue_concat, ih hquot, toNat_digit hlt, pow_succ]
    have hsplit := Nat.div_add_mod n 10
    rw [add_mul, mul_assoc]
    omega

section Digits
variable {t rest : Bytes} (ht : ∀ c ∈ t, isDigit c = true) (hrest : Ends isDigit rest)
include ht hrest

theorem takeWhile_digits : (t ++ rest).takeWhile isDigit = t ∧ (t ++ rest).dropWhile isDigit = rest := by
  have hstop : rest.takeWhile isDigit = [] ∧ rest.dropWhile isDigit = rest := by
    cases rest with
    | nil => exact ⟨rfl, rfl⟩
    | cons c rest =>
      have hc : isDigit c = false := hrest c (by simp)
      simp [hc]
  rw [List.takeWhile_append_of_pos ht, List.dropWhile_append_of_pos ht, hstop.1, hstop.2, List.append_nil]
  exact ⟨rfl, rfl⟩

end Digits

/-- What may follow the decimals of a number. -/
def Follows (rest : Bytes) : Prop := rest = [] ∨ rest.head? = some 'e'.toUInt8

theorem Follows.ends {rest : Bytes} (h : Follows rest) : Ends isDigit rest ∧ rest.head? ≠ some '.'.toUInt8 := by
  rcases h with rfl | h
  · exact ⟨ends_nil _, by simp⟩
  · constructor
    · intro c hc
      cases h.symm.trans hc
      decide
    · rw [h]
      decide

theorem unsignedValue_decimal (n : ℕ) {rest : Bytes} (h : Follows rest) :
    unsignedValue (decimal n ++ rest) = n * 10 ^ wholeValue rest.tail := by
  obtain ⟨htake, hdrop⟩ := takeWhile_digits (isDigits_decimal n).2 h.ends.1
  rw [unsignedValue, htake, hdrop]
  simp only [if_neg h.ends.2, digitsValue_decimal]

theorem unsignedValue_decimals (p n : ℕ) {rest : Bytes} (h : Follows rest) :
    unsignedValue (writeDecimals p n ++ rest) = n / 10 ^ p * 10 ^ wholeValue rest.tail := by
  induction p generalizing n with
  | zero =>
    rw [writeDecimals, unsignedValue_decimal n h]
    simp
  | succ p ih =>
    rw [writeDecimals]
    split_ifs with hzero
    · have hten : (n : ℚ) = (n / 10 : ℕ) * 10 := by
        have := Nat.div_add_mod n 10
        exact_mod_cast (by omega : n = n / 10 * 10)
      rw [ih, hten, pow_succ]
      field_simp
    · have hpow : 0 < 10 ^ (p + 1) := Nat.pos_of_ne_zero (by simp)
      have hlt : n % 10 ^ (p + 1) < 10 ^ (p + 1) := Nat.mod_lt _ hpow
      have hdot : Ends isDigit ('.'.toUInt8 :: (padded (p + 1) (n % 10 ^ (p + 1)) ++ rest)) :=
        ends_cons (by decide) _
      obtain ⟨htake, hdrop⟩ := takeWhile_digits (isDigits_decimal (n / 10 ^ (p + 1))).2 hdot
      obtain ⟨htake', hdrop'⟩ := takeWhile_digits (isDigit_padded (p + 1) (n % 10 ^ (p + 1))) h.ends.1
      rw [List.append_assoc, List.cons_append, unsignedValue, htake, hdrop]
      simp only [List.head?_cons, if_true, List.tail_cons, htake', hdrop', digitsValue_padded _ hlt,
        digitsValue_decimal, length_padded]
      have hsplit : n / 10 ^ (p + 1) * 10 ^ (p + 1) + n % 10 ^ (p + 1) = n := Nat.div_add_mod' n _
      rw [hsplit, zpow_sub₀ (by norm_num), zpow_natCast]
      ring

theorem wholeValue_exponent (k : ℤ) : wholeValue (writeExponent k).tail = k := by
  have hdigits : digitsValue ((if k.natAbs < 10 then ascii "0" else []) ++ decimal k.natAbs) = k.natAbs := by
    have hzero : digitsValue (ascii "0" ++ decimal k.natAbs) = digitsValue (decimal k.natAbs) := rfl
    split_ifs
    · rw [hzero, digitsValue_decimal]
    · rw [List.nil_append, digitsValue_decimal]
  unfold wholeValue writeExponent signed
  rw [List.tail_cons]
  by_cases hk : k < 0
  · simp only [if_pos hk, List.head?_cons, if_true, List.tail_cons, hdigits]
    omega
  · have hplus : ¬some '+'.toUInt8 = some '-'.toUInt8 := by decide
    simp only [if_neg hk, List.head?_cons, if_neg hplus, if_true, List.tail_cons, hdigits]
    omega

theorem follows_exponent (k : ℤ) : Follows (writeExponent k) := .inr rfl

theorem unsignedValue_magnitude {q : ℚ} (hq : 0 ≤ q) : unsignedValue (writeMagnitude q) = sixDigits q := by
  unfold writeMagnitude
  split_ifs with hzero
  · have hsix : sixDigits q = 0 := by
      have hle : sixDigits q ≤ (0 : ℕ) := sixDigits_le hq (by decide) (by simp [hzero])
      exact le_antisymm (by simpa using hle) (sixDigits_nonneg q)
    rw [hsix]
    decide +kernel
  · rw [sixDigits_eq]
    generalize scientific q = nk
    obtain ⟨n, k⟩ := nk
    dsimp only
    split_ifs with hfixed
    · have hpow : (10 : ℚ) ^ (k - 5) = ((10 : ℚ) ^ (5 - k).toNat)⁻¹ := by
        rw [← zpow_natCast, Int.toNat_of_nonneg (by omega), ← zpow_neg, neg_sub]
      have hvalue := unsignedValue_decimals (5 - k).toNat n (.inl rfl)
      rw [List.append_nil] at hvalue
      rw [hvalue, hpow]
      simp [wholeValue, signed, digitsValue, div_eq_mul_inv]
    · rw [unsignedValue_decimals 5 n (follows_exponent k), wholeValue_exponent, zpow_sub₀ (by norm_num)]
      norm_num
      ring

theorem decimals_eq (p n : ℕ) :
    ∃ m ≤ n, ∃ fraction, writeDecimals p n = decimal m ++ fraction ∧ IsFraction fraction := by
  induction p generalizing n with
  | zero => exact ⟨n, le_rfl, [], by simp [writeDecimals], .inl rfl⟩
  | succ p ih =>
    rw [writeDecimals]
    split_ifs
    · obtain ⟨m, hm, h⟩ := ih (n / 10)
      exact ⟨m, hm.trans (Nat.div_le_self _ _), h⟩
    · refine ⟨_, Nat.div_le_self _ _, _, rfl, .inr ⟨_, rfl, ?_, isDigit_padded _ _⟩⟩
      refine List.ne_nil_of_length_pos ?_
      rw [length_padded]
      omega

theorem isExponent_write (k : ℤ) : IsExponent (writeExponent k) := by
  refine .inr ⟨'e'.toUInt8, [if k < 0 then '-'.toUInt8 else '+'.toUInt8], _, rfl, .inl rfl, ?_, ?_, ?_⟩
  · split_ifs
    · exact .inr (.inr rfl)
    · exact .inr (.inl rfl)
  · simp [(isDigits_decimal k.natAbs).1]
  · intro c hc
    rcases List.mem_append.mp hc with hc | hc
    · split_ifs at hc
      · obtain rfl := List.mem_singleton.mp hc
        decide
      · contradiction
    · exact (isDigits_decimal _).2 c hc

/-- The parts of the text: the digits before the point, the decimals, and the exponent. -/
theorem magnitude_eq (q : ℚ) : ∃ m ≤ 10 ^ 6, ∃ fraction exponent,
    writeMagnitude q = decimal m ++ (fraction ++ exponent) ∧ IsFraction fraction ∧ IsExponent exponent := by
  unfold writeMagnitude
  split_ifs
  · exact ⟨0, by decide, [], [], rfl, .inl rfl, .inl rfl⟩
  · have hle := scientific_le q
    dsimp only
    split_ifs
    · obtain ⟨m, hm, fraction, heq, hfraction⟩ := decimals_eq (5 - (scientific q).2).toNat (scientific q).1
      exact ⟨m, hm.trans hle, fraction, [], by rw [heq, List.append_nil], hfraction, .inl rfl⟩
    · obtain ⟨m, hm, fraction, heq, hfraction⟩ := decimals_eq 5 (scientific q).1
      exact ⟨m, hm.trans hle, fraction, _, by rw [heq, List.append_assoc], hfraction, isExponent_write _⟩

theorem isNumber_sixDigitText (negative : Bool) (q : ℚ) : IsNumber (sixDigitText negative q) := by
  obtain ⟨m, -, fraction, exponent, heq, hfraction, hexponent⟩ := magnitude_eq q
  have hsign : IsSign (if negative then ascii "-" else []) := by
    cases negative
    · exact .inl rfl
    · exact .inr rfl
  exact ⟨_, decimal m, fraction, exponent, by rw [sixDigitText, heq], hsign, isInteger_decimal m, hfraction, hexponent⟩

/-- Without a sign the text begins with a digit. -/
theorem head_unsigned (q : ℚ) {d : UInt8} (hd : isDigit d = false) : (sixDigitText false q).head? ≠ some d := by
  obtain ⟨m, -, fraction, exponent, heq, -⟩ := magnitude_eq q
  obtain ⟨c, digits, hdecimal, hc⟩ := (isDigits_decimal m).exists_cons
  have hwrite : sixDigitText false q = c :: (digits ++ (fraction ++ exponent)) := by
    rw [sixDigitText, heq, hdecimal]
    rfl
  rw [hwrite, List.head?_cons, ne_eq, Option.some.injEq]
  rintro rfl
  rw [hd] at hc
  contradiction

/-- The text stands for the rounded number. -/
theorem numberValue_sixDigitText (negative : Bool) {q : ℚ} (hq : 0 ≤ q) :
    numberValue (sixDigitText negative q) = if negative then -sixDigits q else sixDigits q := by
  cases negative with
  | true =>
    have hhead : (sixDigitText true q).head? = some '-'.toUInt8 := rfl
    have htail : (sixDigitText true q).tail = writeMagnitude q := rfl
    rw [numberValue, signed, if_pos hhead, htail, unsignedValue_magnitude hq, if_pos rfl]
  | false =>
    have hwrite : sixDigitText false q = writeMagnitude q := rfl
    rw [numberValue, signed, if_neg (head_unsigned q (by decide)), if_neg (head_unsigned q (by decide)), hwrite,
      unsignedValue_magnitude hq, if_neg Bool.false_ne_true]

/-! ### Whole numbers -/

/-- Digits alone after an optional sign. -/
def isWhole (t : Bytes) : Bool := (if t.head? = some '-'.toUInt8 then t.tail else t).all isDigit

theorem unsignedValue_digits {t : Bytes} (h : ∀ c ∈ t, isDigit c = true) : unsignedValue t = digitsValue t := by
  obtain ⟨htake, hdrop⟩ := takeWhile_digits h (ends_nil _)
  rw [List.append_nil] at htake hdrop
  rw [unsignedValue, htake, hdrop]
  simp [wholeValue, signed, digitsValue]

theorem numberValue_whole {t : Bytes} (h : isWhole t = true) : numberValue t = wholeValue t := by
  unfold isWhole at h
  unfold numberValue wholeValue signed
  split_ifs at h ⊢ with hminus hplus
  · rw [unsignedValue_digits (List.all_eq_true.mp h)]
    simp
  · obtain ⟨tail, rfl⟩ : ∃ tail, t = '+'.toUInt8 :: tail := by
      obtain ⟨tail, htail⟩ := List.head?_eq_some_iff.mp hplus
      exact ⟨tail, htail⟩
    have hdigit := List.all_eq_true.mp h '+'.toUInt8 List.mem_cons_self
    contradiction
  · rw [unsignedValue_digits (List.all_eq_true.mp h)]
    simp

theorem length_decimal_le {n k : ℕ} (hk : 1 ≤ k) (h : n < 10 ^ k) : (decimal n).length ≤ k := by
  by_cases hn : n = 0
  · subst hn
    exact hk
  · rw [decimal_of_pos hn, List.length_map, List.length_reverse]
    exact (Nat.digits_length_le_iff (by decide) n).mpr h

/-- A text without decimals and exponent is short. -/
theorem length_sixDigitText {negative : Bool} {q : ℚ} (h : isWhole (sixDigitText negative q) = true) :
    (sixDigitText negative q).length ≤ 8 := by
  obtain ⟨m, hm, fraction, exponent, heq, hfraction, hexponent⟩ := magnitude_eq q
  have hdigits : ∀ c ∈ writeMagnitude q, isDigit c = true := by
    cases negative with
    | true => exact List.all_eq_true.mp h
    | false =>
      rw [isWhole, if_neg (head_unsigned q (by decide))] at h
      exact List.all_eq_true.mp h
  have hfraction : fraction = [] := hfraction.resolve_right fun ⟨digits, hdot, _⟩ => by
    have hmem : '.'.toUInt8 ∈ writeMagnitude q := by simp [heq, hdot]
    exact absurd (hdigits _ hmem) (by decide)
  have hexponent : exponent = [] := hexponent.resolve_right fun ⟨e, sign, digits, he, hkind, _⟩ => by
    have hmem : e ∈ writeMagnitude q := by simp [heq, he]
    exact absurd (hdigits _ hmem) (by rcases hkind with rfl | rfl <;> decide)
  have hlength := length_decimal_le (by decide : 1 ≤ 7) (lt_of_le_of_lt hm (by norm_num) : m < 10 ^ 7)
  have hsign : (if negative then ascii "-" else []).length ≤ 1 := by cases negative <;> decide
  rw [sixDigitText, heq, hfraction, hexponent, List.length_append, List.append_nil, List.append_nil]
  omega

end Lib.Significant
