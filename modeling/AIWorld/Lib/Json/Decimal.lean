import AIWorld.Lib.Json.Grammar
import Mathlib.Data.Nat.Digits.Lemmas

/-! Numbers written with digits alone, without a leading zero. -/

namespace Lib.Json

variable {t : Bytes} {n : ℕ}

def decimal (n : ℕ) : Bytes :=
  if n = 0 then ascii "0" else (Nat.digits 10 n).reverse.map fun d => (0x30 + d).toUInt8

/-- The number that digits stand for. -/
def digitsValue (t : Bytes) : ℕ := t.foldl (fun n c => n * 10 + (c.toNat - 0x30)) 0

theorem digitsValue_eq (t : Bytes) : digitsValue t = Nat.ofDigits 10 (t.reverse.map fun c => c.toNat - 0x30) := by
  rw [digitsValue, List.foldl_eq_foldr_reverse, Nat.ofDigits_eq_foldr, List.foldr_map]
  congr 1
  funext c n
  simp only [Nat.cast_id]
  omega

theorem isDigit_iff {c : UInt8} : isDigit c = true ↔ 0x30 ≤ c.toNat ∧ c.toNat ≤ 0x39 := by
  simp only [isDigit, Bool.and_eq_true, decide_eq_true_eq, UInt8.le_iff_toNat_le]
  rfl

theorem toNat_digit {d : ℕ} (h : d < 10) : (0x30 + d).toUInt8.toNat = 0x30 + d := by
  rw [Nat.toUInt8_eq, UInt8.toNat_ofNat_of_lt']
  change 0x30 + d < 256
  omega

theorem decimal_of_pos (h : n ≠ 0) : decimal n = (Nat.digits 10 n).reverse.map fun d => (0x30 + d).toUInt8 :=
  if_neg h

theorem isDigits_decimal (n : ℕ) : IsDigits (decimal n) := by
  by_cases hn : n = 0
  · subst hn
    exact ⟨by decide, by decide⟩
  · rw [decimal_of_pos hn]
    refine ⟨by simpa [Nat.digits_eq_nil_iff_eq_zero] using hn, fun c hc => ?_⟩
    obtain ⟨d, hd, rfl⟩ := List.mem_map.mp hc
    have hlt := Nat.digits_lt_base (by decide) (List.mem_reverse.mp hd)
    rw [isDigit_iff, toNat_digit hlt]
    omega

theorem digitsValue_decimal (n : ℕ) : digitsValue (decimal n) = n := by
  by_cases hn : n = 0
  · subst hn
    rfl
  · have hback : ((Nat.digits 10 n).map fun d => ((0x30 + d).toUInt8.toNat - 0x30)) = Nat.digits 10 n := by
      conv_rhs => rw [← List.map_id (Nat.digits 10 n)]
      refine List.map_congr_left fun d hd => ?_
      rw [toNat_digit (Nat.digits_lt_base (by decide) hd), id]
      omega
    rw [digitsValue_eq, decimal_of_pos hn, ← List.map_reverse, List.reverse_reverse, List.map_map]
    exact (congrArg (Nat.ofDigits 10) hback).trans (Nat.ofDigits_digits 10 n)

theorem isInteger_decimal (n : ℕ) : IsInteger (decimal n) := by
  by_cases hn : n = 0
  · subst hn
    exact .inl rfl
  · refine .inr ⟨isDigits_decimal n, fun hhead => ?_⟩
    rw [decimal_of_pos hn, List.head?_map, List.head?_reverse,
      List.getLast?_eq_some_getLast (Nat.digits_ne_nil_iff_ne_zero.mpr hn)] at hhead
    have hlt := Nat.digits_lt_base (show 1 < 10 by decide) (List.getLast_mem (Nat.digits_ne_nil_iff_ne_zero.mpr hn))
    have hzero := congrArg UInt8.toNat (Option.some.inj hhead)
    rw [toNat_digit hlt] at hzero
    exact Nat.getLast_digit_ne_zero 10 hn (Nat.add_left_cancel hzero)

/-- Digits without a leading zero are the decimal form of their number. -/
theorem decimal_digitsValue (h : IsInteger t) : decimal (digitsValue t) = t := by
  rcases h with rfl | ⟨⟨hne, hdigits⟩, hhead⟩
  · rfl
  · have hlast : ∀ h : (t.reverse.map fun c => c.toNat - 0x30) ≠ [],
        (t.reverse.map fun c => c.toNat - 0x30).getLast h ≠ 0 := by
      obtain ⟨c, rest, rfl⟩ := List.exists_cons_of_ne_nil hne
      intro h hzero
      have hc := isDigit_iff.mp (hdigits c List.mem_cons_self)
      simp only [List.reverse_cons, List.map_append, List.map_singleton, List.getLast_concat] at hzero
      refine hhead (congrArg some (UInt8.toNat_inj.mp ?_))
      change c.toNat = 48
      omega
    have hbound : ∀ d ∈ t.reverse.map fun c => c.toNat - 0x30, d < 10 := fun d hd => by
      obtain ⟨c, hc, rfl⟩ := List.mem_map.mp hd
      have := isDigit_iff.mp (hdigits c (List.mem_reverse.mp hc))
      omega
    have hback := Nat.digits_ofDigits 10 (by decide) _ hbound hlast
    rw [← digitsValue_eq] at hback
    have hpos : digitsValue t ≠ 0 := fun hzero => by
      rw [hzero, Nat.digits_zero] at hback
      exact hne (by simpa using hback.symm)
    rw [decimal_of_pos hpos, hback, ← List.map_reverse, List.reverse_reverse, List.map_map]
    conv_rhs => rw [← List.map_id t]
    refine List.map_congr_left fun c hc => ?_
    have hdigit := isDigit_iff.mp (hdigits c hc)
    refine UInt8.toNat_inj.mp ?_
    rw [Function.comp_apply, toNat_digit (by omega), id]
    omega

theorem isNumber_decimal (n : ℕ) : IsNumber (decimal n) :=
  ⟨[], decimal n, [], [], by simp, .inl rfl, isInteger_decimal n, .inl rfl, .inl rfl⟩

/-- A number of digits alone is an integer. -/
theorem IsNumber.isInteger (h : IsNumber t) (hdigits : ∀ c ∈ t, isDigit c = true) : IsInteger t := by
  obtain ⟨sign, integer, fraction, exponent, rfl, hsign, hinteger, hfraction, hexponent⟩ := h
  have hnot {c : UInt8} (hc : isDigit c = false) : c ∉ sign ++ (integer ++ (fraction ++ exponent)) := fun hmem =>
    absurd (hdigits c hmem) (by simp [hc])
  have hsign : sign = [] := hsign.resolve_right fun heq => hnot (c := '-'.toUInt8) (by decide) (by simp [heq, ascii])
  have hfraction : fraction = [] := hfraction.resolve_right fun ⟨digits, heq, _⟩ =>
    hnot (c := '.'.toUInt8) (by decide) (by simp [heq])
  have hexponent : exponent = [] := hexponent.resolve_right fun ⟨e, sign', digits, heq, he, _⟩ =>
    hnot (c := e) (by rcases he with rfl | rfl <;> decide) (by simp [heq])
  simpa [hsign, hfraction, hexponent] using hinteger

end Lib.Json
