import AIWorld.Inference.CursorStrings
import AIWorld.Inference.JsonScan

/-! The strings of an agent's profile. The parser of the profiles decodes a literal as the cursor over
responses does, and leaves the text unchecked: a string is read by the cursor exactly where this parser
reads one of well-formed UTF-8 within the limit. What is left of the text stands for the position. -/

namespace AIWorld.Agent.ProfileParser

open Lib
open Lib.Json (Bytes quote backslash isWhite hexDigit hexNumber hexNumber_lt shortEscape)
open Inference
open Inference.JsonCursor (hex4 hex4_eq_some lowSurrogate unicodeEscape)

/-! ### The parser -/

def whitespace (t : Bytes) : Bytes := t.dropWhile isWhite

def take (expected : UInt8) (t : Bytes) : Option Bytes :=
  match whitespace t with
  | [] => none
  | c :: t => if c ≠ expected then none else some t

def hexScalar : Bytes → Option (ℕ × Bytes)
  | c₁ :: c₂ :: c₃ :: c₄ :: t =>
    ([c₁, c₂, c₃, c₄].foldlM (fun scalar c => (hexDigit c).map fun value => scalar <<< 4 ||| value) 0).map (·, t)
  | _ => none

def appendScalar (out : Bytes) (scalar : ℕ) : Bytes :=
  if scalar ≤ 0x7F then out ++ [scalar.toUInt8]
  else if scalar ≤ 0x7FF then
    out ++ [(0xC0 ||| scalar >>> 6).toUInt8, (0x80 ||| scalar &&& 0x3F).toUInt8]
  else if scalar ≤ 0xFFFF then
    out ++ [(0xE0 ||| scalar >>> 12).toUInt8, (0x80 ||| scalar >>> 6 &&& 0x3F).toUInt8,
      (0x80 ||| scalar &&& 0x3F).toUInt8]
  else
    out ++ [(0xF0 ||| scalar >>> 18).toUInt8, (0x80 ||| scalar >>> 12 &&& 0x3F).toUInt8,
      (0x80 ||| scalar >>> 6 &&& 0x3F).toUInt8, (0x80 ||| scalar &&& 0x3F).toUInt8]

/-- The scalar of a `\u` escape, whose `u` has been read. -/
def unicodeScalar (t : Bytes) : Option (ℕ × Bytes) := do
  let (scalar, t) ← hexScalar t
  if 0xD800 ≤ scalar ∧ scalar ≤ 0xDBFF then
    match t with
    | b :: u :: t =>
      if b ≠ backslash ∨ u ≠ 'u'.toUInt8 then none
      else
        let (low, t) ← hexScalar t
        if low < 0xDC00 ∨ low > 0xDFFF then none
        else some (0x10000 + ((scalar - 0xD800) <<< 10) + low - 0xDC00, t)
    | _ => none
  else if 0xDC00 ≤ scalar ∧ scalar ≤ 0xDFFF then none
  else some (scalar, t)

/-- The loop over a literal, on what is left of it. -/
def stringLoop : ℕ → Bytes → Bytes → Option (Bytes × Bytes)
  | _, [], _ => none
  | 0, _ :: _, _ => none
  | fuel + 1, c :: t, value =>
    if c = quote then some (value, t)
    else if c < 0x20 then none
    else if c ≠ backslash then stringLoop fuel t (value ++ [c])
    else
      match t with
      | [] => none
      | e :: t =>
        match shortEscape e with
        | some d => stringLoop fuel t (value ++ [d])
        | none =>
          if e = 'u'.toUInt8 then
            (unicodeScalar t).bind fun (scalar, t) => stringLoop fuel t (appendScalar value scalar)
          else none

def string (t : Bytes) : Option (Bytes × Bytes) :=
  (take quote t).bind fun t => stringLoop t.length t []

/-! ### The cursor's own steps -/

variable {t : Bytes}

/-- A digit is added as the bits of the number are moved up. -/
theorem scalar_step {c : UInt8} (n : ℕ) :
    (hexDigit c).map (fun value => n <<< 4 ||| value) = (hexDigit c).map (n * 16 + ·) := by
  cases hc : hexDigit c with
  | none => rfl
  | some d => exact congrArg some (shift_or n (hexDigit_lt hc))

theorem hexScalar_eq (t : Bytes) : hexScalar t = hex4 t := by
  match t with
  | [] | [_] | [_, _] | [_, _, _] => rfl
  | c₁ :: c₂ :: c₃ :: c₄ :: t =>
    refine congrArg (Option.map (·, t)) ?_
    simp only [scalar_step, hexNumber, List.foldlM_cons, List.foldlM_nil]
    rcases hexDigit c₁ with - | d₁ <;> rcases hexDigit c₂ with - | d₂ <;> rcases hexDigit c₃ with - | d₃ <;>
      rcases hexDigit c₄ with - | d₄ <;> simp

theorem appendScalar_eq (out : Bytes) {scalar : ℕ} (h : scalar < 0x200000) :
    appendScalar out scalar = out ++ Utf8.encode scalar := by
  unfold appendScalar
  split_ifs with h₁ h₂ h₃
  · rw [Utf8.encode_of_lt (by omega)]
  · rw [Utf8.encode_two_bits (by omega) (by omega)]
  · rw [Utf8.encode_three_bits (by omega) (by omega)]
  · rw [Utf8.encode_four_bits (by omega) h]

theorem hex4_lt {n : ℕ} {rest : Bytes} (h : hex4 t = some (n, rest)) : n < 0x10000 := by
  obtain ⟨c₁, c₂, c₃, c₄, -, hn⟩ := hex4_eq_some.mp h
  exact hexNumber_lt hn

theorem unicodeScalar_lt {n : ℕ} {rest : Bytes} (h : unicodeScalar t = some (n, rest)) : n < 0x200000 := by
  simp only [unicodeScalar, hexScalar_eq, Option.bind_eq_bind, Option.bind_eq_some_iff, Prod.exists] at h
  obtain ⟨scalar, t, hscalar, h⟩ := h
  have hlt := hex4_lt hscalar
  split_ifs at h with hhigh hlow
  · split at h
    · split_ifs at h with hu
      simp only [Option.bind_eq_some_iff, Prod.exists] at h
      obtain ⟨low, t, hlow, h⟩ := h
      have hlow := hex4_lt hlow
      simp only [Option.ite_none_left_eq_some, Option.some.injEq, Prod.mk.injEq, Nat.shiftLeft_eq] at h
      omega
    · contradiction
  · simp only [Option.some.injEq, Prod.mk.injEq] at h
    omega

theorem unicodeScalar_eq (t : Bytes) :
    unicodeEscape t = (unicodeScalar t).map fun (scalar, t) => (Utf8.encode scalar, t) := by
  unfold unicodeEscape unicodeScalar
  rw [hexScalar_eq, Option.bind_eq_bind]
  cases hex4 t with
  | none => rfl
  | some read =>
    obtain ⟨scalar, t⟩ := read
    simp only [Option.bind_some]
    split_ifs with hhigh hlow
    · unfold lowSurrogate
      match t with
      | [] | [_] => simp only [Option.map_none]
      | b :: u :: t =>
        dsimp only
        by_cases hu : b = backslash ∧ u = 'u'.toUInt8
        · rw [if_pos hu, if_neg (by simp [hu]), hexScalar_eq]
          cases hex4 t with
          | none => simp only [Option.bind_none, Option.map_none]
          | some read =>
            obtain ⟨low, t⟩ := read
            simp only [Option.bind_some]
            split_ifs with hlow
            · simp only [Option.map_none]
            · simp only [Option.map_some, Nat.shiftLeft_eq]
        · rw [if_neg hu, if_pos (not_and_or.mp hu)]
          simp only [Option.map_none]
    · simp only [Option.map_none]
    · simp only [Option.map_some]

/-! ### The cursor's strings -/

/-- The check that the cursor makes of a decoded text. -/
def checked (read : Bytes × Bytes) : Bool :=
  validText read.1 npcAgentResponseBodyLimit npcAgentResponseBodyLimit false false

theorem stringLoop_eq (fuel : ℕ) (t value : Bytes) :
    JsonCursor.stringLoop fuel t value = (stringLoop fuel t value).filter checked := by
  fun_induction stringLoop fuel t value with
  | case1 fuel value => rw [JsonCursor.stringLoop, Option.filter_none]
  | case2 => rfl
  | case3 fuel t value =>
    rw [JsonCursor.stringLoop, if_pos rfl]
    rfl
  | case4 fuel c t value hquote hcontrol => rw [JsonCursor.stringLoop, if_neg hquote, if_pos hcontrol]; rfl
  | case5 fuel c t value hquote hcontrol hplain ih =>
    rw [JsonCursor.stringLoop, if_neg hquote, if_neg hcontrol, if_pos hplain, ih]
  | case6 fuel c value hquote hcontrol hescape =>
    rw [JsonCursor.stringLoop, if_neg hquote, if_neg hcontrol, if_neg hescape]
    rfl
  | case7 fuel c value hquote hcontrol hescape e t d hshort ih =>
    rw [JsonCursor.stringLoop, if_neg hquote, if_neg hcontrol, if_neg hescape, ← ih]
    simp only [JsonCursor.escape, hshort, Option.bind_some]
  | case8 fuel c value hquote hcontrol hescape t hshort ih =>
    rw [JsonCursor.stringLoop, if_neg hquote, if_neg hcontrol, if_neg hescape]
    simp only [JsonCursor.escape, hshort, if_true, unicodeScalar_eq]
    cases hread : unicodeScalar t with
    | none => rfl
    | some read =>
      obtain ⟨scalar, t⟩ := read
      rw [Option.map_some, Option.bind_some, Option.bind_some, ← ih, appendScalar_eq _ (unicodeScalar_lt hread)]
  | case9 fuel c value hquote hcontrol hescape e t hshort hu =>
    rw [JsonCursor.stringLoop, if_neg hquote, if_neg hcontrol, if_neg hescape]
    simp only [JsonCursor.escape, hshort, if_neg hu]
    rfl

/-- The cursor reads the strings of this parser that pass its check, and no others. -/
theorem string_eq (t : Bytes) : JsonCursor.string t = (string t).filter checked := by
  have hspace : JsonCursor.space t = whitespace t := rfl
  unfold JsonCursor.string string take
  rw [hspace]
  cases whitespace t with
  | nil => rfl
  | cons c t =>
    by_cases hc : c = quote
    · simp only [hc, if_true, ne_eq, not_true_eq_false, if_false, Option.bind_some, stringLoop_eq]
    · simp only [hc, if_false, ne_eq, not_false_eq_true, if_true, Option.bind_none, Option.filter_none]

theorem string_of_cursor {read : Bytes × Bytes} (h : JsonCursor.string t = some read) : string t = some read := by
  rw [string_eq] at h
  exact (Option.filter_eq_some_iff.mp h).1

end AIWorld.Agent.ProfileParser
