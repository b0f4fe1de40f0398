import AIWorld.Lib.Json.Render
import AIWorld.Lib.Utf8

/-! Values as a JSON reader of Python makes them, the strict checks of a model's fields, and strings as they are
dumped. A string is a list of code points, an integer has no bound, and floats are known by their operations
only. What a check lets through carries the proof of it. -/

namespace Lib.Python

open Lib.Json (Bytes Chars IsString ascii quote backslash hexNumber)

/-- Double precision, as far as checks use it. An integer may be too large for it. -/
structure FloatOps (D : Type) where
  ofInt : ℤ → Option D
  isFinite : D → Bool
  zero : D
  one : D
  le : D → D → Bool
  lt : D → D → Bool

inductive Value (D : Type)
  | none
  | bool (b : Bool)
  | int (n : ℤ)
  | float (d : D)
  | str (text : List ℕ)
  | list (items : List (Value D))
  | dict (members : List (List ℕ × Value D))

def codePoints (s : String) : List ℕ := s.toList.map Char.toNat

/-! ### What checks let through -/

abbrev Ranged (low high : ℕ) := {n : ℕ // low ≤ n ∧ n ≤ high}

abbrev Text (least most : ℕ) :=
  {text : List ℕ // (∀ c ∈ text, Utf8.IsScalar c) ∧ least ≤ text.length ∧ text.length ≤ most}

abbrev Finite {D : Type} (ops : FloatOps D) (accepts : D → Bool) :=
  {d : D // ops.isFinite d = true ∧ accepts d = true}

section Checks
variable {D α : Type}

/-- A boolean is no integer, and neither is a float. -/
def strictInt (low high : ℕ) : Value D → Option (Ranged low high)
  | .int n => if h : low ≤ n.toNat ∧ n.toNat ≤ high ∧ 0 ≤ n then some ⟨n.toNat, h.1, h.2.1⟩ else none
  | _ => none

def finite (ops : FloatOps D) (accepts : D → Bool) (d : D) : Option (Finite ops accepts) :=
  if h : ops.isFinite d = true ∧ accepts d = true then some ⟨d, h⟩ else none

/-- An integer is also a float. -/
def strictFloat (ops : FloatOps D) (accepts : D → Bool) : Value D → Option (Finite ops accepts)
  | .float d => finite ops accepts d
  | .int n => (ops.ofInt n).bind (finite ops accepts)
  | _ => none

def strictBool : Value D → Option Bool
  | .bool b => some b
  | _ => none

/-- A string without surrogates; its length counts code points. -/
def strictText (least most : ℕ) : Value D → Option (Text least most)
  | .str text =>
    if h : (∀ c ∈ text, Utf8.IsScalar c) ∧ least ≤ text.length ∧ text.length ≤ most then some ⟨text, h⟩ else none
  | _ => none

/-- One of some names. -/
def oneOf (choices : List (String × α)) : Value D → Option α
  | .str text => (choices.find? fun choice => codePoints choice.1 = text).map Prod.snd
  | _ => none

def listOf (least most : ℕ) (check : Value D → Option α) : Value D → Option (List α)
  | .list items => if least ≤ items.length ∧ items.length ≤ most then items.mapM check else none
  | _ => none

def optional (check : Value D → Option α) : Value D → Option (Option α)
  | .none => some none
  | v => (check v).map some

/-- The members of an object that has no other names. -/
def model (names : List String) : Value D → Option (List (List ℕ × Value D))
  | .dict members => if members.all fun member => (names.map codePoints).contains member.1 then some members else none
  | _ => none

def field (members : List (List ℕ × Value D)) (name : String) (check : Value D → Option α) : Option α :=
  (members.lookup (codePoints name)).bind check

/-- A field with a default. -/
def fieldOr (members : List (List ℕ × Value D)) (name : String) (default : α) (check : Value D → Option α) : Option α :=
  match members.lookup (codePoints name) with
  | none => some default
  | some v => check v

theorem dict_of_model {names : List String} {v : Value D} {members : List (List ℕ × Value D)}
    (h : model names v = some members) : v = .dict members := by
  cases v with
  | dict members' =>
    rw [model, Option.ite_none_right_eq_some, Option.some.injEq] at h
    rw [h.2]
  | none | bool | int | float | str | list => contradiction

theorem int_of_strictInt {low high : ℕ} {v : Value D} {ranged : Ranged low high}
    (h : strictInt low high v = some ranged) : ∃ n, v = .int n ∧ (ranged.1 : ℤ) = n := by
  cases v with
  | int n =>
    rw [strictInt, Option.dite_none_right_eq_some] at h
    obtain ⟨⟨_, _, hnonneg⟩, h⟩ := h
    cases h
    exact ⟨n, rfl, Int.toNat_of_nonneg hnonneg⟩
  | none | bool | float | str | list | dict => contradiction

end Checks

/-! ### Strings as they are dumped -/

def hexChar (d : ℕ) : UInt8 := if d < 10 then (0x30 + d).toUInt8 else (0x61 + (d - 10)).toUInt8

/-- Only controls, quotes and backslashes are escaped. -/
def escape (c : ℕ) : Bytes :=
  if c = 0x22 then [backslash, quote]
  else if c = 0x5C then [backslash, backslash]
  else if c = 0x08 then [backslash, 'b'.toUInt8]
  else if c = 0x0C then [backslash, 'f'.toUInt8]
  else if c = 0x0A then [backslash, 'n'.toUInt8]
  else if c = 0x0D then [backslash, 'r'.toUInt8]
  else if c = 0x09 then [backslash, 't'.toUInt8]
  else if c < 0x20 then backslash :: (ascii "u00" ++ [hexChar (c / 16), hexChar (c % 16)])
  else Utf8.encode c

def dumps (text : List ℕ) : Bytes := quote :: (text.flatMap escape ++ [quote])

section Dumps
variable {encode : ℕ → Bytes} (hencode : ∀ n < 0x20, encode n = [n.toUInt8])

theorem hexNumber_control {n : ℕ} (h : n < 0x20) :
    hexNumber '0'.toUInt8 '0'.toUInt8 (hexChar (n / 16)) (hexChar (n % 16)) = some n := by
  revert n
  decide

/-- Bytes that stand for themselves in a string. -/
theorem chars_append {t t' s s' : Bytes} (ht : ∀ c ∈ t, Lib.Json.IsPlain c) (h : Chars encode t' s') (hs : s = t) :
    Chars encode (t ++ t') (s ++ s') := by
  subst hs
  induction s with
  | nil => exact h
  | cons c s ih =>
    obtain ⟨⟨hcontrol, hquote, hescape⟩, hrest⟩ := List.forall_mem_cons.mp ht
    exact .plain hcontrol hquote hescape (ih hrest)

include hencode

theorem chars_escape {c : ℕ} (hc : Utf8.IsScalar c) {t s : Bytes} (h : Chars encode t s) :
    Chars encode (escape c ++ t) (Utf8.encode c ++ s) := by
  unfold escape
  split_ifs with hquote hbackslash hb hf hn hr ht hcontrol
  · subst hquote
    exact .short (by decide) h
  · subst hbackslash
    exact .short (by decide) h
  · subst hb
    exact .short (by decide) h
  · subst hf
    exact .short (by decide) h
  · subst hn
    exact .short (by decide) h
  · subst hr
    exact .short (by decide) h
  · subst ht
    exact .short (by decide) h
  · have hunicode : Chars encode _ _ := .unicode (hexNumber_control hcontrol) h
    rw [hencode c hcontrol, ← Utf8.encode_of_lt (by omega)] at hunicode
    exact hunicode
  · refine chars_append (fun b hb => ?_) h rfl
    obtain ⟨hlt, hsame⟩ | ⟨-, hlarge⟩ := Utf8.mem_encode hc hb
    · refine ⟨UInt8.le_iff_toNat_le.mpr ?_, fun heq => ?_, fun heq => ?_⟩
      · change 32 ≤ b.toNat
        omega
      · subst heq
        exact hquote hsame.symm
      · subst heq
        exact hbackslash hsame.symm
    · refine ⟨UInt8.le_iff_toNat_le.mpr ?_, fun heq => ?_, fun heq => ?_⟩
      · change 32 ≤ b.toNat
        omega
      · subst heq
        exact absurd hlarge (by decide)
      · subst heq
        exact absurd hlarge (by decide)

/-- What is dumped is a string of the grammar, and stands for the text in UTF-8. -/
theorem isString_dumps {text : List ℕ} (htext : ∀ c ∈ text, Utf8.IsScalar c) :
    IsString encode (dumps text) (Utf8.encodeAll text) := by
  refine ⟨_, rfl, ?_⟩
  induction text with
  | nil => exact .nil
  | cons c text ih =>
    obtain ⟨hc, hrest⟩ := List.forall_mem_cons.mp htext
    exact chars_escape hencode hc (ih hrest)

end Dumps

end Lib.Python
