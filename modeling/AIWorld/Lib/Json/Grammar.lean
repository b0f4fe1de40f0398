import Mathlib.Data.List.Perm.Basic
import Mathlib.Data.Nat.Digits.Defs
import Mathlib.Tactic.Common

/-! The grammar of JSON texts over bytes. Bytes from 0x80 on stand for themselves inside a string.
How a `\u` escape is decoded is left open, and so is how deep values may be nested. -/

namespace Lib.Json

abbrev Bytes := List UInt8

/-- The bytes of a text are gone through, and not all bytes that there are. -/
instance decidableForallMem (t : Bytes) (p : UInt8 → Prop) [DecidablePred p] : Decidable (∀ c ∈ t, p c) :=
  List.decidableBAll p t

instance lawfulBEqBytes : LawfulBEq Bytes := inferInstance

def ascii (s : String) : Bytes := s.toList.map Char.toUInt8

/-- The text stops here, as far as some kind of byte is concerned. -/
def Ends (p : UInt8 → Bool) (rest : Bytes) : Prop := ∀ c ∈ rest.head?, p c = false

theorem ends_nil (p : UInt8 → Bool) : Ends p [] := by simp [Ends]

theorem ends_cons {p : UInt8 → Bool} {c : UInt8} (h : p c = false) (rest : Bytes) : Ends p (c :: rest) := by
  simpa [Ends] using h

theorem Ends.append {p : UInt8 → Bool} {t rest : Bytes} (ht : t ≠ [] → Ends p t) (hrest : Ends p rest) :
    Ends p (t ++ rest) := by
  cases t with
  | nil => exact hrest
  | cons c t => exact ht (by simp)

/-! ### White space -/

def isWhite (c : UInt8) : Bool := c = 0x20 || c = 0x09 || c = 0x0A || c = 0x0D

def White (t : Bytes) : Prop := ∀ c ∈ t, isWhite c = true

/-! ### Strings -/

def quote : UInt8 := 0x22

def backslash : UInt8 := 0x5C

/-- What a backslash and a letter stand for. -/
def shortEscape (c : UInt8) : Option UInt8 :=
  if c = quote then some quote
  else if c = backslash then some backslash
  else if c = '/'.toUInt8 then some '/'.toUInt8
  else if c = 'b'.toUInt8 then some 0x08
  else if c = 'f'.toUInt8 then some 0x0C
  else if c = 'n'.toUInt8 then some 0x0A
  else if c = 'r'.toUInt8 then some 0x0D
  else if c = 't'.toUInt8 then some 0x09
  else none

def hexDigit (c : UInt8) : Option ℕ :=
  if '0'.toUInt8 ≤ c ∧ c ≤ '9'.toUInt8 then some (c.toNat - '0'.toNat)
  else if 'a'.toUInt8 ≤ c ∧ c ≤ 'f'.toUInt8 then some (c.toNat - 'a'.toNat + 10)
  else if 'A'.toUInt8 ≤ c ∧ c ≤ 'F'.toUInt8 then some (c.toNat - 'A'.toNat + 10)
  else none

def hexNumber (c₁ c₂ c₃ c₄ : UInt8) : Option ℕ := do
  let d₁ ← hexDigit c₁
  let d₂ ← hexDigit c₂
  let d₃ ← hexDigit c₃
  let d₄ ← hexDigit c₄
  some (((d₁ * 16 + d₂) * 16 + d₃) * 16 + d₄)

/-- What stands between the quotes, and what it decodes to. -/
inductive Chars (encode : ℕ → Bytes) : Bytes → Bytes → Prop
  | nil : Chars encode [] []
  | plain {c : UInt8} {t s : Bytes} (hcontrol : 0x20 ≤ c) (hquote : c ≠ quote) (hescape : c ≠ backslash)
      (ht : Chars encode t s) : Chars encode (c :: t) (c :: s)
  | short {c d : UInt8} {t s : Bytes} (hc : shortEscape c = some d) (ht : Chars encode t s) :
      Chars encode (backslash :: c :: t) (d :: s)
  | unicode {c₁ c₂ c₃ c₄ : UInt8} {n : ℕ} {t s : Bytes} (hc : hexNumber c₁ c₂ c₃ c₄ = some n)
      (ht : Chars encode t s) :
      Chars encode (backslash :: 'u'.toUInt8 :: c₁ :: c₂ :: c₃ :: c₄ :: t) (encode n ++ s)

def IsString (encode : ℕ → Bytes) (t s : Bytes) : Prop :=
  ∃ body, t = quote :: (body ++ [quote]) ∧ Chars encode body s

/-! ### Numbers -/

def isDigit (c : UInt8) : Bool := '0'.toUInt8 ≤ c && c ≤ '9'.toUInt8

def IsDigits (t : Bytes) : Prop := t ≠ [] ∧ ∀ c ∈ t, isDigit c = true

def IsSign (t : Bytes) : Prop := t = [] ∨ t = ascii "-"

/-- A zero is the only digit of its number. -/
def IsInteger (t : Bytes) : Prop := t = ascii "0" ∨ IsDigits t ∧ t.head? ≠ some '0'.toUInt8

def IsFraction (t : Bytes) : Prop := t = [] ∨ ∃ digits, t = '.'.toUInt8 :: digits ∧ IsDigits digits

def IsExponent (t : Bytes) : Prop := t = [] ∨ ∃ e sign digits, t = e :: (sign ++ digits) ∧
  (e = 'e'.toUInt8 ∨ e = 'E'.toUInt8) ∧ (sign = [] ∨ sign = ascii "+" ∨ sign = ascii "-") ∧ IsDigits digits

def IsNumber (t : Bytes) : Prop := ∃ sign integer fraction exponent,
  t = sign ++ (integer ++ (fraction ++ exponent)) ∧
    IsSign sign ∧ IsInteger integer ∧ IsFraction fraction ∧ IsExponent exponent

/-- A byte with which a number could go on. -/
def isNumberByte (c : UInt8) : Bool := isDigit c || c = '.'.toUInt8 || c = 'e'.toUInt8 || c = 'E'.toUInt8

section Number
variable {t rest : Bytes}

theorem ends_isDigit (h : Ends isNumberByte rest) : Ends isDigit rest := fun c hc => by
  have hnot := h c hc
  simp only [isNumberByte, Bool.or_eq_false_iff] at hnot
  exact hnot.1.1.1

theorem IsDigits.exists_cons (h : IsDigits t) : ∃ c digits, t = c :: digits ∧ isDigit c = true := by
  obtain ⟨c, digits, rfl⟩ := List.exists_cons_of_ne_nil h.1
  exact ⟨c, digits, rfl, h.2 c List.mem_cons_self⟩

theorem IsInteger.exists_cons (h : IsInteger t) : ∃ c digits, t = c :: digits ∧ isDigit c = true := by
  rcases h with rfl | ⟨hdigits, -⟩
  · exact ⟨'0'.toUInt8, [], rfl, by decide⟩
  · exact hdigits.exists_cons

theorem IsNumber.exists_cons (h : IsNumber t) :
    ∃ c tail, t = c :: tail ∧ (c = '-'.toUInt8 ∨ isDigit c = true) := by
  obtain ⟨sign, integer, fraction, exponent, rfl, hsign, hinteger, -⟩ := h
  obtain ⟨c, digits, rfl, hc⟩ := hinteger.exists_cons
  rcases hsign with rfl | rfl
  · exact ⟨c, _, rfl, .inr hc⟩
  · exact ⟨'-'.toUInt8, _, rfl, .inl rfl⟩

theorem IsFraction.ends (h : IsFraction t) (hrest : Ends isDigit rest) : Ends isDigit (t ++ rest) := by
  rcases h with rfl | ⟨digits, rfl, -⟩
  · exact hrest
  · exact ends_cons (by decide) _

theorem IsExponent.ends (h : IsExponent t) (hrest : Ends isNumberByte rest) :
    Ends isDigit (t ++ rest) ∧ (t ++ rest).head? ≠ some '.'.toUInt8 := by
  rcases h with rfl | ⟨e, sign, digits, rfl, he, -⟩
  · exact ⟨ends_isDigit hrest, fun hdot => absurd (hrest _ hdot) (by decide)⟩
  · have hdigit : isDigit e = false := by rcases he with rfl | rfl <;> decide
    have hdot : e ≠ '.'.toUInt8 := by rcases he with rfl | rfl <;> decide
    exact ⟨ends_cons hdigit _, fun heq => hdot (Option.some.inj heq)⟩

end Number

/-! ### Values -/

inductive Value where
  | null
  | bool (b : Bool)
  | number (text : Bytes)
  | string (text : Bytes)
  | array (items : List Value)
  | object (members : List (Bytes × Value))

/-- Elements with commas between them, and white space after each element and each comma. -/
inductive Separated {α : Type*} (E : Bytes → α → Prop) : Bytes → List α → Prop
  | last {t ws : Bytes} {x : α} (ht : E t x) (hws : White ws) : Separated E (t ++ ws) [x]
  | cons {t ws ws' rest : Bytes} {x : α} {xs : List α} (ht : E t x) (hws : White ws) (hws' : White ws')
      (hrest : Separated E rest xs) : Separated E (t ++ (ws ++ ','.toUInt8 :: (ws' ++ rest))) (x :: xs)

theorem Separated.length_le {α : Type*} {E : Bytes → α → Prop} (hE : ∀ t x, E t x → t ≠ []) {t : Bytes}
    {xs : List α} (h : Separated E t xs) : xs.length ≤ t.length := by
  induction h with
  | last ht hws =>
    have := List.length_pos_of_ne_nil (hE _ _ ht)
    simp only [List.length_append, List.length_singleton]
    omega
  | cons ht _ _ _ ih =>
    simp only [List.length_append, List.length_cons]
    omega

/-- Elements between brackets. -/
def Bracketed {α : Type*} (E : Bytes → α → Prop) (first last : UInt8) (t : Bytes) (xs : List α) : Prop :=
  ∃ ws body, White ws ∧ t = first :: (ws ++ (body ++ [last])) ∧ (xs = [] ∧ body = [] ∨ Separated E body xs)

def IsMember (encode : ℕ → Bytes) (V : Bytes → Value → Prop) (t : Bytes) (m : Bytes × Value) : Prop :=
  ∃ key ws ws' value, t = key ++ (ws ++ ':'.toUInt8 :: (ws' ++ value)) ∧
    IsString encode key m.1 ∧ White ws ∧ White ws' ∧ V value m.2

/-- A text of a value with no more than some number of levels, where no two members of an
object have the same key. -/
def Spells (encode : ℕ → Bytes) : ℕ → Bytes → Value → Prop
  | 0, _, _ => False
  | levels + 1, t, v =>
    match v with
    | .null => t = ascii "null"
    | .bool b => t = if b then ascii "true" else ascii "false"
    | .number text => t = text ∧ IsNumber text
    | .string text => IsString encode t text
    | .array items => Bracketed (Spells encode levels) '['.toUInt8 ']'.toUInt8 t items
    | .object members =>
      Bracketed (IsMember encode (Spells encode levels)) 0x7B 0x7D t members ∧ (members.map Prod.fst).Nodup

theorem IsString.exists_cons {encode : ℕ → Bytes} {t s : Bytes} (h : IsString encode t s) :
    ∃ rest, t = quote :: rest := by
  obtain ⟨body, rfl, -⟩ := h
  exact ⟨_, rfl⟩

theorem isWhite_of_isDigit {c : UInt8} (h : isDigit c = true) : isWhite c = false := by
  by_contra hwhite
  rw [Bool.not_eq_false] at hwhite
  simp only [isWhite, Bool.or_eq_true, decide_eq_true_eq] at hwhite
  rcases hwhite with ((rfl | rfl) | rfl) | rfl <;> contradiction

/-- What a text of a value begins with. -/
def Value.Begins : Value → UInt8 → Prop
  | .null, c => c = 'n'.toUInt8
  | .bool b, c => c = if b then 't'.toUInt8 else 'f'.toUInt8
  | .number _, c => c = '-'.toUInt8 ∨ isDigit c = true
  | .string _, c => c = quote
  | .array _, c => c = '['.toUInt8
  | .object _, c => c = 0x7B

theorem Spells.exists_cons {encode : ℕ → Bytes} {levels : ℕ} {t : Bytes} {v : Value} (h : Spells encode levels t v) :
    ∃ c rest, t = c :: rest ∧ v.Begins c := by
  cases levels with
  | zero => contradiction
  | succ levels =>
    cases v with
    | null => exact ⟨'n'.toUInt8, _, h, rfl⟩
    | bool b =>
      cases b with
      | false => exact ⟨'f'.toUInt8, _, h, rfl⟩
      | true => exact ⟨'t'.toUInt8, _, h, rfl⟩
    | number text =>
      obtain ⟨rfl, hnumber⟩ := h
      exact hnumber.exists_cons
    | string text =>
      obtain ⟨rest, rfl⟩ := IsString.exists_cons h
      exact ⟨quote, rest, rfl, rfl⟩
    | array items =>
      obtain ⟨ws, body, -, rfl, -⟩ := h
      exact ⟨_, _, rfl, rfl⟩
    | object members =>
      obtain ⟨⟨ws, body, -, rfl, -⟩, -⟩ := h
      exact ⟨_, _, rfl, rfl⟩

/-- No value begins with white space or with the end of an array. -/
theorem Value.Begins.other {v : Value} {c : UInt8} (h : v.Begins c) : isWhite c = false ∧ c ≠ ']'.toUInt8 := by
  cases v with
  | number text =>
    rcases h with rfl | hc
    · exact ⟨by decide, by decide⟩
    · refine ⟨isWhite_of_isDigit hc, ?_⟩
      rintro rfl
      contradiction
  | bool b =>
    subst h
    cases b <;> exact ⟨by decide, by decide⟩
  | null | string text | array items | object members =>
    subst h
    exact ⟨by decide, by decide⟩

/-- A value alone, with white space around it. -/
def IsText (encode : ℕ → Bytes) (levels : ℕ) (t : Bytes) (v : Value) : Prop :=
  ∃ ws value ws', t = ws ++ (value ++ ws') ∧ White ws ∧ White ws' ∧ Spells encode levels value v

/-! ### Order of members -/

/-- The same value with the members of its objects in some other order. -/
inductive Reordered : Value → Value → Prop
  | refl (v : Value) : Reordered v v
  | perm {members members' : List (Bytes × Value)} (h : members.Perm members') :
      Reordered (.object members) (.object members')
  | member (before : List (Bytes × Value)) (key : Bytes) {v v' : Value} (after : List (Bytes × Value))
      (h : Reordered v v') : Reordered (.object (before ++ (key, v) :: after)) (.object (before ++ (key, v') :: after))
  | item (before : List Value) {v v' : Value} (after : List Value) (h : Reordered v v') :
      Reordered (.array (before ++ v :: after)) (.array (before ++ v' :: after))
  | trans {v v' v'' : Value} (h : Reordered v v') (h' : Reordered v' v'') : Reordered v v''

theorem Reordered.symm {v v' : Value} (h : Reordered v v') : Reordered v' v := by
  induction h with
  | refl v => exact .refl v
  | perm h => exact .perm h.symm
  | member before key after _ ih => exact .member before key after ih
  | item before after _ ih => exact .item before after ih
  | trans _ _ ih ih' => exact .trans ih' ih

/-- What is put in another order stays an object, an array, or the same. -/
theorem Reordered.scalar {v v' : Value} (h : Reordered v v') (hobject : ∀ members, v ≠ .object members)
    (harray : ∀ items, v ≠ .array items) : v' = v := by
  induction h with
  | refl v => rfl
  | perm | member => exact absurd rfl (hobject _)
  | item => exact absurd rfl (harray _)
  | trans _ _ ih ih' =>
    have heq := ih hobject harray
    subst heq
    exact ih' hobject harray

/-- An object in another order has, for each of its members, one with the same key. -/
theorem Reordered.object {members : List (Bytes × Value)} {v' : Value} (h : Reordered (.object members) v') :
    ∃ members', v' = .object members' ∧ (members'.map Prod.fst).Perm (members.map Prod.fst) ∧
      ∀ key v, (key, v) ∈ members → ∃ w, (key, w) ∈ members' ∧ Reordered v w := by
  generalize hv : Value.object members = v at h
  induction h generalizing members with
  | refl v => exact ⟨members, hv.symm, .refl _, fun key v hmem => ⟨v, hmem, .refl v⟩⟩
  | @perm ms ms' hperm =>
    cases hv
    exact ⟨ms', rfl, (hperm.map Prod.fst).symm, fun key v hmem => ⟨v, hperm.subset hmem, .refl v⟩⟩
  | @member before key v v' after hv' _ =>
    cases hv
    refine ⟨_, rfl, by simp, fun key' w hmem => ?_⟩
    rcases List.mem_append.mp hmem with hmem | hmem
    · exact ⟨w, List.mem_append_left _ hmem, .refl w⟩
    · rcases List.mem_cons.mp hmem with heq | hmem
      · cases heq
        exact ⟨v', List.mem_append_right _ List.mem_cons_self, hv'⟩
      · exact ⟨w, List.mem_append_right _ (List.mem_cons_of_mem _ hmem), .refl w⟩
  | item => contradiction
  | trans _ _ ih ih' =>
    obtain ⟨ms, rfl, hkeys, hms⟩ := ih hv
    obtain ⟨ms', rfl, hkeys', hms'⟩ := ih' rfl
    refine ⟨ms', rfl, hkeys'.trans hkeys, fun key v hmem => ?_⟩
    obtain ⟨w, hw, hvw⟩ := hms key v hmem
    obtain ⟨u, hu, hwu⟩ := hms' key w hw
    exact ⟨u, hu, hvw.trans hwu⟩

end Lib.Json
