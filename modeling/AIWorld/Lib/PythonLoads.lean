import AIWorld.Lib.Json.Reader
import AIWorld.Lib.Python
import AIWorld.Lib.Significant

/-! What Python loads from a text of JSON: integers where no decimals and no exponent are written, the nearest
doubles of other numbers, and strings of code points. -/

namespace Lib.Python

open Lib.Json (Bytes Field IsText ascii readText)
open Lib.Significant

variable {D α : Type}

/-! ### Strings -/

def scalars : ℕ → Bytes → Option (List ℕ)
  | _, [] => some []
  | 0, _ :: _ => none
  | fuel + 1, b :: t => (Utf8.decode (b :: t)).bind fun (c, rest) => (scalars fuel rest).map (c :: ·)

/-- The scalars of a text in UTF-8. -/
def decodeText (t : Bytes) : Option (List ℕ) := scalars t.length t

theorem scalars_encodeAll {fuel : ℕ} {cs : List ℕ} (hcs : ∀ c ∈ cs, Utf8.IsScalar c) (hfuel : cs.length ≤ fuel) :
    scalars fuel (Utf8.encodeAll cs) = some cs := by
  induction cs generalizing fuel with
  | nil => cases fuel <;> rfl
  | cons c cs ih =>
    obtain ⟨hc, hrest⟩ := List.forall_mem_cons.mp hcs
    obtain ⟨fuel, rfl⟩ : ∃ n, fuel = n + 1 := ⟨fuel - 1, by simp at hfuel; omega⟩
    have hdecode := Utf8.decode_encode hc (Utf8.encodeAll cs)
    obtain ⟨b, t, hbt⟩ := List.exists_cons_of_ne_nil (Utf8.encode_ne_nil c)
    rw [Utf8.encodeAll_cons]
    rw [hbt, List.cons_append] at hdecode ⊢
    rw [scalars, hdecode, Option.bind_some]
    simp only [ih hrest (by simpa using hfuel), Option.map_some]

theorem decodeText_encodeAll {cs : List ℕ} (hcs : ∀ c ∈ cs, Utf8.IsScalar c) :
    decodeText (Utf8.encodeAll cs) = some cs :=
  scalars_encodeAll hcs (Utf8.length_le_encodeAll cs)

def IsAscii (s : String) : Prop := ∀ c ∈ s.toList, c.toNat < 0x80

instance (s : String) : Decidable (IsAscii s) := List.decidableBAll _ s.toList

theorem isScalar_codePoints {s : String} (h : IsAscii s) : ∀ c ∈ codePoints s, Utf8.IsScalar c := by
  intro c hc
  obtain ⟨d, hd, rfl⟩ := List.mem_map.mp hc
  have := h d hd
  exact ⟨by omega, by omega⟩

theorem encodeAll_codePoints {s : String} (h : IsAscii s) : Utf8.encodeAll (codePoints s) = ascii s := by
  unfold IsAscii at h
  unfold codePoints ascii
  generalize s.toList = cs at h ⊢
  induction cs with
  | nil => rfl
  | cons c cs ih =>
    obtain ⟨hc, hrest⟩ := List.forall_mem_cons.mp h
    rw [List.map_cons, List.map_cons, Utf8.encodeAll_cons, Utf8.encode_of_lt hc, ih hrest]
    rfl

theorem decodeText_ascii {s : String} (h : IsAscii s) : decodeText (ascii s) = some (codePoints s) := by
  rw [← encodeAll_codePoints h, decodeText_encodeAll (isScalar_codePoints h)]

theorem codePoints_inj {s s' : String} (h : codePoints s = codePoints s') : s = s' := by
  have hchars : Function.Injective Char.toNat := fun c d hcd => Char.toNat_inj.mp hcd
  exact String.toList_inj.mp (List.map_injective_iff.mpr hchars h)

/-! ### Loading -/

section Load
variable (nearest : ℚ → D)

def numberOf (t : Bytes) : Value D :=
  if isWhole t then .int (wholeValue t) else .float (nearest (numberValue t))

/-- Integers with too many digits are refused. -/
def maxDigits : ℕ := 4300

mutual
def load : Json.Value → Option (Value D)
  | .null => some .none
  | .bool b => some (.bool b)
  | .number t => if isWhole t ∧ maxDigits < t.length then none else some (numberOf nearest t)
  | .string t => (decodeText t).map .str
  | .array items => (loadItems items).map .list
  | .object members => (loadMembers members).map .dict

def loadItems : List Json.Value → Option (List (Value D))
  | [] => some []
  | v :: vs => (load v).bind fun x => (loadItems vs).map (x :: ·)

def loadMembers : List (Bytes × Json.Value) → Option (List (List ℕ × Value D))
  | [] => some []
  | (key, v) :: members =>
    (decodeText key).bind fun name => (load v).bind fun x => (loadMembers members).map ((name, x) :: ·)
end

/-- Texts of the grammar are loaded as the values that they spell, unless they are nested too deeply. -/
def LoadsJson {ε : Type} (encode : ℕ → Bytes) (loads : Bytes → Except ε (Value D)) : Prop :=
  ∀ t v x, IsText encode 100 t v → load nearest v = some x → loads t = .ok x

/-- A loader of the texts of the grammar. -/
def loadText {ε : Type} (encode : ℕ → Bytes) (otherwise : ε) (t : Bytes) : Except ε (Value D) :=
  match (readText encode 100 t).bind (load nearest) with
  | some x => .ok x
  | none => .error otherwise

theorem loadsJson_loadText {ε : Type} (encode : ℕ → Bytes) (otherwise : ε) :
    LoadsJson nearest encode (loadText nearest encode otherwise) := by
  intro t v x ht hx
  rw [loadText, Json.readText_of_isText ht, Option.bind_some, hx]

/-- A dictionary with names for its keys. -/
def record (named : List (String × Value D)) : Value D := .dict (named.map fun m => (codePoints m.1, m.2))

def Loads (field : Field) (m : String × Value D) : Prop :=
  field.key = ascii m.1 ∧ IsAscii m.1 ∧ load nearest field.value = some m.2

variable {nearest}

theorem load_record {fields : List Field} {named : List (String × Value D)}
    (h : List.Forall₂ (Loads nearest) fields named) :
    load nearest (.object (fields.map Field.member)) = some (record named) := by
  have hmembers : loadMembers nearest (fields.map Field.member) = some (named.map fun m => (codePoints m.1, m.2)) := by
    induction h with
    | nil => rw [List.map_nil, loadMembers, List.map_nil]
    | @cons field m fields named hfield _ ih =>
      obtain ⟨hkey, hascii, hload⟩ := hfield
      rw [List.map_cons, Field.member, loadMembers, hkey, decodeText_ascii hascii, Option.bind_some, hload,
        Option.bind_some, ih, Option.map_some, List.map_cons]
  rw [load, hmembers, Option.map_some, record]

theorem load_items {β : Type} {value : β → Json.Value} {loaded : β → Value D} {items : List β}
    (h : ∀ x ∈ items, load nearest (value x) = some (loaded x)) :
    load nearest (.array (items.map value)) = some (.list (items.map loaded)) := by
  have hitems : loadItems nearest (items.map value) = some (items.map loaded) := by
    induction items with
    | nil => rw [List.map_nil, loadItems, List.map_nil]
    | cons x items ih =>
      obtain ⟨hx, hrest⟩ := List.forall_mem_cons.mp h
      rw [List.map_cons, loadItems, hx, Option.bind_some, ih hrest, Option.map_some, List.map_cons]
  rw [load, hitems, Option.map_some]

end Load

/-! ### Fields of a loaded dictionary -/

theorem field_record (named : List (String × Value D)) (name : String) (check : Value D → Option α) :
    field (named.map fun m => (codePoints m.1, m.2)) name check = (named.lookup name).bind check := by
  have hlookup : (named.map fun m => (codePoints m.1, m.2)).lookup (codePoints name) = named.lookup name := by
    induction named with
    | nil => rfl
    | cons m named ih =>
      rw [List.map_cons, List.lookup_cons, ih, List.lookup_cons]
      by_cases hname : name = m.1
      · rw [hname, beq_self_eq_true, beq_self_eq_true]
      · have hne : codePoints name ≠ codePoints m.1 := fun h => hname (codePoints_inj h)
        rw [beq_eq_false_iff_ne.mpr hname, beq_eq_false_iff_ne.mpr hne]
  rw [field, hlookup]

theorem model_record {names : List String} {named : List (String × Value D)} (h : ∀ m ∈ named, m.1 ∈ names) :
    model names (record named) = some (named.map fun m => (codePoints m.1, m.2)) := by
  refine if_pos (List.all_eq_true.mpr fun member hmember => ?_)
  obtain ⟨m, hm, rfl⟩ := List.mem_map.mp hmember
  exact List.contains_iff_mem.mpr (List.mem_map_of_mem (h m hm))

/-! ### Doubles -/

/-- At most fifteen digits, and not at the ends of the range of doubles. -/
def IsShort (q : ℚ) : Prop := ∃ (m : ℕ) (e : ℤ), m < 10 ^ 15 ∧ -300 ≤ e ∧ e ≤ 285 ∧ q = m * 10 ^ e

/-- Doubles as they are read: the nearest ones, so that the order is kept, and short decimals stay apart. -/
structure Doubles (ops : FloatOps D) (nearest : ℚ → D) : Prop where
  isFinite : ∀ q, -10 ^ 6 ≤ q → q ≤ 10 ^ 6 → ops.isFinite (nearest q) = true
  ofInt : ∀ n : ℤ, -10 ^ 6 ≤ n → n ≤ 10 ^ 6 → ops.ofInt n = some (nearest n)
  le_of_le : ∀ q r, q ≤ r → ops.le (nearest q) (nearest r) = true
  lt_iff : ∀ q r, IsShort q → IsShort r → (ops.lt (nearest q) (nearest r) = true ↔ q < r)

/-- A number is the same float whether it is written with decimals or without. -/
theorem strictFloat_numberOf {ops : FloatOps D} {nearest : ℚ → D} (hdoubles : Doubles ops nearest) {t : Bytes}
    (hlow : -10 ^ 6 ≤ numberValue t) (hhigh : numberValue t ≤ 10 ^ 6) (accepts : D → Bool) :
    strictFloat ops accepts (numberOf nearest t) = finite ops accepts (nearest (numberValue t)) := by
  unfold numberOf
  split_ifs with hwhole
  · rw [numberValue_whole hwhole] at hlow hhigh ⊢
    rw [strictFloat, hdoubles.ofInt _ (by exact_mod_cast hlow) (by exact_mod_cast hhigh), Option.bind_some]
  · rfl

end Lib.Python
