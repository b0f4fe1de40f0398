import AIWorld.Lib.Json.Grammar

/-! Texts written without white space. -/

namespace Lib.Json

variable {α : Type*} {encode : ℕ → Bytes} {levels : ℕ}

/-- Texts with commas between them. -/
def joined (write : α → Bytes) : List α → Bytes
  | [] => []
  | [x] => write x
  | x :: y :: rest => write x ++ ','.toUInt8 :: joined write (y :: rest)

theorem white_nil : White [] := by simp [White]

theorem separated_joined {β : Type*} {E : Bytes → β → Prop} {write : α → Bytes} {value : α → β} {xs : List α}
    (h : ∀ x ∈ xs, E (write x) (value x)) (hne : xs ≠ []) : Separated E (joined write xs) (xs.map value) := by
  induction xs with
  | nil => contradiction
  | cons x xs ih =>
    have hx := h x List.mem_cons_self
    cases xs with
    | nil => simpa [joined] using Separated.last hx white_nil
    | cons y rest =>
      have hrest := ih (fun z hz => h z (List.mem_cons_of_mem _ hz)) (List.cons_ne_nil y rest)
      exact Separated.cons hx white_nil white_nil hrest

theorem bracketed_joined {β : Type*} {E : Bytes → β → Prop} {write : α → Bytes} {value : α → β} {xs : List α}
    (first last : UInt8) (h : ∀ x ∈ xs, E (write x) (value x)) :
    Bracketed E first last (first :: (joined write xs ++ [last])) (xs.map value) := by
  refine ⟨[], joined write xs, white_nil, rfl, ?_⟩
  by_cases hne : xs = []
  · subst hne
    exact .inl ⟨rfl, rfl⟩
  · exact .inr (separated_joined h hne)

/-- A byte that is written as it is. -/
def IsPlain (c : UInt8) : Prop := 0x20 ≤ c ∧ c ≠ quote ∧ c ≠ backslash

instance (c : UInt8) : Decidable (IsPlain c) := inferInstanceAs (Decidable (_ ∧ _ ∧ _))

theorem chars_plain {t : Bytes} (h : ∀ c ∈ t, IsPlain c) : Chars encode t t := by
  induction t with
  | nil => exact .nil
  | cons c t ih =>
    obtain ⟨⟨hcontrol, hquote, hescape⟩, ht⟩ := List.forall_mem_cons.mp h
    exact .plain hcontrol hquote hescape (ih ht)

theorem isString_plain {t : Bytes} (h : ∀ c ∈ t, IsPlain c) : IsString encode (quote :: (t ++ [quote])) t :=
  ⟨t, rfl, chars_plain h⟩

/-- A member of an object: its key, the text of its value and the value. -/
structure Field where
  key : Bytes
  text : Bytes
  value : Value

def Field.write (field : Field) : Bytes := quote :: (field.key ++ quote :: ':'.toUInt8 :: field.text)

def Field.member (field : Field) : Bytes × Value := (field.key, field.value)

def writeObject (fields : List Field) : Bytes := 0x7B :: (joined Field.write fields ++ [0x7D])

def writeArray (write : α → Bytes) (items : List α) : Bytes :=
  '['.toUInt8 :: (joined write items ++ [']'.toUInt8])

theorem spells_writeObject {fields : List Field} (hkeys : (fields.map Field.key).Nodup)
    (hplain : ∀ field ∈ fields, ∀ c ∈ field.key, IsPlain c)
    (hvalues : ∀ field ∈ fields, Spells encode levels field.text field.value) :
    Spells encode (levels + 1) (writeObject fields) (.object (fields.map Field.member)) := by
  refine ⟨bracketed_joined _ _ fun field hfield => ?_, by rwa [List.map_map]⟩
  refine ⟨quote :: (field.key ++ [quote]), [], [], field.text, ?_, isString_plain (hplain field hfield), white_nil,
    white_nil, hvalues field hfield⟩
  simp [Field.write]

theorem spells_writeArray {write : α → Bytes} {value : α → Value} {items : List α}
    (h : ∀ x ∈ items, Spells encode levels (write x) (value x)) :
    Spells encode (levels + 1) (writeArray write items) (.array (items.map value)) :=
  bracketed_joined _ _ h

end Lib.Json
