import AIWorld.Lib.Json.Render

/-! The text of an object, taken apart: the members as they are written, with the white space around them. Every
text of the grammar that is an object has such a layout, and a layout knows where the value of a member stands. -/

namespace Lib.Json

variable {encode : ℕ → Bytes} {levels : ℕ} {t : Bytes} {ms : List (Bytes × Value)}

instance (t : Bytes) : Decidable (White t) := inferInstanceAs (Decidable (∀ _ ∈ _, _))

/-- A member as it is written: the texts of its key and its value, white space, and what they stand for. -/
structure MemberText where
  before : Bytes
  key : Bytes
  middle : Bytes
  inner : Bytes
  value : Bytes
  after : Bytes
  name : Bytes
  v : Value

def MemberText.text (m : MemberText) : Bytes :=
  m.before ++ (m.key ++ (m.middle ++ ':'.toUInt8 :: (m.inner ++ (m.value ++ m.after))))

structure MemberText.Written (encode : ℕ → Bytes) (levels : ℕ) (m : MemberText) : Prop where
  before : White m.before
  middle : White m.middle
  inner : White m.inner
  after : White m.after
  key : IsString encode m.key m.name
  value : Spells encode levels m.value m.v

/-- The members of an object, between white space; an empty object may hold white space alone. -/
structure Layout where
  lead : Bytes
  blank : Bytes
  parts : List MemberText
  trail : Bytes

namespace Layout

def text (l : Layout) : Bytes :=
  l.lead ++ 0x7B :: ((if l.parts = [] then l.blank else joined MemberText.text l.parts) ++ 0x7D :: l.trail)

def members (l : Layout) : List (Bytes × Value) := l.parts.map fun m => (m.name, m.v)

def Written (encode : ℕ → Bytes) (levels : ℕ) (l : Layout) : Prop := ∀ m ∈ l.parts, m.Written encode levels

/-- What stands after a member. -/
def following (closing : Bytes) (rest : List MemberText) : Bytes :=
  if rest = [] then closing else ','.toUInt8 :: (joined MemberText.text rest ++ closing)

def placeIn (name closing : Bytes) : List MemberText → Option Bytes
  | [] => none
  | m :: rest =>
    if m.name = name then some (m.inner ++ (m.value ++ (m.after ++ following closing rest)))
    else placeIn name closing rest

/-- What stands after the colon of the member with some name. -/
def place (l : Layout) (name : Bytes) : Option Bytes := placeIn name (0x7D :: l.trail) l.parts

end Layout

/-! ### Every object has a layout -/

theorem exists_parts {xs : List (Bytes × Value)} (h : Separated (IsMember encode (Spells encode levels)) t xs)
    {before : Bytes} (hbefore : White before) : ∃ parts : List MemberText, parts ≠ [] ∧
      joined MemberText.text parts = before ++ t ∧ parts.map (fun m => (m.name, m.v)) = xs ∧
      ∀ m ∈ parts, m.Written encode levels := by
  induction h generalizing before with
  | @last t ws x ht hws =>
    obtain ⟨key, middle, inner, value, rfl, hkey, hmiddle, hinner, hvalue⟩ := ht
    refine ⟨[⟨before, key, middle, inner, value, ws, x.1, x.2⟩], by simp, ?_, by simp, ?_⟩
    · simp [joined, MemberText.text]
    · exact List.forall_mem_singleton.mpr ⟨hbefore, hmiddle, hinner, hws, hkey, hvalue⟩
  | @cons t ws ws' rest x xs ht hws hws' _ ih =>
    obtain ⟨key, middle, inner, value, rfl, hkey, hmiddle, hinner, hvalue⟩ := ht
    obtain ⟨parts, hne, htext, hmembers, hwritten⟩ := ih hws'
    refine ⟨⟨before, key, middle, inner, value, ws, x.1, x.2⟩ :: parts, by simp, ?_, by simp [hmembers], ?_⟩
    · obtain ⟨m, parts, rfl⟩ := List.exists_cons_of_ne_nil hne
      rw [joined, htext]
      simp [MemberText.text]
    · exact List.forall_mem_cons.mpr ⟨⟨hbefore, hmiddle, hinner, hws, hkey, hvalue⟩, hwritten⟩

theorem exists_layout_spells (h : Spells encode (levels + 1) t (.object ms)) :
    ∃ l : Layout, l.text = t ∧ l.members = ms ∧ l.Written encode levels ∧ l.lead = [] ∧ l.trail = [] := by
  obtain ⟨⟨ws, body, hws, rfl, hbody⟩, -⟩ := h
  rcases hbody with ⟨rfl, rfl⟩ | hbody
  · exact ⟨⟨[], ws, [], []⟩, by simp [Layout.text], rfl, by simp [Layout.Written], rfl, rfl⟩
  · obtain ⟨parts, hne, htext, hmembers, hwritten⟩ := exists_parts hbody hws
    refine ⟨⟨[], [], parts, []⟩, ?_, hmembers, hwritten, rfl, rfl⟩
    rw [Layout.text, if_neg hne, htext]
    simp

theorem exists_layout (h : IsText encode (levels + 1) t (.object ms)) :
    ∃ l : Layout, l.text = t ∧ l.members = ms ∧ l.Written encode levels := by
  obtain ⟨ws, value, ws', rfl, -, -, hvalue⟩ := h
  obtain ⟨l, rfl, hmembers, hwritten, hlead, htrail⟩ := exists_layout_spells hvalue
  refine ⟨{ l with lead := ws, trail := ws' }, ?_, hmembers, hwritten⟩
  simp [Layout.text, hlead, htrail]

/-! ### Places -/

theorem ends_following {p : UInt8 → Bool} (hcomma : p ','.toUInt8 = false) (hbrace : p 0x7D = false) (trail : Bytes)
    (rest : List MemberText) : Ends p (Layout.following (0x7D :: trail) rest) := by
  unfold Layout.following
  split_ifs
  · exact ends_cons hbrace _
  · exact ends_cons hcomma _

theorem exists_placeIn {parts : List MemberText} {name closing : Bytes} {v : Value}
    (hnodup : (parts.map MemberText.name).Nodup) (hmem : (name, v) ∈ parts.map fun m => (m.name, m.v)) :
    ∃ m ∈ parts, m.name = name ∧ m.v = v ∧ ∃ rest, Layout.placeIn name closing parts =
      some (m.inner ++ (m.value ++ (m.after ++ Layout.following closing rest))) := by
  induction parts with
  | nil => contradiction
  | cons m parts ih =>
    rw [List.map_cons, List.nodup_cons] at hnodup
    rw [Layout.placeIn]
    rcases List.mem_cons.mp hmem with heq | hmem
    · cases heq
      exact ⟨m, List.mem_cons_self, rfl, rfl, parts, if_pos rfl⟩
    · have hne : m.name ≠ name := by
        rintro rfl
        obtain ⟨m', hm', heq⟩ := List.mem_map.mp hmem
        exact hnodup.1 (List.mem_map.mpr ⟨m', hm', (Prod.mk.inj heq).1⟩)
      obtain ⟨m', hm', h⟩ := ih hnodup.2 hmem
      rw [if_neg hne]
      exact ⟨m', List.mem_cons_of_mem _ hm', h⟩

theorem placeIn_none {parts : List MemberText} {name closing : Bytes} (h : name ∉ parts.map MemberText.name) :
    Layout.placeIn name closing parts = none := by
  induction parts with
  | nil => rfl
  | cons m parts ih =>
    rw [List.map_cons, List.mem_cons, not_or] at h
    rw [Layout.placeIn, if_neg (Ne.symm h.1), ih h.2]

namespace Layout
variable {l : Layout} {name : Bytes}

theorem names_eq (l : Layout) : l.members.map Prod.fst = l.parts.map MemberText.name := by
  rw [members, List.map_map]
  rfl

/-- The value of a member stands after its colon, and no number goes on behind it. -/
theorem place_of_mem (hwritten : l.Written encode levels) (hnodup : (l.members.map Prod.fst).Nodup) {v : Value}
    (hmem : (name, v) ∈ l.members) : ∃ m ∈ l.parts, m.name = name ∧ m.v = v ∧ ∃ rest,
      l.place name = some (m.inner ++ (m.value ++ rest)) ∧ Ends isNumberByte rest := by
  rw [names_eq] at hnodup
  obtain ⟨m, hm, hname, hv, rest, hplace⟩ := exists_placeIn hnodup hmem
  refine ⟨m, hm, hname, hv, _, hplace, Ends.append (fun _ c hc => ?_) (ends_following (by decide) (by decide) _ _)⟩
  have hwhite := (hwritten m hm).after c (List.mem_of_head? hc)
  simp only [isWhite, Bool.or_eq_true, decide_eq_true_eq] at hwhite
  rcases hwhite with ((rfl | rfl) | rfl) | rfl <;> decide

theorem place_none (h : name ∉ l.members.map Prod.fst) : l.place name = none :=
  placeIn_none (names_eq l ▸ h)

end Layout

end Lib.Json
