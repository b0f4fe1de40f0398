import AIWorld.Inference.DynamicTaskRoundTrip
import AIWorld.Lib.Json.Layout

/-! The answer to a decision, read by searching for the names of its members. What is read is what the members
say, as long as each search ends at the member that it is meant for. -/

namespace AIWorld.Inference

open Lib.Json

/-! ### Searching -/

inductive DecisionIntentType
  | none | flee | moveTo | eat
  deriving DecidableEq

def DecisionIntentType.name : DecisionIntentType → String
  | .none => "NONE"
  | .flee => "FLEE"
  | .moveTo => "MOVE_TO"
  | .eat => "EAT"

/-- What stands after the first occurrence. -/
def findRest (needle : Bytes) : Bytes → Option Bytes
  | [] => if needle = [] then some [] else none
  | c :: t => if needle.isPrefixOf (c :: t) then some ((c :: t).drop needle.length) else findRest needle t

def isSpace (c : UInt8) : Bool := c = 0x20 || (0x09 ≤ c && c ≤ 0x0D)

/-- What stands after the first colon after the first occurrence of a name in quotes. -/
def findColon (body : Bytes) (key : String) : Option Bytes :=
  (findRest (quote :: (ascii key ++ [quote])) body).bind (findRest [':'.toUInt8])

/-- Up to the brace that closes the first one, with braces counted wherever they stand. -/
def enclosed : ℕ → Bytes → Option Bytes
  | _, [] => none
  | depth, c :: t =>
    if c = 0x7B then (enclosed (depth + 1) t).map (c :: ·)
    else if c = 0x7D then if depth = 1 then some [c] else (enclosed (depth - 1) t).map (c :: ·)
    else (enclosed depth t).map (c :: ·)

def findObjectField (body : Bytes) (key : String) : Option Bytes :=
  (findColon body key).bind fun rest =>
    if (rest.dropWhile isSpace).head? ≠ some 0x7B then none else enclosed 0 (rest.dropWhile isSpace)

def findUintField (body : Bytes) (key : String) : Option UInt64 :=
  (findColon body key).bind fun rest =>
    let digits := (rest.dropWhile isSpace).takeWhile isDigit
    if digits = [] then none else stoull digits

/-- Everything between the next two quotes. -/
def findStringField (body : Bytes) (key : String) : Option Bytes :=
  (findColon body key).bind fun rest =>
    (findRest [quote] rest).bind fun text => if quote ∈ text then some (text.takeWhile (· ≠ quote)) else none

structure DecisionAnswer where
  protocolVersion : UInt64
  agentId : UInt64
  requestId : UInt64
  snapshotSequence : UInt64
  intent : DecisionIntentType
  deriving DecidableEq

def parseIntentType (text : Bytes) : Option DecisionIntentType :=
  if text = ascii "NONE" then some .none
  else if text = ascii "FLEE" then some .flee
  else if text = ascii "MOVE_TO" then some .moveTo
  else if text = ascii "EAT" then some .eat
  else none

def parseDecisionResponseBody (body : Bytes) : Option DecisionAnswer := do
  let protocolVersion ← findUintField body "protocol_version"
  let agentId ← findUintField body "agent_id"
  let requestId ← findUintField body "request_id"
  let snapshotSequence ← findUintField body "snapshot_sequence"
  let decision ← findObjectField body "decision"
  let typeString ← findStringField decision "type"
  let intent ← parseIntentType typeString
  some { protocolVersion, agentId, requestId, snapshotSequence, intent }

/-! ### What the members say -/

def integerKeys : List String := ["protocol_version", "agent_id", "request_id", "snapshot_sequence"]

structure Says (members : List (Bytes × Value)) (answer : DecisionAnswer) : Prop where
  protocolVersion : (ascii "protocol_version", .number (decimal answer.protocolVersion.toNat)) ∈ members
  agentId : (ascii "agent_id", .number (decimal answer.agentId.toNat)) ∈ members
  requestId : (ascii "request_id", .number (decimal answer.requestId.toNat)) ∈ members
  snapshotSequence : (ascii "snapshot_sequence", .number (decimal answer.snapshotSequence.toNat)) ∈ members
  decision : ∃ inner, (ascii "decision", .object inner) ∈ members ∧
    (ascii "type", .string (ascii answer.intent.name)) ∈ inner

/-- Inside the value of a decision: the braces are counted to its end, the first search for the type ends at the
member itself, and its string is written without escapes. -/
structure FoundType (value : Bytes) (inner : Layout) : Prop where
  enclosed : enclosed 0 value = some value
  place : findColon value "type" = inner.place (ascii "type")
  plain : ∀ m ∈ inner.parts, m.name = ascii "type" → ∀ s, m.v = .string s → m.value = quote :: (s ++ [quote])

/-- Each search ends at the member that it is meant for, or nowhere if there is no such member. -/
structure Found (encode : ℕ → Bytes) (l : Layout) : Prop where
  integers : ∀ key ∈ integerKeys, findColon l.text key = l.place (ascii key)
  decision : findColon l.text "decision" = l.place (ascii "decision")
  type : ∀ m ∈ l.parts, m.name = ascii "decision" → ∀ members, m.v = .object members →
    ∃ inner levels, Layout.Written encode levels inner ∧ inner.text = m.value ∧ inner.members = members ∧
      FoundType m.value inner

/-! ### Reading at a place -/

section Place
variable {body inner rest : Bytes} {key : String} (hinner : White inner)
include hinner

theorem dropWhile_space {c : UInt8} (hc : isSpace c = false) :
    (inner ++ c :: rest).dropWhile isSpace = c :: rest := by
  have hspace : ∀ d ∈ inner, isSpace d = true := fun d hd => by
    have hwhite := hinner d hd
    simp only [isWhite, Bool.or_eq_true, decide_eq_true_eq] at hwhite
    rcases hwhite with ((rfl | rfl) | rfl) | rfl <;> decide
  rw [List.dropWhile_append_of_pos hspace, List.dropWhile_cons_of_neg (by rw [hc]; exact Bool.false_ne_true)]

omit hinner in
theorem space_of_digit {c : UInt8} (h : isDigit c = true) : isSpace c = false := by
  have hnat := isDigit_iff.mp h
  by_contra hspace
  rw [Bool.not_eq_false] at hspace
  simp only [isSpace, Bool.or_eq_true, Bool.and_eq_true, decide_eq_true_eq, UInt8.le_iff_toNat_le] at hspace
  rcases hspace with rfl | ⟨-, hle⟩
  · exact absurd hnat (by decide)
  · change c.toNat ≤ 13 at hle
    omega

theorem findUintField_decimal {n : UInt64} (hrest : Ends isNumberByte rest)
    (h : findColon body key = some (inner ++ (decimal n.toNat ++ rest))) : findUintField body key = some n := by
  obtain ⟨c, tail, hcons, hc⟩ := (isDigits_decimal n.toNat).exists_cons
  have hskip : (inner ++ (decimal n.toNat ++ rest)).dropWhile isSpace = decimal n.toNat ++ rest := by
    rw [hcons, List.cons_append]
    exact dropWhile_space hinner (space_of_digit hc)
  have hdigits : (decimal n.toNat ++ rest).takeWhile isDigit = decimal n.toNat := by
    rw [List.takeWhile_append_of_pos (isDigits_decimal _).2]
    cases rest with
    | nil => simp
    | cons d rest =>
      have hd : isDigit d = false := ends_isDigit hrest d (by simp)
      rw [List.takeWhile_cons_of_neg (by rw [hd]; exact Bool.false_ne_true), List.append_nil]
  rw [findUintField, h, Option.bind_some]
  simp only [hskip, hdigits, if_neg (isDigits_decimal n.toNat).1]
  rw [stoull_eq_some, digitsValue_decimal]

/-- A value that is no number does not begin with a digit. -/
theorem findUintField_other {levels : ℕ} {encode : ℕ → Bytes} {value : Bytes} {v : Value}
    (hvalue : Spells encode levels value v) (hv : ∀ text, v ≠ .number text)
    (h : findColon body key = some (inner ++ (value ++ rest))) : findUintField body key = none := by
  obtain ⟨c, tail, rfl, hbegins⟩ := hvalue.exists_cons
  have hc : isSpace c = false ∧ isDigit c = false := by
    cases v with
    | number text => exact absurd rfl (hv text)
    | bool b =>
      subst hbegins
      cases b <;> decide
    | null | string text | array items | object members =>
      subst hbegins
      decide
  rw [findUintField, h, Option.bind_some]
  simp only [List.cons_append, dropWhile_space hinner hc.1]
  rw [List.takeWhile_cons_of_neg (by rw [hc.2]; exact Bool.false_ne_true), if_pos rfl]

theorem findObjectField_other {levels : ℕ} {encode : ℕ → Bytes} {value : Bytes} {v : Value}
    (hvalue : Spells encode levels value v) (hv : ∀ members, v ≠ .object members)
    (h : findColon body key = some (inner ++ (value ++ rest))) : findObjectField body key = none := by
  obtain ⟨c, tail, rfl, hbegins⟩ := hvalue.exists_cons
  have hc : isSpace c = false ∧ c ≠ 0x7B := by
    cases v with
    | object members => exact absurd rfl (hv members)
    | number text =>
      rcases hbegins with rfl | hdigit
      · decide
      · refine ⟨space_of_digit hdigit, ?_⟩
        rintro rfl
        contradiction
    | bool b =>
      subst hbegins
      cases b <;> decide
    | null | string text | array items =>
      subst hbegins
      decide
  rw [findObjectField, h, Option.bind_some, List.cons_append, dropWhile_space hinner hc.1, List.head?_cons,
    if_pos fun heq => hc.2 (Option.some.inj heq)]

end Place

theorem enclosed_append {depth : ℕ} {t s rest : Bytes} (h : enclosed depth t = some s) :
    enclosed depth (t ++ rest) = some s := by
  induction t generalizing depth s with
  | nil => contradiction
  | cons c t ih =>
    rw [List.cons_append, enclosed]
    rw [enclosed] at h
    have hmap {depth' : ℕ} (hsome : (enclosed depth' t).map (c :: ·) = some s) :
        (enclosed depth' (t ++ rest)).map (c :: ·) = some s := by
      obtain ⟨s', hs', rfl⟩ := Option.map_eq_some_iff.mp hsome
      rw [ih hs', Option.map_some]
    split_ifs at h ⊢
    · exact hmap h
    · exact h
    · exact hmap h
    · exact hmap h

theorem findObjectField_enclosed {body inner value rest : Bytes} {key : String} {levels : ℕ} {encode : ℕ → Bytes}
    {members : List (Bytes × Value)} (hinner : White inner) (hvalue : Spells encode levels value (.object members))
    (henclosed : enclosed 0 value = some value) (h : findColon body key = some (inner ++ (value ++ rest))) :
    findObjectField body key = some value := by
  obtain ⟨c, tail, rfl, hbegins⟩ := hvalue.exists_cons
  obtain rfl : c = 0x7B := hbegins
  have hwhole : enclosed 0 (0x7B :: tail ++ rest) = some (0x7B :: tail) := enclosed_append henclosed
  rw [List.cons_append] at h hwhole
  rw [findObjectField, h, Option.bind_some, dropWhile_space hinner (by decide), List.head?_cons, if_neg (by simp),
    hwhole]

/-- A single byte is searched for. -/
theorem findRest_byte {c : UInt8} {t rest : Bytes} (h : c ∉ t) : findRest [c] (t ++ c :: rest) = some rest := by
  induction t with
  | nil => simp [findRest]
  | cons d t ih =>
    rw [List.mem_cons, not_or] at h
    rw [List.cons_append, findRest, if_neg (by simpa using h.1), ih h.2]

theorem findStringField_plain {body inner s rest : Bytes} {key : String} (hinner : White inner) (hs : quote ∉ s)
    (h : findColon body key = some (inner ++ (quote :: (s ++ [quote]) ++ rest))) : findStringField body key = some s := by
  have hquote : quote ∉ inner := fun hmem => absurd (hinner quote hmem) (by decide)
  have hsplit : inner ++ (quote :: (s ++ [quote]) ++ rest) = inner ++ quote :: (s ++ quote :: rest) := by simp
  have htake : (s ++ quote :: rest).takeWhile (· ≠ quote) = s := by
    have hother : ∀ c ∈ s, decide (c ≠ quote) = true := by
      intro c hc
      refine decide_eq_true ?_
      rintro rfl
      exact hs hc
    rw [List.takeWhile_append_of_pos hother]
    simp
  rw [hsplit] at h
  rw [findStringField, h, Option.bind_some, findRest_byte hquote, Option.bind_some, if_pos (by simp), htake]

theorem parseIntentType_name (intent : DecisionIntentType) : parseIntentType (ascii intent.name) = some intent := by
  cases intent <;> decide

/-! ### Reading the members -/

section Members
variable {encode : ℕ → Bytes} {levels : ℕ} {l : Layout} (hwritten : l.Written encode levels)
  (hnodup : (l.members.map Prod.fst).Nodup)
include hwritten hnodup

theorem findUintField_of_member {key : String} (hfound : findColon l.text key = l.place (ascii key)) {n : UInt64}
    (hmem : (ascii key, .number (decimal n.toNat)) ∈ l.members) : findUintField l.text key = some n := by
  obtain ⟨m, hm, -, hv, rest, hplace, hends⟩ := l.place_of_mem hwritten hnodup hmem
  have hspells := (hwritten m hm).value
  rw [hv] at hspells
  have hvalue : m.value = decimal n.toNat := by
    cases levels with
    | zero => contradiction
    | succ levels => exact hspells.1
  rw [hplace, hvalue] at hfound
  exact findUintField_decimal (hwritten m hm).inner hends hfound

theorem findUintField_lacks {key : String} (hfound : findColon l.text key = l.place (ascii key))
    (hlacks : ∀ text, (ascii key, .number text) ∉ l.members) : findUintField l.text key = none := by
  by_cases hkey : ascii key ∈ l.members.map Prod.fst
  · obtain ⟨⟨_, v⟩, hmem, rfl⟩ := List.mem_map.mp hkey
    obtain ⟨m, hm, -, hv, rest, hplace, -⟩ := l.place_of_mem hwritten hnodup hmem
    refine findUintField_other (hwritten m hm).inner (hwritten m hm).value (fun text heq => ?_) (hfound.trans hplace)
    rw [← hv, heq] at hmem
    exact hlacks text hmem
  · rw [findUintField, hfound, Layout.place_none hkey, Option.bind_none]

theorem findObjectField_lacks {key : String} (hfound : findColon l.text key = l.place (ascii key))
    (hlacks : ∀ inner, (ascii key, .object inner) ∉ l.members) : findObjectField l.text key = none := by
  by_cases hkey : ascii key ∈ l.members.map Prod.fst
  · obtain ⟨⟨_, v⟩, hmem, rfl⟩ := List.mem_map.mp hkey
    obtain ⟨m, hm, -, hv, rest, hplace, -⟩ := l.place_of_mem hwritten hnodup hmem
    refine findObjectField_other (hwritten m hm).inner (hwritten m hm).value (fun inner heq => ?_)
      (hfound.trans hplace)
    rw [← hv, heq] at hmem
    exact hlacks inner hmem
  · rw [findObjectField, hfound, Layout.place_none hkey, Option.bind_none]

/-- An object that is found and enclosed holds its own string. -/
theorem findObjectField_of_member {key : String} (hfound : findColon l.text key = l.place (ascii key))
    (htype : ∀ m ∈ l.parts, m.name = ascii key → ∀ members, m.v = .object members →
      ∃ inner levels, Layout.Written encode levels inner ∧ inner.text = m.value ∧ inner.members = members ∧
        FoundType m.value inner)
    {members : List (Bytes × Value)} (hmem : (ascii key, .object members) ∈ l.members) {s : Bytes} (hs : quote ∉ s)
    (hstring : (ascii "type", .string s) ∈ members) :
    ∃ value, findObjectField l.text key = some value ∧ findStringField value "type" = some s := by
  obtain ⟨m, hm, hname, hv, rest, hplace, -⟩ := l.place_of_mem hwritten hnodup hmem
  obtain ⟨inner, levels', hinner, htext, rfl, hfoundType⟩ := htype m hm hname members hv
  have hspells := (hwritten m hm).value
  rw [hv] at hspells
  have hdistinct : (inner.members.map Prod.fst).Nodup := by
    cases levels with
    | zero => contradiction
    | succ levels => exact hspells.2
  obtain ⟨m', hm', hname', hv', rest', hplace', -⟩ := inner.place_of_mem hinner hdistinct hstring
  have hcolon : findColon m.value "type" = some (m'.inner ++ (quote :: (s ++ [quote]) ++ rest')) := by
    rw [hfoundType.place, hplace', hfoundType.plain m' hm' hname' s hv']
  exact ⟨m.value, findObjectField_enclosed (hwritten m hm).inner hspells hfoundType.enclosed (hfound.trans hplace),
    findStringField_plain (hinner m' hm').inner hs hcolon⟩

theorem parse_of_found (hfound : Found encode l) {answer : DecisionAnswer} (hanswer : Says l.members answer) :
    parseDecisionResponseBody l.text = some answer := by
  have hquote : quote ∉ ascii answer.intent.name := by cases answer.intent <;> decide
  obtain ⟨inner, hinner, htype⟩ := hanswer.decision
  obtain ⟨value, hvalue, hstring⟩ := findObjectField_of_member hwritten hnodup hfound.decision hfound.type hinner hquote htype
  have hversion := findUintField_of_member hwritten hnodup (hfound.integers "protocol_version" (by decide))
    hanswer.protocolVersion
  have hagent := findUintField_of_member hwritten hnodup (hfound.integers "agent_id" (by decide)) hanswer.agentId
  have hrequest := findUintField_of_member hwritten hnodup (hfound.integers "request_id" (by decide)) hanswer.requestId
  have hsequence := findUintField_of_member hwritten hnodup (hfound.integers "snapshot_sequence" (by decide))
    hanswer.snapshotSequence
  simp only [parseDecisionResponseBody, hversion, hagent, hrequest, hsequence, hvalue, hstring, parseIntentType_name,
    Option.bind_eq_bind, Option.bind_some]

theorem parse_lacks_integer {key : String} (hkey : key ∈ integerKeys)
    (hfound : findColon l.text key = l.place (ascii key)) (hlacks : ∀ text, (ascii key, .number text) ∉ l.members) :
    parseDecisionResponseBody l.text = none := by
  have hnone := findUintField_lacks hwritten hnodup hfound hlacks
  simp only [integerKeys, List.mem_cons, List.not_mem_nil, or_false] at hkey
  rcases hkey with rfl | rfl | rfl | rfl <;> simp [parseDecisionResponseBody, hnone]

theorem parse_lacks_decision (hfound : findColon l.text "decision" = l.place (ascii "decision"))
    (hlacks : ∀ inner, (ascii "decision", .object inner) ∉ l.members) : parseDecisionResponseBody l.text = none := by
  have hnone := findObjectField_lacks hwritten hnodup hfound hlacks
  simp [parseDecisionResponseBody, hnone]

end Members

/-- A member with a blank before its value. -/
def spacedPart (name : String) (value : Bytes) (v : Value) : MemberText :=
  ⟨[0x0A], quote :: (ascii name ++ [quote]), [], [0x20], value, [0x20], ascii name, v⟩

def compactPart (name : String) (value : Bytes) (v : Value) : MemberText :=
  ⟨[], quote :: (ascii name ++ [quote]), [], [], value, [], ascii name, v⟩

theorem written_spacedPart {encode : ℕ → Bytes} {levels : ℕ} {name : String} {value : Bytes} {v : Value}
    (hname : ∀ c ∈ ascii name, IsPlain c) (hvalue : Spells encode levels value v) :
    (spacedPart name value v).Written encode levels :=
  ⟨(by decide : White [0x0A]), white_nil, (by decide : White [0x20]), (by decide : White [0x20]),
    isString_plain hname, hvalue⟩

theorem written_compactPart {encode : ℕ → Bytes} {levels : ℕ} {name : String} {value : Bytes} {v : Value}
    (hname : ∀ c ∈ ascii name, IsPlain c) (hvalue : Spells encode levels value v) :
    (compactPart name value v).Written encode levels :=
  ⟨white_nil, white_nil, white_nil, white_nil, isString_plain hname, hvalue⟩

def eatFields : List Field := [integerMember "target" 3, wordMember "type" (ascii "EAT")]

def eatLayout : Layout where
  lead := []
  blank := []
  parts := [compactPart "target" (decimal 3) (.number (decimal 3)),
    compactPart "type" (quote :: (ascii "EAT" ++ [quote])) (.string (ascii "EAT"))]
  trail := []

/-- The decision first, and a further member. -/
def sampleAnswer : Layout where
  lead := []
  blank := []
  parts := [spacedPart "decision" (writeObject eatFields) (.object (eatFields.map Field.member)),
    spacedPart "note" (quote :: (ascii "agent_id" ++ [quote])) (.string (ascii "agent_id")),
    spacedPart "agent_id" (decimal 5) (.number (decimal 5)),
    spacedPart "request_id" (decimal 3) (.number (decimal 3)),
    spacedPart "snapshot_sequence" (decimal 2) (.number (decimal 2)),
    spacedPart "protocol_version" (decimal 1) (.number (decimal 1))]
  trail := []

theorem spells_eat : Spells encodeCodepoint 2 (writeObject eatFields) (.object (eatFields.map Field.member)) :=
  spells_fields (by decide) (List.forall_mem_cons.mpr ⟨isWritten_integer (by decide) 3,
    List.forall_mem_singleton.mpr (isWritten_word (by decide) (by decide))⟩)

theorem written_eatLayout : eatLayout.Written encodeCodepoint 1 :=
  List.forall_mem_cons.mpr ⟨written_compactPart (by decide) ⟨rfl, isNumber_decimal 3⟩,
    List.forall_mem_singleton.mpr (written_compactPart (by decide) (isString_plain (by decide)))⟩

theorem written_sampleAnswer : sampleAnswer.Written encodeCodepoint 2 := by
  simp only [Layout.Written, sampleAnswer, List.forall_mem_cons]
  exact ⟨written_spacedPart (by decide) spells_eat, written_spacedPart (by decide) (isString_plain (by decide)),
    written_spacedPart (by decide) ⟨rfl, isNumber_decimal 5⟩, written_spacedPart (by decide) ⟨rfl, isNumber_decimal 3⟩,
    written_spacedPart (by decide) ⟨rfl, isNumber_decimal 2⟩, written_spacedPart (by decide) ⟨rfl, isNumber_decimal 1⟩,
    by simp⟩

theorem found_sampleAnswer : Found encodeCodepoint sampleAnswer where
  integers := by decide +kernel
  decision := by decide +kernel
  type := by
    intro m hm hname members hv
    simp only [sampleAnswer, List.mem_cons, List.not_mem_nil, or_false] at hm
    rcases hm with rfl | rfl | rfl | rfl | rfl | rfl
    · cases hv
      refine ⟨eatLayout, 1, written_eatLayout, by decide +kernel, rfl, by decide +kernel, by decide +kernel, ?_⟩
      intro m hm _ s hs
      simp only [eatLayout, List.mem_cons, List.not_mem_nil, or_false] at hm
      rcases hm with rfl | rfl
      · contradiction
      · cases hs
        rfl
    all_goals contradiction

def answerFields (first : List Field) : List Field :=
  first ++ [integerMember "protocol_version" 1, integerMember "request_id" 3, integerMember "snapshot_sequence" 2,
    objectMember "decision" [wordMember "type" (ascii "EAT")]]

/-- A further member that has a member with one of the names. -/
def misleading : List Field := [objectMember "debug" [integerMember "agent_id" 7]]

theorem isText_answer {first : List Field} (hkeys : ((answerFields first).map Field.key).Nodup)
    (hfirst : ∀ field ∈ first, IsWritten 2 field) :
    Lib.Json.IsText encodeCodepoint 3 (writeObject (answerFields first)) (.object ((answerFields first).map Field.member)) := by
  refine ⟨[], _, [], by simp, white_nil, white_nil, spells_fields hkeys (List.forall_mem_append.mpr ⟨hfirst, ?_⟩)⟩
  simp only [List.forall_mem_cons]
  exact ⟨isWritten_integer (by decide) _, isWritten_integer (by decide) _, isWritten_integer (by decide) _,
    isWritten_object (by decide) (by decide)
      (List.forall_mem_singleton.mpr (isWritten_word (by decide) (by decide))), by simp⟩

theorem isWritten_misleading : ∀ field ∈ misleading, IsWritten 2 field :=
  List.forall_mem_singleton.mpr
    (isWritten_object (by decide) (by decide) (List.forall_mem_singleton.mpr (isWritten_integer (by decide) 7)))

end AIWorld.Inference
