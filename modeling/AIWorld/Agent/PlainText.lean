import AIWorld.Lib.Json.Grammar
import AIWorld.Lib.Utf8

/-! Plain text. A text is accepted when it is strict UTF-8, short enough in bytes and in characters, free
of markup, control and formatting characters, and shows something. -/

namespace AIWorld.Agent

open Lib
open Lib.Json (Bytes)

/-! ### The loop of the validators -/

/-- Every scalar is decoded and either refused or counted; the answer says whether one of them is visible. -/
def scanScalars (refuses visible : ℕ → Bool) (maxCharacters : ℕ) : ℕ → Bytes → ℕ → Bool → Option Bool
  | _, [], _, seen => some seen
  | 0, _ :: _, _, _ => none
  | fuel + 1, first :: text, characters, seen =>
    match Utf8.decode (first :: text) with
    | none => none
    | some (scalar, rest) =>
      if refuses scalar then none
      else if characters + 1 > maxCharacters then none
      else scanScalars refuses visible maxCharacters fuel rest (characters + 1) (seen || visible scalar)

/-- The characters of a text that the loop accepts. -/
structure Scanned (refuses : ℕ → Bool) (text : Bytes) (scalars : List ℕ) : Prop where
  spelled : text = Utf8.encodeAll scalars
  isScalar : ∀ c ∈ scalars, Utf8.IsScalar c
  admitted : ∀ c ∈ scalars, refuses c = false

section Scan
variable {refuses visible : ℕ → Bool} {maxCharacters : ℕ}

theorem scanScalars_sound {fuel characters : ℕ} {text : Bytes} {seen found : Bool}
    (h : scanScalars refuses visible maxCharacters fuel text characters seen = some found) :
    ∃ scalars, Scanned refuses text scalars ∧ (scalars = [] ∨ characters + scalars.length ≤ maxCharacters) ∧
      found = (seen || scalars.any visible) := by
  fun_induction scanScalars refuses visible maxCharacters fuel text characters seen with
  | case1 => exact ⟨[], ⟨rfl, by simp, by simp⟩, .inl rfl, by simpa using (Option.some.inj h).symm⟩
  | case2 | case3 | case4 | case5 => contradiction
  | case6 fuel first text characters seen scalar rest hdecode hrefuses hroom ih =>
    obtain ⟨scalars, ⟨hspelled, hscalar, hadmitted⟩, hlength, hfound⟩ := ih h
    obtain ⟨hc, htext⟩ := Utf8.decode_sound hdecode
    refine ⟨scalar :: scalars, ⟨?_, ?_, ?_⟩, .inr ?_, ?_⟩
    · rw [htext, hspelled, Utf8.encodeAll_cons]
    · exact List.forall_mem_cons.mpr ⟨hc, hscalar⟩
    · exact List.forall_mem_cons.mpr ⟨by simpa using hrefuses, hadmitted⟩
    · obtain rfl | hlength := hlength
      · simpa using hroom
      · rw [List.length_cons]
        omega
    · rw [hfound, List.any_cons, Bool.or_assoc]

theorem scanScalars_complete {fuel characters : ℕ} {text : Bytes} {scalars : List ℕ} (seen : Bool)
    (h : Scanned refuses text scalars) (hroom : characters + scalars.length ≤ maxCharacters)
    (hfuel : text.length ≤ fuel) :
    scanScalars refuses visible maxCharacters fuel text characters seen = some (seen || scalars.any visible) := by
  induction scalars generalizing fuel characters text seen with
  | nil =>
    have htext : text = [] := h.spelled
    subst htext
    cases fuel <;> simp [scanScalars]
  | cons c scalars ih =>
    obtain ⟨hc, hscalar⟩ := List.forall_mem_cons.mp h.isScalar
    obtain ⟨hadmitted, hrest⟩ := List.forall_mem_cons.mp h.admitted
    have hspelled : text = Utf8.encode c ++ Utf8.encodeAll scalars := h.spelled
    have hdecode : Utf8.decode text = some (c, Utf8.encodeAll scalars) := by
      rw [hspelled, Utf8.decode_encode hc]
    have hone := Utf8.one_le_length_encode c
    rw [List.length_cons] at hroom
    have hlength : (Utf8.encodeAll scalars).length + 1 ≤ text.length := by
      rw [hspelled, List.length_append]
      omega
    obtain - | ⟨first, text⟩ := text
    · simp at hlength
    obtain - | fuel := fuel
    · simp at hfuel
    rw [List.length_cons] at hfuel hlength
    rw [scanScalars, hdecode]
    simp only [hadmitted, Bool.false_eq_true, if_false]
    rw [if_neg (by omega), ih _ ⟨rfl, hscalar, hrest⟩ (by omega) (by omega), List.any_cons, Bool.or_assoc]

end Scan

/-! ### Plain text -/

def isAuthoredWhitespace (allowAuthoredLines : Bool) (scalar : ℕ) : Bool :=
  allowAuthoredLines && (scalar = 0x0A || scalar = 0x09)

/-- Controls, the pipe of markup, and invisible or bidirectional formatting. -/
def refusesPlain (allowAuthoredLines : Bool) (scalar : ℕ) : Bool :=
  (!isAuthoredWhitespace allowAuthoredLines scalar && scalar < 0x20) || (0x7F ≤ scalar && scalar ≤ 0x9F) ||
    scalar = 0x7C || (0x200B ≤ scalar && scalar ≤ 0x200F) || (0x2028 ≤ scalar && scalar ≤ 0x202E) ||
    (0x2060 ≤ scalar && scalar ≤ 0x206F) || scalar = 0xFEFF

def isVisible (allowAuthoredLines : Bool) (scalar : ℕ) : Bool :=
  !isAuthoredWhitespace allowAuthoredLines scalar && scalar ≠ 0x20 && scalar ≠ 0xA0

def validateNpcAgentPlainText (text : Bytes) (maxBytes maxCharacters : ℕ) (allowAuthoredLines : Bool) : Bool :=
  if text.isEmpty || text.length > maxBytes then false
  else scanScalars (refusesPlain allowAuthoredLines) (isVisible allowAuthoredLines) maxCharacters text.length text 0
    false = some true

def validateNpcAgentSpeechText (text : Bytes) : Bool := validateNpcAgentPlainText text 768 256 false

/-- Ordinary spaces at the ends are trimmed; what is not valid becomes nothing. -/
def cleanNpcAgentSpeechText (text : Bytes) : Bytes :=
  if !validateNpcAgentSpeechText text then []
  else (text.dropWhile (· = 0x20)).rdropWhile (· = 0x20)

/-- A plain text and its characters. -/
structure PlainText (maxBytes maxCharacters : ℕ) (allowAuthoredLines : Bool) (text : Bytes) (scalars : List ℕ) :
    Prop extends Scanned (refusesPlain allowAuthoredLines) text scalars where
  bytes : text.length ≤ maxBytes
  characters : scalars.length ≤ maxCharacters
  visible : ∃ c ∈ scalars, isVisible allowAuthoredLines c = true

variable {maxBytes maxCharacters : ℕ} {lines : Bool} {text : Bytes}

theorem validateNpcAgentPlainText_iff :
    validateNpcAgentPlainText text maxBytes maxCharacters lines = true ↔
      ∃ scalars, PlainText maxBytes maxCharacters lines text scalars := by
  constructor
  · intro h
    unfold validateNpcAgentPlainText at h
    split_ifs at h with hshort
    simp only [Bool.or_eq_true, List.isEmpty_iff, decide_eq_true_eq, not_or, not_lt] at hshort h
    obtain ⟨scalars, hscanned, hlength, hfound⟩ := scanScalars_sound h
    have hvisible : ∃ c ∈ scalars, isVisible lines c = true := by simpa [List.any_eq_true] using hfound.symm
    refine ⟨scalars, hscanned, hshort.2, ?_, hvisible⟩
    obtain rfl | hlength := hlength
    · simp
    · omega
  · rintro ⟨scalars, hscanned, hbytes, hcharacters, hvisible⟩
    have hroom : 0 + scalars.length ≤ maxCharacters := by omega
    have hscan : scanScalars (refusesPlain lines) (isVisible lines) maxCharacters text.length text 0 false =
      some (false || scalars.any (isVisible lines)) := scanScalars_complete false hscanned hroom le_rfl
    have hany : scalars.any (isVisible lines) = true := by simpa [List.any_eq_true] using hvisible
    have hne : text ≠ [] := by
      rw [hscanned.spelled, Ne, Utf8.encodeAll_eq_nil]
      rintro rfl
      simp at hany
    unfold validateNpcAgentPlainText
    rw [if_neg (by simpa using ⟨hne, hbytes⟩), hscan, hany]
    rfl

theorem PlainText.ne_nil {scalars : List ℕ} (h : PlainText maxBytes maxCharacters lines text scalars) : text ≠ [] := by
  obtain ⟨c, hc, -⟩ := h.visible
  rw [h.spelled, Ne, Utf8.encodeAll_eq_nil]
  rintro rfl
  contradiction

/-! ### Trimming -/

/-- What does not pass the test is not dropped from either end. -/
theorem mem_dropWhile_of_not {α : Type} {p : α → Bool} {l : List α} {a : α} (ha : a ∈ l) (hp : p a = false) :
    a ∈ (l.dropWhile p).rdropWhile p := by
  have hfront : a ∈ l.dropWhile p := by
    rw [← l.takeWhile_append_dropWhile (p := p), List.mem_append] at ha
    exact ha.resolve_left fun h => by simp [List.mem_takeWhile_imp h] at hp
  have hsplit : (l.dropWhile p).rdropWhile p ++ (l.dropWhile p).rtakeWhile p = l.dropWhile p :=
    List.rdropWhile_append_rtakeWhile
  rw [← hsplit, List.mem_append] at hfront
  exact hfront.resolve_right fun h => by simp [List.mem_rtakeWhile_imp h] at hp

/-- Dropping spaces at the ends leaves a plain text. -/
theorem PlainText.trim {scalars : List ℕ} (h : PlainText maxBytes maxCharacters lines text scalars) :
    PlainText maxBytes maxCharacters lines ((text.dropWhile (· = 0x20)).rdropWhile (· = 0x20))
      ((scalars.dropWhile (· = 0x20)).rdropWhile (· = 0x20)) := by
  have hfront : (scalars.dropWhile (· = 0x20)).Sublist scalars := List.dropWhile_sublist _
  have hback : ((scalars.dropWhile (· = 0x20)).rdropWhile (· = 0x20)).Sublist (scalars.dropWhile (· = 0x20)) :=
    (List.rdropWhile_prefix _ _).sublist
  have hmem : ∀ c ∈ (scalars.dropWhile (· = 0x20)).rdropWhile (· = 0x20), c ∈ scalars :=
    fun c hc => hfront.subset (hback.subset hc)
  have hascii : 0x20 < 0x80 := by decide
  refine ⟨⟨?_, fun c hc => h.isScalar c (hmem c hc), fun c hc => h.admitted c (hmem c hc)⟩, ?_, ?_, ?_⟩
  · have hdrop := Utf8.dropWhile_encodeAll hascii h.isScalar
    have hrdrop := Utf8.rdropWhile_encodeAll hascii fun c hc => h.isScalar c (hfront.subset hc)
    rw [← hrdrop, ← hdrop, ← h.spelled]
    rfl
  · have hfirst := (List.dropWhile_sublist (l := text) (· = 0x20)).length_le
    have hlast := (List.rdropWhile_prefix (· = 0x20) (text.dropWhile (· = 0x20))).length_le
    exact hlast.trans (hfirst.trans h.bytes)
  · exact (hback.trans hfront).length_le.trans h.characters
  · obtain ⟨c, hc, hvisible⟩ := h.visible
    have hkept : decide (c = 0x20) = false := by
      refine decide_eq_false ?_
      rintro rfl
      simp [isVisible] at hvisible
    exact ⟨c, mem_dropWhile_of_not hc hkept, hvisible⟩

theorem cleanNpcAgentSpeechText_valid (h : validateNpcAgentSpeechText text = true) :
    validateNpcAgentSpeechText (cleanNpcAgentSpeechText text) = true := by
  obtain ⟨scalars, hplain⟩ := validateNpcAgentPlainText_iff.mp h
  have hclean : cleanNpcAgentSpeechText text = (text.dropWhile (· = 0x20)).rdropWhile (· = 0x20) := by
    simp [cleanNpcAgentSpeechText, h]
  rw [hclean]
  exact validateNpcAgentPlainText_iff.mpr ⟨_, hplain.trim⟩

end AIWorld.Agent
