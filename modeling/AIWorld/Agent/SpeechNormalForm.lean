import AIWorld.Agent.NpcAgentSpeechState
import AIWorld.Inference.NpcAgentRequest
import Mathlib.Logic.Relation

/-! Which texts are plain, and when two of them count as the same line. The normal form of a line is worked out
from its scalars one after the other, so that what a part of the line adds depends only on what was
added before. -/

namespace AIWorld.Agent

open Lib
open Lib.Json (Bytes)
open Inference (validText refusesText)

variable {text : Bytes} {scalars cs ds : List ℕ} {c d : ℕ}

/-! ### The scalars of a valid text -/

theorem nextScalar_of_lead {b : UInt8} {extra bits least : ℕ} (h : Utf8.lead b = some (extra, bits, least))
    (rest : Bytes) : nextScalar b rest =
      ((rest.take extra).foldl (fun cp next => cp * 64 + next.toNat % 64) bits, rest.drop extra) := by
  unfold nextScalar
  dsimp only
  rcases Utf8.lead_cases h with ⟨rfl, -, hbits, hb⟩ | ⟨rfl, -, hbits, hb⟩ | ⟨rfl, -, hbits, hb⟩ |
    ⟨rfl, -, hbits, hb⟩
  · rw [if_neg (by omega), if_neg (by omega), if_pos (by omega)]
    have hlow : b.toNat % 32 = bits := by omega
    rw [hlow]
  · rw [if_neg (by omega), if_pos (by omega)]
    have hlow : b.toNat % 16 = bits := by omega
    rw [hlow]
  · rw [if_pos (by omega)]
    have hlow : b.toNat % 8 = bits := by omega
    rw [hlow]
  · rw [if_neg (by omega), if_neg (by omega), if_neg (by omega), hb]

theorem follow_eq {extra cp c : ℕ} {text rest : Bytes} (h : Utf8.follow extra cp text = some (c, rest)) :
    (text.take extra).foldl (fun cp next => cp * 64 + next.toNat % 64) cp = c ∧ text.drop extra = rest := by
  induction extra generalizing cp text with
  | zero =>
    cases h
    exact ⟨rfl, rfl⟩
  | succ extra ih =>
    cases text with
    | nil => contradiction
    | cons b text =>
      rw [Utf8.follow] at h
      split_ifs at h
      exact ih h

/-- On a valid text the unchecked decoder reads what the strict one does. -/
theorem nextScalar_of_decode {b : UInt8} {rest : Bytes} (h : Utf8.decode (b :: text) = some (c, rest)) :
    nextScalar b text = (c, rest) := by
  simp only [Utf8.decode, Option.bind_eq_bind, Option.bind_eq_some_iff, Option.ite_none_left_eq_some,
    Option.some.injEq, Prod.mk.injEq] at h
  obtain ⟨⟨extra, bits, least⟩, hlead, ⟨c', rest'⟩, hfollow, -, rfl, rfl⟩ := h
  obtain ⟨hc, hrest⟩ := follow_eq hfollow
  rw [nextScalar_of_lead hlead, hc, hrest]

/-! ### One scalar after the other -/

def isSpace (cp : ℕ) : Bool := cp = 0x20 ∨ cp = 0xA0

/-- What is written so far, and whether a space is due. -/
def addScalar (s : List ℕ × Bool) (cp : ℕ) : List ℕ × Bool :=
  if isSpace cp then (s.1, !s.1.isEmpty)
  else if isPunctuation cp then s
  else ((if s.2 then s.1 ++ [0x20] else s.1) ++ [foldCase cp], false)

def normalForm (scalars : List ℕ) : List ℕ := (scalars.foldl addScalar ([], false)).1

theorem isEmpty_encodeAll : (Utf8.encodeAll cs).isEmpty = cs.isEmpty := by
  rw [Bool.eq_iff_iff, List.isEmpty_iff, List.isEmpty_iff, Utf8.encodeAll_eq_nil]

theorem encodeAll_letter (space : Bool) :
    (if space = true then Utf8.encodeAll cs ++ [0x20] else Utf8.encodeAll cs) ++ Utf8.encode c =
      Utf8.encodeAll ((if space = true then cs ++ [0x20] else cs) ++ [c]) := by
  have hone : ∀ c, Utf8.encodeAll [c] = Utf8.encode c := fun c => by simp
  split_ifs
  · rw [Utf8.encodeAll_append, Utf8.encodeAll_append, hone, hone]
    rfl
  · rw [Utf8.encodeAll_append, hone]

/-- The loop over the bytes adds one scalar after the other. -/
theorem normalizeLoop_eq {fuel : ℕ} (out : List ℕ) (space : Bool) (h : ∀ c ∈ scalars, Utf8.IsScalar c)
    (hfuel : (Utf8.encodeAll scalars).length ≤ fuel) :
    normalizeLoop fuel (Utf8.encodeAll scalars) (Utf8.encodeAll out) space =
      Utf8.encodeAll (scalars.foldl addScalar (out, space)).1 := by
  induction scalars generalizing fuel out space with
  | nil => cases fuel <;> rfl
  | cons c scalars ih =>
    obtain ⟨hc, hrest⟩ := List.forall_mem_cons.mp h
    have hdecode := Utf8.decode_encode hc (Utf8.encodeAll scalars)
    obtain ⟨b, t, hbt⟩ := List.exists_cons_of_ne_nil (Utf8.encode_ne_nil c)
    rw [Utf8.encodeAll_cons, hbt, List.cons_append] at hfuel ⊢
    rw [hbt, List.cons_append] at hdecode
    rw [List.length_cons, List.length_append] at hfuel
    obtain ⟨fuel, rfl⟩ : ∃ n, fuel = n + 1 := ⟨fuel - 1, by omega⟩
    have hroom : (Utf8.encodeAll scalars).length ≤ fuel := by omega
    rw [normalizeLoop, nextScalar_of_decode hdecode, List.foldl_cons]
    dsimp only
    by_cases hspace : isSpace c = true
    · rw [if_pos (of_decide_eq_true hspace), addScalar, if_pos hspace, isEmpty_encodeAll]
      exact ih _ _ hrest hroom
    · rw [if_neg fun h => hspace (decide_eq_true h), addScalar, if_neg hspace]
      by_cases hpunctuation : isPunctuation c = true
      · rw [if_pos hpunctuation, if_pos hpunctuation]
        exact ih _ _ hrest hroom
      · rw [if_neg hpunctuation, if_neg hpunctuation, encodeAll_letter]
        exact ih _ _ hrest hroom

theorem normalize_eq (h : PlainText 768 256 false text scalars) :
    normalizeNpcAgentSpeech text = Utf8.encodeAll (normalForm scalars) := by
  have hvalid : validateNpcAgentSpeechText text = true := validateNpcAgentPlainText_iff.mpr ⟨_, h⟩
  rw [normalizeNpcAgentSpeech, hvalid, Bool.not_true, if_neg Bool.false_ne_true]
  have hloop := normalizeLoop_eq [] false h.isScalar le_rfl
  rw [← h.spelled] at hloop
  exact hloop

/-! ### Letters -/

theorem foldCase_cases (c : ℕ) :
    foldCase c = c ∨
    (foldCase c = c + 32 ∧ (0x41 ≤ c ∧ c ≤ 0x5A ∨ 0xC0 ≤ c ∧ c ≤ 0xDE)) ∨
    (foldCase c = c + 1 ∧ 0x100 ≤ c ∧ c ≤ 0x17D) := by
  unfold foldCase
  split_ifs <;> omega

theorem foldCase_foldCase (c : ℕ) : foldCase (foldCase c) = foldCase c := by
  unfold foldCase
  split_ifs <;> omega

theorem isSpace_foldCase (h : isSpace c = false) : isSpace (foldCase c) = false := by
  unfold isSpace at h ⊢
  rw [decide_eq_false_iff_not] at h ⊢
  have hcases := foldCase_cases c
  omega

theorem isSpace_of_isPunctuation (h : isPunctuation c = true) : isSpace c = false := by
  simp only [isPunctuation, Bool.or_eq_true, Bool.and_eq_true, decide_eq_true_eq] at h
  refine decide_eq_false ?_
  omega

theorem isPunctuation_foldCase (h : isPunctuation c = false) : isPunctuation (foldCase c) = false := by
  rw [← Bool.not_eq_true] at h ⊢
  simp only [isPunctuation, Bool.or_eq_true, Bool.and_eq_true, decide_eq_true_eq] at h ⊢
  have hcases := foldCase_cases c
  omega

theorem refusesPlain_foldCase (h : refusesPlain false c = false) :
    refusesPlain false (foldCase c) = false := by
  rw [← Bool.not_eq_true] at h ⊢
  simp only [refusesPlain, isAuthoredWhitespace, Bool.or_eq_true, Bool.and_eq_true, decide_eq_true_eq, Bool.false_and,
    Bool.not_false, true_and] at h ⊢
  have hcases := foldCase_cases c
  omega

theorem isScalar_foldCase (h : Utf8.IsScalar c) : Utf8.IsScalar (foldCase c) := by
  unfold Utf8.IsScalar at h ⊢
  have hcases := foldCase_cases c
  omega

theorem length_encode_foldCase (c : ℕ) : (Utf8.encode (foldCase c)).length = (Utf8.encode c).length := by
  have hcases := foldCase_cases c
  unfold Utf8.encode
  split_ifs <;> first | rfl | omega

/-! ### The normal form -/

variable {s : List ℕ × Bool}

theorem addScalar_space (h : isSpace c = true) : addScalar s c = (s.1, !s.1.isEmpty) := if_pos h

theorem addScalar_punctuation (h : isPunctuation c = true) (hspace : isSpace c = false) :
    addScalar s c = s := by
  rw [addScalar, if_neg (ne_true_of_eq_false hspace), if_pos h]

theorem addScalar_letter (hspace : isSpace c = false) (h : isPunctuation c = false) :
    addScalar s c = ((if s.2 then s.1 ++ [0x20] else s.1) ++ [foldCase c], false) := by
  rw [addScalar, if_neg (ne_true_of_eq_false hspace), if_neg (ne_true_of_eq_false h)]

/-- What is written so far stays as it is when it is normalized again. -/
structure Settled (s : List ℕ × Bool) : Prop where
  stable : s.1.foldl addScalar ([], false) = (s.1, false)
  due : s.2 = true → s.1 ≠ []

theorem Settled.addScalar (h : Settled s) (c : ℕ) : Settled (addScalar s c) := by
  cases hspace : isSpace c with
  | true =>
    rw [addScalar_space hspace]
    exact ⟨h.stable, fun hdue => by simpa using hdue⟩
  | false =>
  cases hpunctuation : isPunctuation c with
  | true =>
    rw [addScalar_punctuation hpunctuation hspace]
    exact h
  | false =>
    rw [addScalar_letter hspace hpunctuation]
    refine ⟨?_, fun hdue => absurd hdue Bool.false_ne_true⟩
    cases hdue : s.2 with
    | false =>
      rw [if_neg Bool.false_ne_true, List.foldl_append, h.stable, List.foldl_cons,
        addScalar_letter (isSpace_foldCase hspace) (isPunctuation_foldCase hpunctuation),
        foldCase_foldCase]
      rfl
    | true =>
      have hwritten : Agent.addScalar (s.1, false) 0x20 = (s.1, true) := by
        have hne : (!s.1.isEmpty) = true := by simpa using h.due hdue
        rw [addScalar_space (by decide), hne]
      rw [if_pos rfl, List.foldl_append, List.foldl_append, h.stable]
      simp only [List.foldl_cons, List.foldl_nil]
      rw [hwritten, addScalar_letter (isSpace_foldCase hspace) (isPunctuation_foldCase hpunctuation),
        foldCase_foldCase]
      rfl

theorem settled_foldl (h : Settled s) : Settled (scalars.foldl addScalar s) := by
  induction scalars generalizing s with
  | nil => exact h
  | cons c scalars ih => exact ih (h.addScalar c)

theorem normalForm_normalForm (scalars : List ℕ) :
    normalForm (normalForm scalars) = normalForm scalars := by
  have hsettled : Settled (scalars.foldl addScalar ([], false)) :=
    settled_foldl ⟨rfl, fun hdue => absurd hdue Bool.false_ne_true⟩
  rw [normalForm, normalForm, hsettled.stable]

/-- What is written after some scalars takes no more room than they do. -/
structure Written (scalars : List ℕ) (s : List ℕ × Bool) : Prop where
  isScalar : ∀ c ∈ s.1, Utf8.IsScalar c
  admitted : ∀ c ∈ s.1, refusesPlain false c = false
  visible : s.1 ≠ [] → ∃ c ∈ s.1, isVisible false c = true
  bytes : (Utf8.encodeAll s.1).length + s.2.toNat ≤ (Utf8.encodeAll scalars).length
  characters : s.1.length + s.2.toNat ≤ scalars.length

theorem Written.addScalar (h : Written scalars s) (hc : Utf8.IsScalar c)
    (hadmitted : refusesPlain false c = false) : Written (scalars ++ [c]) (addScalar s c) := by
  have hone := Utf8.one_le_length_encode c
  have hbytes := h.bytes
  have hcharacters := h.characters
  have hlength : (Utf8.encodeAll (scalars ++ [c])).length =
      (Utf8.encodeAll scalars).length + (Utf8.encode c).length := by
    simp [Utf8.encodeAll_append]
  cases hspace : isSpace c with
  | true =>
    rw [addScalar_space hspace]
    have hdue := Bool.toNat_le (!s.1.isEmpty)
    refine ⟨h.isScalar, h.admitted, h.visible, ?_, ?_⟩
    · rw [hlength]
      dsimp only
      omega
    · rw [List.length_append, List.length_singleton]
      dsimp only
      omega
  | false =>
  cases hpunctuation : isPunctuation c with
  | true =>
    rw [addScalar_punctuation hpunctuation hspace]
    refine ⟨h.isScalar, h.admitted, h.visible, ?_, ?_⟩
    · rw [hlength]
      omega
    · rw [List.length_append, List.length_singleton]
      omega
  | false =>
    rw [addScalar_letter hspace hpunctuation]
    have hsmall : isVisible false (foldCase c) = true := by
      have hfold := isSpace_foldCase hspace
      rw [isSpace, decide_eq_false_iff_not, not_or] at hfold
      simp [isVisible, isAuthoredWhitespace, hfold.1, hfold.2]
    have hmem : ∀ x ∈ (if s.2 = true then s.1 ++ [0x20] else s.1) ++ [foldCase c],
        x ∈ s.1 ∨ x = 0x20 ∨ x = foldCase c := by
      intro x hx
      split_ifs at hx <;> simp at hx <;> tauto
    refine ⟨fun x hx => ?_, fun x hx => ?_, fun _ => ⟨foldCase c, by simp, hsmall⟩, ?_, ?_⟩
    · rcases hmem x hx with hx | rfl | rfl
      · exact h.isScalar x hx
      · decide
      · exact isScalar_foldCase hc
    · rcases hmem x hx with hx | rfl | rfl
      · exact h.admitted x hx
      · decide
      · exact refusesPlain_foldCase hadmitted
    · rw [hlength, ← length_encode_foldCase c]
      cases hdue : s.2 <;> rw [hdue] at hbytes <;>
        simp [Utf8.encodeAll_append, Utf8.encode_of_lt] at hbytes ⊢ <;> omega
    · cases hdue : s.2 <;> rw [hdue] at hcharacters <;> simp at hcharacters ⊢ <;> omega

theorem written_foldl (hscalar : ∀ c ∈ scalars, Utf8.IsScalar c)
    (hadmitted : ∀ c ∈ scalars, refusesPlain false c = false) :
    Written scalars (scalars.foldl addScalar ([], false)) := by
  induction scalars using List.reverseRecOn with
  | nil => exact ⟨by simp, by simp, fun h => absurd rfl h, by simp, by simp⟩
  | append_singleton scalars c ih =>
    rw [List.foldl_append]
    have hrest := ih (fun x hx => hscalar x (by simp [hx])) fun x hx => hadmitted x (by simp [hx])
    exact hrest.addScalar (hscalar c (by simp)) (hadmitted c (by simp))

theorem PlainText.normalForm (h : PlainText 768 256 false text scalars) (hne : normalForm scalars ≠ []) :
    PlainText 768 256 false (Utf8.encodeAll (Agent.normalForm scalars)) (Agent.normalForm scalars) := by
  have hwritten := written_foldl h.isScalar h.admitted
  have hbytes := h.bytes
  have hcharacters := h.characters
  have hroom := hwritten.bytes
  have hroom' := hwritten.characters
  rw [← h.spelled] at hroom
  exact ⟨⟨rfl, hwritten.isScalar, hwritten.admitted⟩, (Nat.le_add_right _ _).trans (hroom.trans hbytes),
    (Nat.le_add_right _ _).trans (hroom'.trans hcharacters), hwritten.visible hne⟩

/-! ### Lines that count as the same -/

/-- One difference that does not count. -/
inductive Differs : List ℕ → List ℕ → Prop
  | letter (before after : List ℕ) {c d : ℕ} (h : foldCase c = foldCase d) :
      Differs (before ++ c :: after) (before ++ d :: after)
  | punctuation (before after : List ℕ) {c : ℕ} (h : isPunctuation c = true) :
      Differs (before ++ c :: after) (before ++ after)
  | leading (after : List ℕ) {c : ℕ} (h : isSpace c = true) : Differs (c :: after) after
  | trailing (before : List ℕ) {c : ℕ} (h : isSpace c = true) : Differs (before ++ [c]) before
  | between (before after : List ℕ) {run run' : List ℕ} (hrun : run ≠ []) (hrun' : run' ≠ [])
      (hspace : ∀ c ∈ run, isSpace c = true) (hspace' : ∀ c ∈ run', isSpace c = true) :
      Differs (before ++ run ++ after) (before ++ run' ++ after)

theorem isSpace_eq_of_foldCase (h : foldCase c = foldCase d) : isSpace c = isSpace d := by
  have hc := foldCase_cases c
  have hd := foldCase_cases d
  unfold isSpace
  refine decide_eq_decide.mpr ?_
  omega

theorem isPunctuation_eq_of_foldCase (h : foldCase c = foldCase d) :
    isPunctuation c = isPunctuation d := by
  have hc := foldCase_cases c
  have hd := foldCase_cases d
  rw [Bool.eq_iff_iff]
  simp only [isPunctuation, Bool.or_eq_true, Bool.and_eq_true, decide_eq_true_eq]
  omega

theorem addScalar_congr (h : foldCase c = foldCase d) : addScalar s c = addScalar s d := by
  unfold addScalar
  rw [isSpace_eq_of_foldCase h, isPunctuation_eq_of_foldCase h, h]

theorem foldl_addScalar_spaces (hne : cs ≠ []) (h : ∀ c ∈ cs, isSpace c = true) :
    cs.foldl addScalar s = (s.1, !s.1.isEmpty) := by
  induction cs generalizing s with
  | nil => exact absurd rfl hne
  | cons c cs ih =>
    obtain ⟨hc, hcs⟩ := List.forall_mem_cons.mp h
    rw [List.foldl_cons, addScalar_space hc]
    cases cs with
    | nil => rfl
    | cons d cs => exact ih (List.cons_ne_nil d cs) hcs

theorem Differs.normalForm_eq (h : Differs cs ds) : normalForm cs = normalForm ds := by
  unfold normalForm
  cases h with
  | letter before after h =>
    rw [List.foldl_append, List.foldl_append, List.foldl_cons, List.foldl_cons, addScalar_congr h]
  | punctuation before after h =>
    have hspace := isSpace_of_isPunctuation h
    rw [List.foldl_append, List.foldl_append, List.foldl_cons, addScalar_punctuation h hspace]
  | leading after h =>
    rw [List.foldl_cons, addScalar_space h]
    rfl
  | trailing before h =>
    rw [List.foldl_append, List.foldl_cons, addScalar_space h]
    rfl
  | between before after hrun hrun' hspace hspace' =>
    rw [List.foldl_append, List.foldl_append, List.foldl_append, List.foldl_append,
      foldl_addScalar_spaces hrun hspace, foldl_addScalar_spaces hrun' hspace']

theorem normalForm_eq_of_eqvGen (h : Relation.EqvGen Differs cs ds) : normalForm cs = normalForm ds := by
  induction h with
  | rel _ _ hdiffers => exact hdiffers.normalForm_eq
  | refl => rfl
  | symm _ _ _ ih => exact ih.symm
  | trans _ _ _ _ _ ih ih' => exact ih.trans ih'

/-! ### Both validators and the normal form -/

theorem validText_iff {value : Bytes} {maxBytes maxCharacters : ℕ} {plain lines : Bool} :
    validText value maxBytes maxCharacters plain lines = true ↔
      ∃ scalars, Scanned (refusesText plain lines) value scalars ∧ value.length ≤ maxBytes ∧
        scalars.length ≤ maxCharacters := by
  unfold validText
  constructor
  · intro h
    split_ifs at h with hlong
    obtain ⟨found, hscan⟩ := Option.isSome_iff_exists.mp h
    obtain ⟨scalars, hscanned, hlength, -⟩ := scanScalars_sound hscan
    refine ⟨scalars, hscanned, not_lt.mp hlong, ?_⟩
    rcases hlength with rfl | hlength
    · exact Nat.zero_le _
    · omega
  · rintro ⟨scalars, hscanned, hbytes, hcharacters⟩
    have hroom : 0 + scalars.length ≤ maxCharacters := by omega
    rw [if_neg (not_lt.mpr hbytes), scanScalars_complete false hscanned hroom le_rfl]
    rfl

theorem normalize_idem (text : Bytes) :
    normalizeNpcAgentSpeech (normalizeNpcAgentSpeech text) = normalizeNpcAgentSpeech text := by
  cases hvalid : validateNpcAgentSpeechText text with
  | false =>
    rw [normalizeNpcAgentSpeech, normalizeNpcAgentSpeech, hvalid]
    rfl
  | true =>
    obtain ⟨scalars, h⟩ := validateNpcAgentPlainText_iff.mp hvalid
    rw [normalize_eq h]
    by_cases hne : normalForm scalars = []
    · rw [hne]
      rfl
    · rw [normalize_eq (h.normalForm hne), normalForm_normalForm]

theorem normalize_valid (h : validateNpcAgentSpeechText text = true) :
    normalizeNpcAgentSpeech text = [] ∨
      validateNpcAgentSpeechText (normalizeNpcAgentSpeech text) = true := by
  obtain ⟨scalars, h⟩ := validateNpcAgentPlainText_iff.mp h
  rw [normalize_eq h]
  by_cases hne : normalForm scalars = []
  · rw [hne]
    exact .inl rfl
  · exact .inr (validateNpcAgentPlainText_iff.mpr ⟨_, h.normalForm hne⟩)

/-- The plain texts are the UTF-8 of allowed scalars within the limits, one of them visible, and the
decoder of the codec knows the same UTF-8. The normal form of a line is its own normal form and valid or
empty, and lines that differ in nothing that counts have the same. -/
theorem plain_text_exact :
    (∀ (text : Bytes) (maxBytes maxCharacters : ℕ) (lines : Bool),
      validateNpcAgentPlainText text maxBytes maxCharacters lines = true ↔
        ∃ scalars, PlainText maxBytes maxCharacters lines text scalars) ∧
    (∀ (value : Bytes) (maxBytes maxCharacters : ℕ) (plain lines : Bool),
      validText value maxBytes maxCharacters plain lines = true ↔
        ∃ scalars, Scanned (refusesText plain lines) value scalars ∧ value.length ≤ maxBytes ∧
          scalars.length ≤ maxCharacters) ∧
    (∀ text : Bytes,
      normalizeNpcAgentSpeech (normalizeNpcAgentSpeech text) = normalizeNpcAgentSpeech text) ∧
    (∀ text : Bytes, validateNpcAgentSpeechText text = true → normalizeNpcAgentSpeech text = [] ∨
      validateNpcAgentSpeechText (normalizeNpcAgentSpeech text) = true) ∧
    ∀ (text text' : Bytes) (scalars scalars' : List ℕ), PlainText 768 256 false text scalars →
      PlainText 768 256 false text' scalars' → Relation.EqvGen Differs scalars scalars' →
        normalizeNpcAgentSpeech text = normalizeNpcAgentSpeech text' := by
  refine ⟨fun _ _ _ _ => validateNpcAgentPlainText_iff, fun _ _ _ _ _ => validText_iff, normalize_idem,
    fun _ => normalize_valid, fun text text' scalars scalars' h h' hsame => ?_⟩
  rw [normalize_eq h, normalize_eq h', normalForm_eq_of_eqvGen hsame]

/-- A question and the same words. -/
theorem plain_text_exact_hi :
    (normalizeNpcAgentSpeech [0x68, 0x69] = [] ∨
      validateNpcAgentSpeechText (normalizeNpcAgentSpeech [0x68, 0x69]) = true) ∧
    normalizeNpcAgentSpeech [0x48, 0x69, 0x3F] = normalizeNpcAgentSpeech [0x68, 0x69] := by
  have hasked : PlainText 768 256 false [0x48, 0x69, 0x3F] [0x48, 0x69, 0x3F] :=
    ⟨⟨by decide, by decide, by decide⟩, by decide, by decide, 0x48, by decide, by decide⟩
  have hsaid : PlainText 768 256 false [0x68, 0x69] [0x68, 0x69] :=
    ⟨⟨by decide, by decide, by decide⟩, by decide, by decide, 0x68, by decide, by decide⟩
  have hletter : Differs [0x48, 0x69, 0x3F] [0x68, 0x69, 0x3F] :=
    .letter [] [0x69, 0x3F] (by decide)
  have hmark : Differs [0x68, 0x69, 0x3F] [0x68, 0x69] := .punctuation [0x68, 0x69] [] (by decide)
  have hvalid : validateNpcAgentSpeechText [0x68, 0x69] = true :=
    validateNpcAgentPlainText_iff.mpr ⟨_, hsaid⟩
  exact ⟨plain_text_exact.2.2.2.1 _ hvalid, plain_text_exact.2.2.2.2 _ _ _ _ hasked hsaid
    (.trans _ _ _ (.rel _ _ hletter) (.rel _ _ hmark))⟩

end AIWorld.Agent
