import AIWorld.Agent.NpcAgentMemory
import Mathlib.Data.Nat.PSub

/-! The feedback on an action: how it ended, and what was chosen, in one short text. A text that is too long is cut
in front of a character. Subtractions of sizes that would wrap around have no value here. -/

namespace AIWorld.Agent

open Lib
open Lib.Json (Bytes ascii)
open NpcAgentMemoryStore (backToCharacter)
open Inference (validText refusesText)

def isSafe (value : Bytes) : Bool := validateNpcAgentPlainText value value.length value.length false

/-- Both callers leave room for the three dots. -/
def shorten (value : Bytes) (budget : ℕ) : Option Bytes :=
  if value.length ≤ budget then some value
  else (Nat.psub budget 3).map fun last => value.take (backToCharacter value last) ++ ascii "..."

def npcAgentActionFeedback (outcome choice : Bytes) : Option Bytes := do
  let outcome := if !isSafe outcome then ascii "UNKNOWN_RESULT" else outcome
  let choice := if !choice.isEmpty && !isSafe choice then ascii "UNKNOWN_CHOICE" else choice
  if choice.isEmpty then shorten outcome 128
  else
    let result ← shorten outcome (128 / 2)
    let room ← Nat.psub 128 result.length
    let choiceBudget ← Nat.psub room 3
    let chosen ← shorten choice choiceBudget
    some (result ++ ascii " [" ++ chosen ++ ascii "]")

/-! ### Cutting in front of a character -/

theorem continues_iff (b : UInt8) : b &&& 0xC0 = 0x80 ↔ Utf8.Continues b := by
  have hall : ∀ n < 256, n &&& 192 = 128 ↔ n / 64 = 2 := by decide +kernel
  rw [← UInt8.toNat_inj, UInt8.toNat_and]
  exact hall b.toNat b.toNat_lt

/-- Going back stops at the last byte that begins a character. -/
theorem backToCharacter_eq {a : Bytes} {first last : ℕ} (hle : first ≤ last)
    (hstart : first = 0 ∨ ¬a[first]?.any (fun c => c &&& 0xC0 = 0x80))
    (hinside : ∀ i, first < i → i ≤ last → a[i]?.any (fun c => c &&& 0xC0 = 0x80) = true) :
    backToCharacter a last = first := by
  induction last with
  | zero =>
    obtain rfl : first = 0 := Nat.le_zero.mp hle
    rfl
  | succ last ih =>
    rw [backToCharacter]
    obtain rfl | hlt := hle.eq_or_lt
    · rw [if_neg (hstart.resolve_left (Nat.succ_ne_zero last))]
    · rw [if_pos (hinside _ hlt le_rfl)]
      exact ih (Nat.lt_succ_iff.mp hlt) fun i hfirst hi => hinside i hfirst (Nat.le_succ_of_le hi)

/-- A place inside a text lies in one of its characters. -/
theorem exists_character {cs : List ℕ} {n : ℕ} (h : n < (Utf8.encodeAll cs).length) : ∃ front c rest,
    cs = front ++ c :: rest ∧ (Utf8.encodeAll front).length ≤ n ∧
      n < (Utf8.encodeAll front).length + (Utf8.encode c).length := by
  induction cs generalizing n with
  | nil => simp at h
  | cons c cs ih =>
    rw [Utf8.encodeAll_cons, List.length_append] at h
    by_cases hc : n < (Utf8.encode c).length
    · exact ⟨[], c, cs, rfl, Nat.zero_le n, by simpa using hc⟩
    · obtain ⟨front, d, rest, rfl, hle, hlt⟩ := ih (n := n - (Utf8.encode c).length) (by omega)
      refine ⟨c :: front, d, rest, rfl, ?_, ?_⟩ <;> rw [Utf8.encodeAll_cons, List.length_append] <;> omega

/-- A cut is made at the end of a character, and no later one would do. -/
theorem backToCharacter_encodeAll {cs : List ℕ} (hcs : ∀ c ∈ cs, Utf8.IsScalar c) {n : ℕ}
    (h : n < (Utf8.encodeAll cs).length) : ∃ front c rest, cs = front ++ c :: rest ∧
      (Utf8.encodeAll cs).take (backToCharacter (Utf8.encodeAll cs) n) = Utf8.encodeAll front ∧
      (Utf8.encodeAll front).length ≤ n ∧ n < (Utf8.encodeAll front).length + (Utf8.encode c).length := by
  obtain ⟨front, c, rest, rfl, hle, hlt⟩ := exists_character h
  obtain ⟨b, tail, hc, hb, htail⟩ := Utf8.encode_eq_cons (hcs c (by simp))
  have hsplit : Utf8.encodeAll (front ++ c :: rest) =
      Utf8.encodeAll front ++ (b :: tail ++ Utf8.encodeAll rest) := by
    rw [Utf8.encodeAll_append, Utf8.encodeAll_cons, hc]
  have hlength : (Utf8.encode c).length = tail.length + 1 := by rw [hc, List.length_cons]
  have hback : backToCharacter (Utf8.encodeAll (front ++ c :: rest)) n = (Utf8.encodeAll front).length := by
    refine backToCharacter_eq hle (.inr ?_) fun i hfirst hi => ?_
    · rw [hsplit, List.getElem?_append_right le_rfl, Nat.sub_self]
      simpa [continues_iff] using hb
    · obtain ⟨j, rfl⟩ : ∃ j, i = (Utf8.encodeAll front).length + (j + 1) :=
        ⟨i - (Utf8.encodeAll front).length - 1, by omega⟩
      have hj : j < tail.length := by omega
      rw [hsplit, List.getElem?_append_right (Nat.le_add_right _ _), Nat.add_sub_cancel_left, List.cons_append,
        List.getElem?_cons_succ, List.getElem?_append_left hj, List.getElem?_eq_getElem hj]
      simpa [continues_iff] using htail _ (List.getElem_mem hj)
  refine ⟨front, c, rest, rfl, ?_, hle, hlt⟩
  rw [hback, hsplit, List.take_left]

/-! ### Texts that can be sent -/

/-- A plain text of any length. -/
def IsPlain (text : Bytes) : Prop := ∃ scalars, PlainText text.length text.length false text scalars

theorem isSafe_iff {text : Bytes} : isSafe text = true ↔ IsPlain text := validateNpcAgentPlainText_iff

theorem isPlain_of {text : Bytes} {scalars : List ℕ} (h : Scanned (refusesPlain false) text scalars)
    (hvisible : ∃ c ∈ scalars, isVisible false c = true) : IsPlain text := by
  refine ⟨scalars, h, le_rfl, ?_, hvisible⟩
  rw [h.spelled]
  exact Utf8.length_le_encodeAll scalars

theorem Scanned.append {refuses : ℕ → Bool} {s t : Bytes} {cs ds : List ℕ} (hs : Scanned refuses s cs)
    (ht : Scanned refuses t ds) : Scanned refuses (s ++ t) (cs ++ ds) where
  spelled := by rw [Utf8.encodeAll_append, ← hs.spelled, ← ht.spelled]
  isScalar c hc := (List.mem_append.mp hc).elim (hs.isScalar c) (ht.isScalar c)
  admitted c hc := (List.mem_append.mp hc).elim (hs.admitted c) (ht.admitted c)

theorem Scanned.front {refuses : ℕ → Bool} {t : Bytes} {cs ds : List ℕ} (h : Scanned refuses t (cs ++ ds)) :
    Scanned refuses (Utf8.encodeAll cs) cs where
  spelled := rfl
  isScalar c hc := h.isScalar c (List.mem_append_left _ hc)
  admitted c hc := h.admitted c (List.mem_append_left _ hc)

theorem IsPlain.append_scanned {s t : Bytes} {ds : List ℕ} (hs : IsPlain s)
    (ht : Scanned (refusesPlain false) t ds) : IsPlain (s ++ t) := by
  obtain ⟨cs, hplain⟩ := hs
  obtain ⟨c, hc, hvisible⟩ := hplain.visible
  exact isPlain_of (hplain.toScanned.append ht) ⟨c, List.mem_append_left _ hc, hvisible⟩

theorem IsPlain.append {s t : Bytes} (hs : IsPlain s) (ht : IsPlain t) : IsPlain (s ++ t) := by
  obtain ⟨ds, hplain⟩ := ht
  exact hs.append_scanned hplain.toScanned

/-- A short plain text is one for every check of a feedback. -/
theorem IsPlain.sendable {text : Bytes} (h : IsPlain text) (hlength : text.length ≤ 128) :
    validateNpcAgentPlainText text 128 128 false = true ∧ validateNpcAgentSpeechText text = true ∧
      validText text 256 128 true false = true := by
  obtain ⟨scalars, hplain⟩ := h
  have hbytes := hplain.bytes
  have hcharacters := hplain.characters
  refine ⟨validateNpcAgentPlainText_iff.mpr ⟨scalars, hplain.toScanned, hlength, by omega, hplain.visible⟩,
    validateNpcAgentPlainText_iff.mpr ⟨scalars, hplain.toScanned, by omega, by omega, hplain.visible⟩, ?_⟩
  have hrefuses : Scanned (refusesText true false) text scalars := by
    refine ⟨hplain.spelled, hplain.isScalar, fun c hc => ?_⟩
    have hadmitted := hplain.admitted c hc
    simp only [refusesPlain, refusesText, isAuthoredWhitespace, Bool.false_and, Bool.not_false, Bool.true_and,
      Bool.or_eq_false_iff] at hadmitted ⊢
    exact ⟨⟨hadmitted.1.1.1.1.1.1, hadmitted.1.1.1.1.1.2⟩, hadmitted.1.1.1.1.2⟩
  rw [validText, if_neg (by omega), scanScalars_complete false hrefuses (by omega) le_rfl]
  rfl

/-! ### What is shown of a text -/

/-- All of a text, or as much of it as leaves room for three dots. -/
def Shown (budget : ℕ) (value shown : Bytes) : Prop :=
  value.length ≤ budget ∧ shown = value ∨
    budget < value.length ∧ ∃ front c rest, value = Utf8.encodeAll (front ++ c :: rest) ∧
      shown = Utf8.encodeAll front ++ ascii "..." ∧ shown.length ≤ budget ∧
      budget < shown.length + (Utf8.encode c).length

theorem scanned_dots : Scanned (refusesPlain false) (ascii "...") [0x2E, 0x2E, 0x2E] := ⟨by decide, by decide, by decide⟩

theorem isPlain_dots : IsPlain (ascii "...") := isPlain_of scanned_dots ⟨0x2E, by decide⟩

theorem Shown.length_le {budget : ℕ} {value shown : Bytes} (h : Shown budget value shown) : shown.length ≤ budget := by
  obtain ⟨hle, rfl⟩ | ⟨-, _, _, _, -, -, hle, -⟩ := h <;> exact hle

theorem shorten_spec {value : Bytes} {budget : ℕ} (h : IsPlain value) (hbudget : 3 ≤ budget) :
    ∃ shown, shorten value budget = some shown ∧ Shown budget value shown ∧ IsPlain shown := by
  unfold shorten
  split_ifs with hfits
  · exact ⟨value, rfl, .inl ⟨hfits, rfl⟩, h⟩
  · obtain ⟨scalars, hplain⟩ := h
    have hlong : budget - 3 < (Utf8.encodeAll scalars).length := by
      rw [← hplain.spelled]
      omega
    have hlast : Nat.psub budget 3 = some (budget - 3) := Nat.psub_eq_some.mpr (by omega)
    obtain ⟨front, c, rest, rfl, htake, hle, hlt⟩ := backToCharacter_encodeAll hplain.isScalar hlong
    rw [← hplain.spelled] at htake
    have hlength : (Utf8.encodeAll front ++ ascii "...").length = (Utf8.encodeAll front).length + 3 := by
      rw [List.length_append]
      rfl
    refine ⟨Utf8.encodeAll front ++ ascii "...", ?_, .inr ⟨by omega, front, c, rest, hplain.spelled, rfl, ?_⟩, ?_⟩
    · rw [hlast, Option.map_some, htake]
    · rw [hlength]
      omega
    · exact isPlain_of (hplain.toScanned.front.append scanned_dots)
        ⟨0x2E, List.mem_append_right _ List.mem_cons_self, by decide⟩

/-! ### The feedback -/

/-- What stands for a text that is no plain text. -/
def named (unknown : String) (value : Bytes) : Bytes := if isSafe value then value else ascii unknown

theorem isPlain_named {unknown : String} (h : isSafe (ascii unknown) = true) (value : Bytes) :
    IsPlain (named unknown value) := by
  unfold named
  split_ifs with hsafe
  · exact isSafe_iff.mp hsafe
  · exact isSafe_iff.mp h

/-- Whatever happened and whatever was chosen, the feedback can be sent, and it tells both. -/
theorem npcAgentActionFeedback_sendable (outcome choice : Bytes) :
    ∃ feedback, npcAgentActionFeedback outcome choice = some feedback ∧ feedback.length ≤ 128 ∧
      validateNpcAgentPlainText feedback 128 128 false = true ∧ validateNpcAgentSpeechText feedback = true ∧
      validText feedback 256 128 true false = true ∧
      (choice = [] → Shown 128 (named "UNKNOWN_RESULT" outcome) feedback) ∧
      (choice ≠ [] → ∃ result chosen, Shown 64 (named "UNKNOWN_RESULT" outcome) result ∧
        Shown (125 - result.length) (named "UNKNOWN_CHOICE" choice) chosen ∧
        feedback = result ++ ascii " [" ++ chosen ++ ascii "]") := by
  have houtcome : (if !isSafe outcome then ascii "UNKNOWN_RESULT" else outcome) = named "UNKNOWN_RESULT" outcome := by
    unfold named
    cases isSafe outcome <;> rfl
  have hresult : IsPlain (named "UNKNOWN_RESULT" outcome) := isPlain_named (by decide +kernel) outcome
  unfold npcAgentActionFeedback
  rw [houtcome]
  obtain rfl | hne := eq_or_ne choice []
  · obtain ⟨feedback, hshorten, hshown, hplain⟩ := shorten_spec hresult (by omega : 3 ≤ 128)
    obtain ⟨htext, hspeech, hcodec⟩ := hplain.sendable hshown.length_le
    exact ⟨feedback, hshorten, hshown.length_le, htext, hspeech, hcodec, fun _ => hshown, fun h => absurd rfl h⟩
  · have hchoice : (if !choice.isEmpty && !isSafe choice then ascii "UNKNOWN_CHOICE" else choice) =
        named "UNKNOWN_CHOICE" choice := by
      unfold named
      rw [List.isEmpty_eq_false_iff.mpr hne]
      cases isSafe choice <;> rfl
    have hplainChoice : IsPlain (named "UNKNOWN_CHOICE" choice) := isPlain_named (by decide +kernel) choice
    have hnonempty : (named "UNKNOWN_CHOICE" choice).isEmpty = false := by
      obtain ⟨scalars, hplain⟩ := hplainChoice
      exact List.isEmpty_eq_false_iff.mpr hplain.ne_nil
    obtain ⟨result, hshortenResult, hshownResult, hplainResult⟩ := shorten_spec hresult (by omega : 3 ≤ 128 / 2)
    have hroom := hshownResult.length_le
    obtain ⟨chosen, hshortenChosen, hshownChosen, hplainChosen⟩ :=
      shorten_spec hplainChoice (by omega : 3 ≤ 125 - result.length)
    have hused := hshownChosen.length_le
    have hrest : Nat.psub 128 result.length = some (128 - result.length) := Nat.psub_eq_some.mpr (by omega)
    have hbudget : Nat.psub (128 - result.length) 3 = some (125 - result.length) := Nat.psub_eq_some.mpr (by omega)
    have hopen : Scanned (refusesPlain false) (ascii " [") [0x20, 0x5B] := ⟨by decide, by decide, by decide⟩
    have hclose : Scanned (refusesPlain false) (ascii "]") [0x5D] := ⟨by decide, by decide, by decide⟩
    have hplain : IsPlain (result ++ ascii " [" ++ chosen ++ ascii "]") :=
      ((hplainResult.append_scanned hopen).append hplainChosen).append_scanned hclose
    have hlength : (result ++ ascii " [" ++ chosen ++ ascii "]").length ≤ 128 := by
      have hbrackets : (ascii " [").length + (ascii "]").length = 3 := rfl
      simp only [List.length_append]
      omega
    obtain ⟨htext, hspeech, hcodec⟩ := hplain.sendable hlength
    refine ⟨_, ?_, hlength, htext, hspeech, hcodec, fun h => absurd h hne,
      fun _ => ⟨result, chosen, hshownResult, hshownChosen, rfl⟩⟩
    rw [hchoice]
    simp only [hnonempty, Bool.false_eq_true, if_false, hshortenResult, hrest, hbudget, hshortenChosen,
      Option.bind_eq_bind, Option.bind_some]

end AIWorld.Agent
