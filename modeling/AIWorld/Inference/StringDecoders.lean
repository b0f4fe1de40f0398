import AIWorld.Agent.NpcAgentProfile

/-! The three decoders of string literals on one literal. The cursor and the profile parser join the halves of
a surrogate pair; the decoder of the dynamic tasks writes each half as a code unit of its own, which is
the text itself as long as no pair stands in the literal. -/

namespace AIWorld.Inference

open Lib Lib.Json
open Agent (ProfileParser.string ProfileParser.string_of_cursor)

variable {t lit : Bytes} {cs : List ℕ} {marked : List (ℕ × Bool)}

/-! ### Code units -/

theorem encodeCodepoint_eq {n : ℕ} (h : n < 0x10000) : encodeCodepoint n = Utf8.encode n := by
  unfold encodeCodepoint
  split_ifs with h₁ h₂
  · rw [Utf8.encode_of_lt (by omega)]
  · exact Utf8.encode_two_bits (by omega) (by omega)
  · exact Utf8.encode_three_bits (by omega) h

/-- The two halves of a scalar past the first plane, each in the bytes of a scalar of its own. -/
def halves (c : ℕ) : Bytes :=
  Utf8.encode (0xD800 + (c - 0x10000) / 0x400) ++ Utf8.encode (0xDC00 + (c - 0x10000) % 0x400)

/-- What stands between the quotes, its scalars, and which of them are written as a pair. -/
inductive Marked : Bytes → List (ℕ × Bool) → Prop
  | nil : Marked [] []
  | plain {c : ℕ} {t : Bytes} {marked : List (ℕ × Bool)} (hc : Utf8.IsScalar c) (hcontrol : 0x20 ≤ c)
      (hquote : c ≠ 0x22) (hescape : c ≠ 0x5C) (ht : Marked t marked) :
      Marked (Utf8.encode c ++ t) ((c, false) :: marked)
  | escape {c : ℕ} {e t : Bytes} {marked : List (ℕ × Bool)} (he : Escape e c) (ht : Marked t marked) :
      Marked (backslash :: (e ++ t)) ((c, decide (0x10000 ≤ c)) :: marked)

theorem exists_marked (h : Body t cs) : ∃ marked, Marked t marked ∧ marked.map Prod.fst = cs := by
  induction h with
  | nil => exact ⟨[], .nil, rfl⟩
  | plain hc hcontrol hquote hescape _ ih =>
    obtain ⟨marked, hmarked, rfl⟩ := ih
    exact ⟨_, .plain hc hcontrol hquote hescape hmarked, rfl⟩
  | escape he _ ih =>
    obtain ⟨marked, hmarked, rfl⟩ := ih
    exact ⟨_, .escape he hmarked, rfl⟩

/-- What the decoder of the dynamic tasks makes of a scalar. -/
def unpaired (m : ℕ × Bool) : Bytes := if m.2 then halves m.1 else Utf8.encode m.1

theorem chars_plain {bs s : Bytes} (h : ∀ b ∈ bs, 0x20 ≤ b ∧ b ≠ quote ∧ b ≠ backslash)
    (ht : Chars encodeCodepoint t s) : Chars encodeCodepoint (bs ++ t) (bs ++ s) := by
  induction bs with
  | nil => exact ht
  | cons b bs ih =>
    obtain ⟨⟨hcontrol, hquote, hescape⟩, hrest⟩ := List.forall_mem_cons.mp h
    exact .plain hcontrol hquote hescape (ih hrest)

theorem chars_escape {e s : Bytes} {c : ℕ} (he : Escape e c) (ht : Chars encodeCodepoint t s) :
    Chars encodeCodepoint (backslash :: (e ++ t)) (unpaired (c, decide (0x10000 ≤ c)) ++ s) := by
  cases he with
  | @short c d hc =>
    have hlt := shortEscape_lt hc
    have hbyte : unpaired (d.toNat, decide (0x10000 ≤ d.toNat)) = [d] := by
      rw [unpaired, if_neg (by simp; omega), Utf8.encode_of_lt hlt]
      simp
    rw [hbyte]
    exact .short hc ht
  | unicode hn hscalar =>
    have hlt := hexNumber_lt hn
    rw [unpaired, if_neg (by simp; omega), ← encodeCodepoint_eq hlt]
    exact .unicode hn ht
  | @pair c₁ c₂ c₃ c₄ d₁ d₂ d₃ d₄ high low hhigh hlow hhigh' hlow' =>
    have hhalves : unpaired (0x10000 + (high - 0xD800) * 0x400 + (low - 0xDC00),
        decide (0x10000 ≤ 0x10000 + (high - 0xD800) * 0x400 + (low - 0xDC00))) =
        encodeCodepoint high ++ encodeCodepoint low := by
      have hfirst : 0xD800 + (0x10000 + (high - 0xD800) * 0x400 + (low - 0xDC00) - 0x10000) / 0x400 = high := by
        omega
      have hlast : 0xDC00 + (0x10000 + (high - 0xD800) * 0x400 + (low - 0xDC00) - 0x10000) % 0x400 = low := by
        omega
      rw [unpaired, if_pos (decide_eq_true (by omega)), halves, hfirst, hlast, encodeCodepoint_eq (hexNumber_lt hhigh),
        encodeCodepoint_eq (hexNumber_lt hlow)]
    rw [hhalves, List.append_assoc]
    exact .unicode hhigh (.unicode hlow ht)

theorem Marked.chars (h : Marked t marked) : Chars encodeCodepoint t (marked.flatMap unpaired) := by
  induction h with
  | nil => exact .nil
  | plain hc hcontrol hquote hescape _ ih =>
    exact chars_plain (plain_of_mem_encode hc hcontrol hquote hescape) ih
  | escape he _ ih => exact chars_escape he ih

/-! ### Pairs -/

theorem Marked.paired (h : Marked t marked) : ∀ m ∈ marked, m.2 = true → 0x10000 ≤ m.1 ∧ m.1 ≤ 0x10FFFF := by
  induction h with
  | nil => simp
  | plain _ _ _ _ _ ih => exact List.forall_mem_cons.mpr ⟨by simp, ih⟩
  | escape he _ ih =>
    exact List.forall_mem_cons.mpr ⟨fun hpair => ⟨of_decide_eq_true hpair, he.isScalar.1⟩, ih⟩

/-- The two halves take six bytes, and the scalar four. -/
theorem length_halves {c : ℕ} (h : 0x10000 ≤ c ∧ c ≤ 0x10FFFF) :
    (halves c).length = (Utf8.encode c).length + 2 := by
  unfold halves Utf8.encode
  rw [if_neg (by omega), if_neg (by omega), if_pos (by omega), if_neg (by omega), if_neg (by omega),
    if_pos (by omega), if_neg (by omega), if_neg (by omega), if_neg (by omega)]
  simp

theorem length_unpaired (h : ∀ m ∈ marked, m.2 = true → 0x10000 ≤ m.1 ∧ m.1 ≤ 0x10FFFF) :
    (marked.flatMap unpaired).length =
      (Utf8.encodeAll (marked.map Prod.fst)).length + 2 * marked.countP (·.2) := by
  induction marked with
  | nil => rfl
  | cons m marked ih =>
    obtain ⟨hm, hrest⟩ := List.forall_mem_cons.mp h
    have hlength := ih hrest
    rw [List.flatMap_cons, List.length_append, hlength, List.map_cons, Utf8.encodeAll_cons, List.length_append,
      List.countP_cons]
    unfold unpaired
    split_ifs with hpair
    · rw [length_halves (hm hpair)]
      omega
    · omega

theorem unpaired_eq_iff (h : Marked t marked) :
    marked.flatMap unpaired = Utf8.encodeAll (marked.map Prod.fst) ↔ ∀ m ∈ marked, m.2 = false := by
  constructor
  · intro heq m hm
    have hlength := length_unpaired h.paired
    rw [heq] at hlength
    have hcount : marked.countP (·.2) = 0 := by omega
    simpa using List.countP_eq_zero.mp hcount m hm
  · intro hnone
    have heach : ∀ m ∈ marked, unpaired m = Utf8.encode m.1 := fun m hm => by
      simp [unpaired, hnone m hm]
    rw [Utf8.encodeAll, List.flatMap_map]
    exact List.flatMap_congr heach

/-! ### The three decoders -/

/-- A literal is read as its text by the cursor and the profile parser. The decoder of the dynamic tasks
accepts it as well; its text is the same exactly where no scalar is written as a pair, and a pair is
two code units to it. -/
theorem string_decoders (h : IsLiteral lit cs) (hlimit : (Utf8.encodeAll cs).length ≤ npcAgentResponseBodyLimit)
    (rest : Bytes) :
    JsonCursor.string (lit ++ rest) = some (Utf8.encodeAll cs, rest) ∧
    ProfileParser.string (lit ++ rest) = some (Utf8.encodeAll cs, rest) ∧
    ∃ body marked, lit = quote :: (body ++ [quote]) ∧ Marked body marked ∧ marked.map Prod.fst = cs ∧
      unescapeJsonString lit = some (marked.flatMap unpaired) ∧
      (unescapeJsonString lit = some (Utf8.encodeAll cs) ↔ ∀ m ∈ marked, m.2 = false) := by
  have hcursor : JsonCursor.string (lit ++ rest) = some (Utf8.encodeAll cs, rest) :=
    JsonCursor.string_iff.mpr ⟨[], lit, cs, by simp [White], rfl, h, rfl, hlimit⟩
  obtain ⟨body, rfl, hbody⟩ := h
  obtain ⟨marked, hmarked, rfl⟩ := exists_marked hbody
  have hunescape : unescapeJsonString (quote :: (body ++ [quote])) = some (marked.flatMap unpaired) :=
    unescapeJsonString_eq ⟨body, rfl, hmarked.chars⟩
  refine ⟨hcursor, ProfileParser.string_of_cursor hcursor, body, marked, rfl, hmarked, rfl, hunescape, ?_⟩
  rw [hunescape, Option.some.injEq]
  exact unpaired_eq_iff hmarked

/-- `"\ud83d\ude00"`, an emoji outside the first plane. -/
def pairLiteral : Bytes := quote :: (ascii "\\ud83d\\ude00" ++ [quote])

theorem pairLiteral_isLiteral : IsLiteral pairLiteral [0x1F600] := by
  have hhigh : hexNumber 'd'.toUInt8 '8'.toUInt8 '3'.toUInt8 'd'.toUInt8 = some 0xD83D := by decide
  have hlow : hexNumber 'd'.toUInt8 'e'.toUInt8 '0'.toUInt8 '0'.toUInt8 = some 0xDE00 := by decide
  have hpair := Escape.pair hhigh hlow (by decide) (by decide)
  exact ⟨ascii "\\ud83d\\ude00", rfl, .escape hpair .nil⟩

theorem string_decoders_pair :
    (Utf8.encodeAll [0x1F600]).length ≤ npcAgentResponseBodyLimit ∧
    JsonCursor.string pairLiteral = some (Utf8.encodeAll [0x1F600], []) := by
  have hlimit : (Utf8.encodeAll [0x1F600]).length ≤ npcAgentResponseBodyLimit := by decide
  exact ⟨hlimit, (string_decoders pairLiteral_isLiteral hlimit []).1⟩

/-- The decoder of the dynamic tasks does not join a pair. -/
theorem pair_not_joined : IsLiteral pairLiteral [0x1F600] ∧
    unescapeJsonString pairLiteral = some [0xED, 0xA0, 0xBD, 0xED, 0xB8, 0x80] ∧
    Utf8.encodeAll [0x1F600] = [0xF0, 0x9F, 0x98, 0x80] :=
  ⟨pairLiteral_isLiteral, by decide +kernel, by decide +kernel⟩

end AIWorld.Inference
