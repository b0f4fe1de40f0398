import AIWorld.Inference.NpcAgentJsonCodec
import AIWorld.Agent.SpeechNormalForm
import AIWorld.Lib.Json.Decimal
import AIWorld.Lib.Json.Literal

/-! The tokens of the cursor. White space is passed over, a string is read exactly where a literal
stands, and a number exactly where its decimal form does; what was quoted is read back. -/

namespace AIWorld.Inference.JsonCursor

open Lib Lib.Json
open Agent (validText_iff)

variable {t s rest w : Bytes} {c d : UInt8} {cs : List ℕ}

/-! ### White space -/

theorem space_append (hw : White w) (hrest : Ends isWhite rest) : space (w ++ rest) = rest := by
  rw [space, List.dropWhile_append_of_pos hw]
  cases rest with
  | nil => rfl
  | cons c rest => exact List.dropWhile_cons_of_neg (by simp [hrest c rfl])

theorem space_cons (hw : White w) (hc : isWhite c = false) : space (w ++ c :: rest) = c :: rest :=
  space_append hw (ends_cons hc rest)

theorem space_spec (t : Bytes) : ∃ w, White w ∧ t = w ++ space t :=
  ⟨t.takeWhile isWhite, fun _ hc => List.all_eq_true.mp List.all_takeWhile _ hc,
    List.takeWhile_append_dropWhile.symm⟩

theorem take_eq (hw : White w) (hc : isWhite c = false) : take c (w ++ c :: rest) = some rest := by
  rw [take, space_cons hw hc]
  exact if_pos rfl

theorem take_ne (hw : White w) (hd : isWhite d = false) (hne : d ≠ c) : take c (w ++ d :: rest) = none := by
  rw [take, space_cons hw hd]
  exact if_neg hne

theorem take_sound (h : take c t = some rest) : ∃ w, White w ∧ t = w ++ c :: rest := by
  obtain ⟨w, hw, ht⟩ := space_spec t
  unfold take at h
  cases hspace : space t with
  | nil => simp [hspace] at h
  | cons b t' =>
    simp only [hspace] at h
    split_ifs at h with hb
    cases h
    exact ⟨w, hw, by rw [ht, hspace, hb]⟩

/-! ### Escapes -/

theorem hex4_eq_some {n : ℕ} : hex4 t = some (n, rest) ↔
    ∃ c₁ c₂ c₃ c₄, t = c₁ :: c₂ :: c₃ :: c₄ :: rest ∧ hexNumber c₁ c₂ c₃ c₄ = some n := by
  unfold hex4
  constructor
  · intro h
    split at h
    · obtain ⟨m, hm, heq⟩ := Option.map_eq_some_iff.mp h
      cases heq
      exact ⟨_, _, _, _, rfl, hm⟩
    · contradiction
  · rintro ⟨c₁, c₂, c₃, c₄, rfl, h⟩
    simp [h]

theorem lowSurrogate_eq_some {n : ℕ} : lowSurrogate t = some (n, rest) ↔
    ∃ c₁ c₂ c₃ c₄, t = backslash :: 'u'.toUInt8 :: c₁ :: c₂ :: c₃ :: c₄ :: rest ∧
      hexNumber c₁ c₂ c₃ c₄ = some n ∧ 0xDC00 ≤ n ∧ n ≤ 0xDFFF := by
  unfold lowSurrogate
  constructor
  · intro h
    split at h
    · split_ifs at h with hu
      obtain ⟨⟨m, t⟩, hm, h⟩ := Option.bind_eq_some_iff.mp h
      dsimp only at h
      split_ifs at h with hrange
      cases h
      obtain ⟨c₁, c₂, c₃, c₄, rfl, hn⟩ := hex4_eq_some.mp hm
      exact ⟨c₁, c₂, c₃, c₄, by rw [hu.1, hu.2], hn, by omega, by omega⟩
    · contradiction
  · rintro ⟨c₁, c₂, c₃, c₄, rfl, hn, hlow⟩
    have hhex : hex4 (c₁ :: c₂ :: c₃ :: c₄ :: rest) = some (n, rest) := hex4_eq_some.mpr ⟨_, _, _, _, rfl, hn⟩
    simp only [and_self, if_true, hhex, Option.bind_some]
    rw [if_neg (by omega)]

theorem escape_sound (h : escape t = some (s, rest)) :
    ∃ e n, t = e ++ rest ∧ Escape e n ∧ s = Utf8.encode n := by
  unfold escape at h
  split at h
  · contradiction
  next c t =>
    split at h
    next d hshort =>
      cases h
      refine ⟨[c], d.toNat, rfl, .short hshort, ?_⟩
      rw [Utf8.encode_of_lt (shortEscape_lt hshort)]
      simp
    next =>
      split_ifs at h with hu
      subst hu
      unfold unicodeEscape at h
      obtain ⟨⟨cp, t'⟩, hcp, hread⟩ := Option.bind_eq_some_iff.mp h
      obtain ⟨c₁, c₂, c₃, c₄, rfl, hn⟩ := hex4_eq_some.mp hcp
      dsimp only at hread
      split_ifs at hread with hhigh hlow
      · obtain ⟨⟨low, t''⟩, hlow, heq⟩ := Option.map_eq_some_iff.mp hread
        obtain ⟨rfl, rfl⟩ := Prod.mk.inj heq
        obtain ⟨d₁, d₂, d₃, d₄, rfl, hn', hrange⟩ := lowSurrogate_eq_some.mp hlow
        have hvalue : 0x10000 + (cp - 0xD800) * 0x400 + low - 0xDC00 =
            0x10000 + (cp - 0xD800) * 0x400 + (low - 0xDC00) := by omega
        rw [hvalue]
        exact ⟨_, _, rfl, .pair hn hn' hhigh hrange, rfl⟩
      · cases hread
        exact ⟨_, _, rfl, .unicode hn (by omega), rfl⟩

theorem escape_complete {e : Bytes} {n : ℕ} (h : Escape e n) : escape (e ++ rest) = some (Utf8.encode n, rest) := by
  cases h with
  | @short c d h =>
    have hencode : Utf8.encode d.toNat = [d] := by
      rw [Utf8.encode_of_lt (shortEscape_lt h)]
      simp
    simp [escape, h, hencode]
  | @unicode c₁ c₂ c₃ c₄ n h hn =>
    have hu : shortEscape 'u'.toUInt8 = none := by decide
    have hhex : hex4 (c₁ :: c₂ :: c₃ :: c₄ :: rest) = some (n, rest) := hex4_eq_some.mpr ⟨_, _, _, _, rfl, h⟩
    simp only [escape, List.cons_append, List.nil_append, hu, if_true, unicodeEscape, hhex, Option.bind_some]
    rw [if_neg (by omega), if_neg (by omega)]
  | @pair c₁ c₂ c₃ c₄ d₁ d₂ d₃ d₄ high low h h' hhigh hlow =>
    have hu : shortEscape 'u'.toUInt8 = none := by decide
    have hhex : hex4 (c₁ :: c₂ :: c₃ :: c₄ :: backslash :: 'u'.toUInt8 :: d₁ :: d₂ :: d₃ :: d₄ :: rest) =
        some (high, backslash :: 'u'.toUInt8 :: d₁ :: d₂ :: d₃ :: d₄ :: rest) :=
      hex4_eq_some.mpr ⟨_, _, _, _, rfl, h⟩
    have hlow' : lowSurrogate (backslash :: 'u'.toUInt8 :: d₁ :: d₂ :: d₃ :: d₄ :: rest) = some (low, rest) :=
      lowSurrogate_eq_some.mpr ⟨_, _, _, _, rfl, h', hlow⟩
    have hvalue : 0x10000 + (high - 0xD800) * 0x400 + low - 0xDC00 =
        0x10000 + (high - 0xD800) * 0x400 + (low - 0xDC00) := by omega
    simp only [escape, List.cons_append, List.nil_append, hu, if_true, unicodeEscape, hhex, Option.bind_some]
    rw [if_pos hhigh, hlow', Option.map_some, hvalue]

/-! ### Strings -/

/-- A string of well-formed UTF-8 within the limit. -/
def Fits (s : Bytes) : Prop :=
  validText s npcAgentResponseBodyLimit npcAgentResponseBodyLimit false false = true

theorem fits_iff : Fits s ↔ ∃ cs, (∀ c ∈ cs, Utf8.IsScalar c) ∧ s = Utf8.encodeAll cs ∧
    s.length ≤ npcAgentResponseBodyLimit := by
  unfold Fits
  rw [validText_iff]
  constructor
  · rintro ⟨cs, hscanned, hbytes, -⟩
    exact ⟨cs, hscanned.isScalar, hscanned.spelled, hbytes⟩
  · rintro ⟨cs, hcs, rfl, hbytes⟩
    exact ⟨cs, ⟨rfl, hcs, fun c _ => rfl⟩, hbytes, (Utf8.length_le_encodeAll cs).trans hbytes⟩

theorem stringLoop_sound {fuel : ℕ} {candidate : Bytes} (h : stringLoop fuel t candidate = some (s, rest)) :
    ∃ body more, t = body ++ quote :: rest ∧ Pieces body more ∧ s = candidate ++ more ∧ Fits s := by
  fun_induction stringLoop fuel t candidate with
  | case1 | case2 => contradiction
  | case3 fuel t candidate hfits =>
    cases h
    exact ⟨[], [], rfl, .nil, by simp, hfits⟩
  | case4 => contradiction
  | case5 => contradiction
  | case6 fuel c t candidate hquote hcontrol hescape ih =>
    obtain ⟨body, more, rfl, hpieces, rfl, hfits⟩ := ih h
    refine ⟨c :: body, c :: more, rfl, .plain (UInt8.not_lt.mp hcontrol) hquote hescape hpieces, ?_, hfits⟩
    simp
  | case7 fuel c t candidate hquote hcontrol hescape ih =>
    obtain ⟨⟨added, t'⟩, hread, hloop⟩ := Option.bind_eq_some_iff.mp h
    obtain ⟨e, n, rfl, he, rfl⟩ := escape_sound hread
    obtain ⟨body, more, rfl, hpieces, rfl, hfits⟩ := ih _ _ hloop
    refine ⟨backslash :: (e ++ body), Utf8.encode n ++ more, ?_, .escape he hpieces, ?_, hfits⟩
    · rw [not_not.mp hescape]
      simp
    · simp

theorem stringLoop_complete {fuel : ℕ} {candidate body more : Bytes} (h : Pieces body more)
    (hfuel : (body ++ quote :: rest).length ≤ fuel) (hfits : Fits (candidate ++ more)) :
    stringLoop fuel (body ++ quote :: rest) candidate = some (candidate ++ more, rest) := by
  induction h generalizing fuel candidate with
  | nil =>
    obtain ⟨fuel, rfl⟩ := Nat.exists_eq_add_one_of_ne_zero (Nat.one_le_iff_ne_zero.mp (Nat.one_le_of_lt hfuel))
    unfold Fits at hfits
    rw [List.append_nil] at hfits ⊢
    rw [List.nil_append, stringLoop, if_pos rfl, if_pos hfits]
  | @plain c t s hcontrol hquote hescape ht ih =>
    rw [List.cons_append, List.length_cons] at hfuel
    obtain ⟨fuel, rfl⟩ : ∃ n, fuel = n + 1 := ⟨fuel - 1, by omega⟩
    have happend : candidate ++ c :: s = (candidate ++ [c]) ++ s := by simp
    rw [happend] at hfits ⊢
    rw [List.cons_append, stringLoop, if_neg hquote, if_neg (UInt8.not_lt.mpr hcontrol), if_pos hescape]
    exact ih (by omega) hfits
  | @escape n e t s he ht ih =>
    rw [List.cons_append, List.length_cons, List.append_assoc, List.length_append] at hfuel
    obtain ⟨fuel, rfl⟩ : ∃ n, fuel = n + 1 := ⟨fuel - 1, by omega⟩
    rw [← List.append_assoc] at hfits ⊢
    rw [List.cons_append, stringLoop, if_neg (by decide), if_neg (by decide), if_neg (not_not.mpr rfl),
      List.append_assoc, escape_complete he, Option.bind_some]
    exact ih (by omega) hfits

/-- A string is read exactly where a literal stands, and what it reads is what the literal stands for. -/
theorem string_iff : string t = some (s, rest) ↔ ∃ w lit cs, White w ∧ t = w ++ (lit ++ rest) ∧
    IsLiteral lit cs ∧ s = Utf8.encodeAll cs ∧ s.length ≤ npcAgentResponseBodyLimit := by
  constructor
  · intro h
    obtain ⟨w, hw, ht⟩ := space_spec t
    unfold string at h
    cases hspace : space t with
    | nil => simp [hspace] at h
    | cons c t' =>
      simp only [hspace] at h
      split_ifs at h with hquote
      obtain ⟨body, more, rfl, hpieces, rfl, hfits⟩ := stringLoop_sound h
      obtain ⟨cs, hcs, hspelled, hbytes⟩ := fits_iff.mp hfits
      rw [hspelled] at hpieces
      refine ⟨w, quote :: (body ++ [quote]), cs, hw, ?_, ⟨body, rfl, hpieces.body hcs⟩, hspelled, hbytes⟩
      rw [ht, hspace, hquote]
      simp
  · rintro ⟨w, lit, cs, hw, rfl, ⟨body, rfl, hbody⟩, rfl, hbytes⟩
    have hfits : Fits ([] ++ Utf8.encodeAll cs) := fits_iff.mpr ⟨cs, hbody.isScalar, rfl, hbytes⟩
    have htext : w ++ (quote :: (body ++ [quote]) ++ rest) = w ++ quote :: (body ++ quote :: rest) := by simp
    rw [htext, string, space_cons hw (by decide)]
    exact (if_pos rfl).trans (stringLoop_complete hbody.pieces le_rfl hfits)

/-! ### Quoting -/

theorem hexDigit_hex {n : ℕ} (h : n < 16) : hexDigit (hex n) = some n := by
  have hall : ∀ n < 16, hexDigit (hex n) = some n := by decide
  exact hall n h

theorem hexNumber_hex {n : ℕ} (h : n < 0x20) :
    hexNumber '0'.toUInt8 '0'.toUInt8 (hex (n / 16)) (hex (n % 16)) = some n := by
  have hzero : hexDigit '0'.toUInt8 = some 0 := by decide
  simp only [hexNumber, hzero, hexDigit_hex (n := n / 16) (by omega), hexDigit_hex (n := n % 16) (by omega),
    Option.bind_eq_bind, Option.bind_some, Option.some.injEq]
  omega

/-- What is written for a byte stands for it. -/
theorem pieces_quoteByte (c : UInt8) (h : Pieces t s) : Pieces (quoteByte c ++ t) (c :: s) := by
  have hshort : ∀ {e d : UInt8}, shortEscape e = some d → Pieces ([backslash, e] ++ t) (d :: s) := by
    intro e d he
    have hpiece := Pieces.escape (.short he) h
    rw [Utf8.encode_of_lt (shortEscape_lt he)] at hpiece
    simpa using hpiece
  unfold quoteByte
  split_ifs with hquote hescape hline hreturn htab hcontrol
  · subst hquote
    exact hshort (by decide)
  · subst hescape
    exact hshort (by decide)
  · subst hline
    exact hshort (by decide)
  · subst hreturn
    exact hshort (by decide)
  · subst htab
    exact hshort (by decide)
  · have hlt : c.toNat < 0x20 := UInt8.lt_iff_toNat_lt.mp hcontrol
    have hpiece := Pieces.escape (.unicode (hexNumber_hex hlt) (by omega)) h
    rw [Utf8.encode_of_lt (by omega)] at hpiece
    simpa using hpiece
  · exact .plain (UInt8.not_lt.mp hcontrol) hquote hescape h

theorem pieces_quoted (s : Bytes) : Pieces (s.flatMap quoteByte) s := by
  induction s with
  | nil => exact .nil
  | cons c s ih => exact pieces_quoteByte c ih

/-- What was quoted is read back. -/
theorem string_quoted (h : Fits s) (rest : Bytes) : string (quoted s ++ rest) = some (s, rest) := by
  have htext : quoted s ++ rest = [] ++ quote :: (s.flatMap quoteByte ++ quote :: rest) := by simp [quoted]
  rw [htext, string, space_cons (by simp [White]) (by decide)]
  exact (if_pos rfl).trans (stringLoop_complete (pieces_quoted s) le_rfl h)

/-! ### Numbers -/

theorem toNat_digit_sub (hc : isDigit c = true) :
    (c - '0'.toUInt8).toUInt64.toNat = c.toNat - 0x30 ∧ c.toNat - 0x30 < 10 := by
  obtain ⟨hlo, hhi⟩ := isDigit_iff.mp hc
  have hzero : '0'.toUInt8.toNat = 0x30 := rfl
  have hle : '0'.toUInt8 ≤ c := by
    rw [UInt8.le_iff_toNat_le, hzero]
    exact hlo
  rw [UInt8.toNat_toUInt64, UInt8.toNat_sub_of_le _ _ hle, hzero]
  omega

def addDigit (n : ℕ) (c : UInt8) : ℕ := n * 10 + (c.toNat - 0x30)

theorem le_foldl_addDigit (n : ℕ) (digits : Bytes) : n ≤ digits.foldl addDigit n := by
  induction digits generalizing n with
  | nil => exact le_rfl
  | cons c digits ih =>
    have hstep : n ≤ addDigit n c := by
      unfold addDigit
      omega
    exact hstep.trans (ih _)

/-- The check before a digit is added is that of the sum. -/
theorem overflow_iff (candidate digit : UInt64) (hdigit : digit.toNat < 10) :
    candidate > (0xFFFFFFFFFFFFFFFF - digit) / 10 ↔ 2 ^ 64 ≤ candidate.toNat * 10 + digit.toNat := by
  have hmax : (0xFFFFFFFFFFFFFFFF : UInt64).toNat = 2 ^ 64 - 1 := rfl
  have hten : (10 : UInt64).toNat = 10 := rfl
  have hle : digit ≤ 0xFFFFFFFFFFFFFFFF := by
    rw [UInt64.le_iff_toNat_le, hmax]
    omega
  rw [gt_iff_lt, UInt64.lt_iff_toNat_lt, UInt64.toNat_div, UInt64.toNat_sub_of_le _ _ hle, hmax, hten]
  omega

theorem toNat_addDigit (candidate digit : UInt64) (h : candidate.toNat * 10 + digit.toNat < 2 ^ 64) :
    (candidate * 10 + digit).toNat = candidate.toNat * 10 + digit.toNat := by
  have hten : (10 : UInt64).toNat = 10 := rfl
  rw [UInt64.toNat_add, UInt64.toNat_mul, hten]
  omega

/-- The digits are added up as long as the number fits into 64 bits. -/
theorem uintLoop_eq (digits : Bytes) (hdigits : ∀ c ∈ digits, isDigit c = true) (hrest : Ends isDigit rest)
    (candidate : UInt64) : uintLoop (digits ++ rest) candidate =
      if digits.foldl addDigit candidate.toNat < 2 ^ 64 then
        some (UInt64.ofNat (digits.foldl addDigit candidate.toNat), rest)
      else none := by
  induction digits generalizing candidate with
  | nil =>
    have hfits : candidate.toNat < 2 ^ 64 := candidate.toNat_lt_size
    rw [List.nil_append, List.foldl_nil, if_pos hfits, UInt64.ofNat_toNat]
    cases rest with
    | nil => rfl
    | cons c rest =>
      rw [uintLoop, hrest c rfl]
      rfl
  | cons c digits ih =>
    obtain ⟨hc, hrestDigits⟩ := List.forall_mem_cons.mp hdigits
    obtain ⟨hdigit, hlt⟩ := toNat_digit_sub hc
    have hadd : addDigit candidate.toNat c = candidate.toNat * 10 + (c - '0'.toUInt8).toUInt64.toNat := by
      rw [addDigit, hdigit]
    have hle := le_foldl_addDigit (addDigit candidate.toNat c) digits
    rw [List.cons_append, uintLoop, if_pos hc, List.foldl_cons]
    dsimp only
    by_cases hover : candidate > (0xFFFFFFFFFFFFFFFF - (c - '0'.toUInt8).toUInt64) / 10
    · have hlarge := (overflow_iff candidate _ (by omega)).mp hover
      rw [if_pos hover, if_neg (by omega)]
    · have hsmall := (overflow_iff candidate _ (by omega)).not.mp hover
      rw [if_neg hover, ih hrestDigits, toNat_addDigit candidate _ (by omega), hadd]

theorem isInteger_iff {digits : Bytes} (hdigits : ∀ c ∈ digits, isDigit c = true) :
    IsInteger digits ↔ ¬(digits.length = 0 ∨ (digits.length > 1 ∧ digits.head? = some '0'.toUInt8)) := by
  cases digits with
  | nil => simp [IsInteger, IsDigits, ascii]
  | cons c digits =>
    cases digits with
    | nil =>
      refine iff_of_true ?_ (by simp)
      by_cases hc : c = '0'.toUInt8
      · subst hc
        exact .inl rfl
      · exact .inr ⟨⟨by simp, hdigits⟩, by simpa using hc⟩
    | cons d digits =>
      have hne : c :: d :: digits ≠ ascii "0" := by simp [ascii]
      simp only [IsInteger, IsDigits, hne, false_or, ne_eq, reduceCtorEq, not_false_eq_true, true_and,
        List.head?_cons, Option.some.injEq, List.length_cons]
      constructor
      · rintro ⟨-, hc⟩ ⟨-, hc'⟩
        exact hc hc'
      · intro h
        exact ⟨hdigits, fun hc => h ⟨by omega, hc⟩⟩

theorem digitsValue_eq_foldl (digits : Bytes) : digitsValue digits = digits.foldl addDigit 0 := rfl

theorem uint_digits (hw : White w) {digits rest' : Bytes} {v : UInt64}
    (hdigits : ∀ c ∈ digits, isDigit c = true) (hstart : Ends isWhite (digits ++ rest))
    (hrest : Ends isDigit rest) : uint (w ++ (digits ++ rest)) = some (v, rest') ↔
      IsInteger digits ∧ digitsValue digits = v.toNat ∧ rest = rest' := by
  have hzero : (0 : UInt64).toNat = 0 := rfl
  have hlt : v.toNat < 2 ^ 64 := v.toNat_lt_size
  rw [uint, space_append hw hstart]
  dsimp only
  rw [uintLoop_eq digits hdigits hrest, hzero, ← digitsValue_eq_foldl]
  by_cases hfits : digitsValue digits < 2 ^ 64
  · rw [if_pos hfits, Option.bind_some]
    dsimp only
    rw [List.length_append, Nat.add_sub_cancel]
    have hhead : digits.length > 1 → (digits ++ rest).head? = digits.head? := by
      intro h
      cases digits with
      | nil => simp at h
      | cons c digits => rfl
    have hcanonical : (digits.length + rest.length = rest.length ∨
        digits.length > 1 ∧ (digits ++ rest).head? = some '0'.toUInt8) ↔ ¬IsInteger digits := by
      rw [isInteger_iff hdigits, not_not]
      refine or_congr (by omega) (and_congr_right fun h => ?_)
      rw [hhead h]
    have hvalue : UInt64.ofNat (digitsValue digits) = v ↔ digitsValue digits = v.toNat := by
      rw [← UInt64.toNat_inj, UInt64.toNat_ofNat_of_lt' hfits]
    rw [Option.ite_none_left_eq_some, hcanonical, not_not, Option.some.injEq, Prod.mk.injEq, hvalue]
  · rw [if_neg hfits, Option.bind_none]
    refine iff_of_false (by simp) fun h => ?_
    omega

/-- A number is read exactly where the decimal form of it stands, up to the last one of 64 bits. -/
theorem uint_iff {v : UInt64} : uint t = some (v, rest) ↔
    ∃ w, White w ∧ t = w ++ (decimal v.toNat ++ rest) ∧ Ends isDigit rest := by
  constructor
  · intro h
    obtain ⟨w, hw, ht⟩ := space_spec t
    have hsplit := List.takeWhile_append_dropWhile (p := isDigit) (l := space t)
    have hdigits : ∀ c ∈ (space t).takeWhile isDigit, isDigit c = true := fun c hc =>
      List.all_eq_true.mp List.all_takeWhile c hc
    have hrest : Ends isDigit ((space t).dropWhile isDigit) := by
      intro c hc
      have hnot := List.head?_dropWhile_not isDigit (space t)
      rw [Option.mem_def.mp hc] at hnot
      simpa using hnot
    have hstart : Ends isWhite (space t) := by
      intro c hc
      have hnot := List.head?_dropWhile_not isWhite t
      rw [space, Option.mem_def] at hc
      rw [hc] at hnot
      simpa using hnot
    rw [ht, ← hsplit, uint_digits hw hdigits (by rwa [hsplit]) hrest] at h
    obtain ⟨hinteger, hvalue, rfl⟩ := h
    refine ⟨w, hw, ?_, hrest⟩
    rw [← hvalue, decimal_digitsValue hinteger, hsplit]
    exact ht
  · rintro ⟨w, hw, rfl, hrest⟩
    obtain ⟨hne, hdigits⟩ := isDigits_decimal v.toNat
    have hstart : Ends isWhite (decimal v.toNat ++ rest) := by
      obtain ⟨c, digits, hcons⟩ := List.exists_cons_of_ne_nil hne
      rw [hcons, List.cons_append]
      exact ends_cons (isWhite_of_isDigit (hdigits c (hcons ▸ List.mem_cons_self))) _
    exact (uint_digits hw hdigits hstart hrest).mpr ⟨isInteger_decimal _, digitsValue_decimal _, rfl⟩

theorem uint32_iff {v : UInt32} : uint32 t = some (v, rest) ↔
    ∃ w, White w ∧ t = w ++ (decimal v.toNat ++ rest) ∧ Ends isDigit rest := by
  have hmax : (0xFFFFFFFF : UInt64).toNat = 2 ^ 32 - 1 := rfl
  unfold uint32
  rw [Option.bind_eq_some_iff]
  constructor
  · rintro ⟨⟨candidate, t'⟩, huint, h⟩
    dsimp only at h
    split_ifs at h with hlarge
    obtain ⟨rfl, rfl⟩ := Prod.mk.inj (Option.some.inj h)
    have hle := UInt64.le_iff_toNat_le.mp (UInt64.not_lt.mp hlarge)
    obtain ⟨w, hw, ht, hrest⟩ := uint_iff.mp huint
    have hsame : candidate.toUInt32.toNat = candidate.toNat := by
      rw [UInt64.toNat_toUInt32]
      omega
    exact ⟨w, hw, by rw [hsame, ht], hrest⟩
  · rintro ⟨w, hw, rfl, hrest⟩
    have hlt : v.toNat < 2 ^ 32 := v.toNat_lt_size
    refine ⟨(v.toUInt64, rest), uint_iff.mpr ⟨w, hw, by rw [UInt32.toNat_toUInt64], hrest⟩, ?_⟩
    have hsmall : ¬ v.toUInt64 > 0xFFFFFFFF := by
      rw [gt_iff_lt, UInt64.lt_iff_toNat_lt, hmax, UInt32.toNat_toUInt64]
      omega
    dsimp only
    rw [if_neg hsmall, UInt32.toUInt32_toUInt64]

end AIWorld.Inference.JsonCursor
