import AIWorld.Inference.JsonWalker

/-! The scanners against the grammar: what they accept is derivable, and what is derivable they
pass over to its end. What is left of the text at a position stands for the position. -/

namespace AIWorld.Inference

open Lib.Json

variable {json t rest : Bytes} {i e pos : ℕ} {c : UInt8}

/-! ### Positions -/

theorem drop_of_append (h : json.drop i = t ++ rest) : json.drop (i + t.length) = rest := by
  rw [← List.drop_drop, h, List.drop_left]

theorem getElem?_of_drop (h : json.drop i = c :: rest) : json[i]? = some c := by
  rw [← List.head?_drop, h, List.head?_cons]

theorem drop_of_cons (h : json.drop i = c :: rest) : json.drop (i + 1) = rest :=
  drop_of_append (t := [c]) h

theorem drop_of_getElem? (h : json[i]? = some c) : json.drop i = c :: json.drop (i + 1) := by
  obtain ⟨hi, rfl⟩ := List.getElem?_eq_some_iff.mp h
  exact List.drop_eq_getElem_cons hi

theorem substr_of_append (h : json.drop i = t ++ rest) : substr json i (i + t.length) = t := by
  rw [substr, h, Nat.add_sub_cancel_left, List.take_left]

/-! ### White space -/

section SkipWhile
variable {p : UInt8 → Bool}

theorem skipWhile_eq (h : json.drop i = t ++ rest) (ht : ∀ c ∈ t, p c = true) (hrest : Ends p rest) :
    skipWhile p json i = i + t.length := by
  rw [skipWhile, h, List.takeWhile_append_of_pos ht]
  cases rest with
  | nil => simp
  | cons c rest =>
    have hc : p c = false := hrest c rfl
    simp [hc]

/-- What is passed over, and that nothing more is. -/
theorem skipWhile_spec (p : UInt8 → Bool) (json : Bytes) (i : ℕ) : ∃ t, (∀ c ∈ t, p c = true) ∧
    json.drop i = t ++ json.drop (skipWhile p json i) ∧ skipWhile p json i = i + t.length ∧
    Ends p (json.drop (skipWhile p json i)) := by
  have hsplit := List.takeWhile_append_dropWhile (p := p) (l := json.drop i)
  have hdrop : json.drop (skipWhile p json i) = (json.drop i).dropWhile p := drop_of_append hsplit.symm
  refine ⟨(json.drop i).takeWhile p, fun c hc => ?_, ?_, rfl, ?_⟩
  · exact List.all_eq_true.mp List.all_takeWhile c hc
  · rw [hdrop, hsplit]
  · rw [hdrop]
    intro c hc
    have hnot := List.head?_dropWhile_not p (json.drop i)
    rw [Option.mem_def.mp hc] at hnot
    simpa using hnot

end SkipWhile

theorem skipJsonWhitespace_eq (h : json.drop i = t ++ rest) (ht : White t) (hrest : Ends isWhite rest) :
    skipJsonWhitespace json i = i + t.length := skipWhile_eq h ht hrest

/-! ### Strings -/

theorem mem_simpleEscapes_iff : c ∈ simpleEscapes ↔ (shortEscape c).isSome = true := by
  simp only [simpleEscapes, shortEscape, List.mem_cons, List.not_mem_nil, or_false]
  constructor
  · rintro (rfl | rfl | rfl | rfl | rfl | rfl | rfl | rfl) <;> decide
  · intro h
    split_ifs at h <;> simp_all

theorem isHexDigit_iff : isHexDigit c = true ↔ (hexDigit c).isSome = true := by
  simp only [isHexDigit, hexDigit, Bool.or_eq_true, Bool.and_eq_true, decide_eq_true_eq]
  split_ifs <;> simp_all

theorem hexDigit_lt {d : ℕ} (h : hexDigit c = some d) : d < 16 := by
  unfold hexDigit at h
  split_ifs at h with hdigit hlower hupper
  · cases h
    have := UInt8.le_iff_toNat_le.mp hdigit.2
    change c.toNat ≤ 57 at this
    change c.toNat - 48 < 16
    omega
  · cases h
    have := UInt8.le_iff_toNat_le.mp hlower.2
    change c.toNat ≤ 102 at this
    change c.toNat - 97 + 10 < 16
    omega
  · cases h
    have := UInt8.le_iff_toNat_le.mp hupper.2
    change c.toNat ≤ 70 at this
    change c.toNat - 65 + 10 < 16
    omega

theorem shift_or {d : ℕ} (n : ℕ) (h : d < 16) : n <<< 4 ||| d = n * 16 + d := by
  rw [← Nat.shiftLeft_add_eq_or_of_lt h n, Nat.shiftLeft_eq]

theorem hexCodepoint_eq {h₁ h₂ h₃ h₄ : UInt8} {n : ℕ} (h : hexNumber h₁ h₂ h₃ h₄ = some n) :
    hexCodepoint h₁ h₂ h₃ h₄ = some n := by
  simp only [hexNumber, Option.bind_eq_bind, Option.bind_eq_some_iff] at h
  obtain ⟨d₁, hd₁, d₂, hd₂, d₃, hd₃, d₄, hd₄, h⟩ := h
  rw [← h]
  simp [hexCodepoint, hd₁, hd₂, hd₃, hd₄, shift_or _ (hexDigit_lt hd₂), shift_or _ (hexDigit_lt hd₃),
    shift_or _ (hexDigit_lt hd₄)]

theorem exists_hexNumber {h₁ h₂ h₃ h₄ : UInt8}
    (h : (isHexDigit h₁ && isHexDigit h₂ && isHexDigit h₃ && isHexDigit h₄) = true) :
    ∃ n, hexNumber h₁ h₂ h₃ h₄ = some n := by
  simp only [Bool.and_eq_true, isHexDigit_iff, Option.isSome_iff_exists] at h
  obtain ⟨⟨⟨⟨d₁, hd₁⟩, d₂, hd₂⟩, d₃, hd₃⟩, d₄, hd₄⟩ := h
  exact ⟨((d₁ * 16 + d₂) * 16 + d₃) * 16 + d₄, by simp [hexNumber, hd₁, hd₂, hd₃, hd₄]⟩

theorem isHexDigit_of_hexNumber {h₁ h₂ h₃ h₄ : UInt8} {n : ℕ} (h : hexNumber h₁ h₂ h₃ h₄ = some n) :
    (isHexDigit h₁ && isHexDigit h₂ && isHexDigit h₃ && isHexDigit h₄) = true := by
  simp only [hexNumber, Option.bind_eq_bind, Option.bind_eq_some_iff] at h
  obtain ⟨d₁, hd₁, d₂, hd₂, d₃, hd₃, d₄, hd₄, -⟩ := h
  simp [isHexDigit_iff, hd₁, hd₂, hd₃, hd₄]

/-- A literal that is passed over has a content, which ends at its closing quote. -/
theorem skipLiteral_sound {text : Bytes} (h : skipLiteral text i = some e) : ∃ body s rest,
    text = body ++ quote :: rest ∧ Chars encodeCodepoint body s ∧ e = i + (body.length + 1) := by
  fun_induction skipLiteral text i with
  | case1 | case3 | case6 | case7 | case8 | case9 => contradiction
  | case2 rest i =>
    cases h
    exact ⟨[], [], rest, rfl, .nil, rfl⟩
  | case4 i esc rest hesc _ ih =>
    obtain ⟨body, s, rest, rfl, hbody, rfl⟩ := ih h
    obtain ⟨d, hd⟩ := Option.isSome_iff_exists.mp (mem_simpleEscapes_iff.mp hesc)
    exact ⟨backslash :: esc :: body, d :: s, rest, rfl, .short hd hbody, by simp only [List.length_cons]; omega⟩
  | case5 i h₁ h₂ h₃ h₄ rest hhex _ _ ih =>
    obtain ⟨body, s, rest, rfl, hbody, rfl⟩ := ih h
    obtain ⟨n, hn⟩ := exists_hexNumber hhex
    exact ⟨backslash :: 'u'.toUInt8 :: h₁ :: h₂ :: h₃ :: h₄ :: body, encodeCodepoint n ++ s, rest, rfl,
      .unicode hn hbody, by simp only [List.length_cons]; omega⟩
  | case10 c rest i hquote hescape hcontrol ih =>
    obtain ⟨body, s, rest, rfl, hbody, rfl⟩ := ih h
    exact ⟨c :: body, c :: s, rest, rfl, .plain (UInt8.not_lt.mp hcontrol) hquote hescape hbody,
      by simp only [List.length_cons]; omega⟩

theorem skipLiteral_quote (rest : Bytes) (i : ℕ) : skipLiteral (quote :: rest) i = some (i + 1) := by
  rw [skipLiteral.eq_def]
  exact if_pos rfl

theorem skipLiteral_plain (hcontrol : 0x20 ≤ c) (hquote : c ≠ quote) (hescape : c ≠ backslash) (rest : Bytes) (i : ℕ) :
    skipLiteral (c :: rest) i = skipLiteral rest (i + 1) := by
  rw [skipLiteral.eq_def]
  simp only [if_neg hquote, if_neg hescape, if_neg (UInt8.not_lt.mpr hcontrol)]

theorem skipLiteral_short (hc : c ∈ simpleEscapes) (rest : Bytes) (i : ℕ) :
    skipLiteral (backslash :: c :: rest) i = skipLiteral rest (i + 2) := by
  have hne : backslash ≠ quote := by decide
  rw [skipLiteral.eq_def]
  simp only [if_neg hne, if_pos, if_pos hc]

theorem skipLiteral_unicode {h₁ h₂ h₃ h₄ : UInt8}
    (h : (isHexDigit h₁ && isHexDigit h₂ && isHexDigit h₃ && isHexDigit h₄) = true) (rest : Bytes) (i : ℕ) :
    skipLiteral (backslash :: 'u'.toUInt8 :: h₁ :: h₂ :: h₃ :: h₄ :: rest) i = skipLiteral rest (i + 6) := by
  have hne : backslash ≠ quote := by decide
  have hmem : 'u'.toUInt8 ∉ simpleEscapes := by decide
  rw [skipLiteral.eq_def]
  simp only [if_neg hne, if_pos, if_neg hmem, h]

theorem skipLiteral_complete {body s : Bytes} (h : Chars encodeCodepoint body s) (rest : Bytes) (i : ℕ) :
    skipLiteral (body ++ quote :: rest) i = some (i + (body.length + 1)) := by
  induction h generalizing i with
  | nil => exact skipLiteral_quote rest i
  | plain hcontrol hquote hescape _ ih =>
    rw [List.cons_append, skipLiteral_plain hcontrol hquote hescape, ih]
    simp only [List.length_cons]
    congr 1
    omega
  | short hc _ ih =>
    rw [List.cons_append, List.cons_append, skipLiteral_short (mem_simpleEscapes_iff.mpr (by rw [hc]; rfl)), ih]
    simp only [List.length_cons]
    congr 1
    omega
  | unicode hc _ ih =>
    simp only [List.cons_append]
    rw [skipLiteral_unicode (isHexDigit_of_hexNumber hc), ih]
    simp only [List.length_cons]
    congr 1
    omega

/-- The content of a literal is decoded as the grammar says. -/
theorem unescapeContent_eq {body s : Bytes} (h : Chars encodeCodepoint body s) :
    unescapeContent body = some s := by
  induction h with
  | nil => rfl
  | plain _ _ hescape _ ih =>
    rw [unescapeContent.eq_def]
    simp only [if_pos hescape, ih, Option.map_some]
  | @short c d t s hc _ ih =>
    have hne : c ≠ 'u'.toUInt8 := by
      rintro rfl
      contradiction
    rw [unescapeContent.eq_def]
    simp only [ne_eq, not_true_eq_false, if_false, if_neg hne, hc, ih, Option.map_some]
  | unicode hc _ ih =>
    rw [unescapeContent.eq_def]
    simp only [ne_eq, not_true_eq_false, if_false, if_true, hexCodepoint_eq hc, ih, Option.map_some]

theorem unescapeJsonString_eq {s : Bytes} (h : IsString encodeCodepoint t s) : unescapeJsonString t = some s := by
  obtain ⟨body, rfl, hbody⟩ := h
  have hlast : (quote :: (body ++ [quote])).getLast? = some quote := by
    rw [← List.cons_append, List.getLast?_concat]
  rw [unescapeJsonString, if_neg, List.tail_cons, List.dropLast_concat, unescapeContent_eq hbody]
  simp [hlast]

theorem skipJsonStringLiteral_sound (h : skipJsonStringLiteral json i = some e) : ∃ t s,
    IsString encodeCodepoint t s ∧ json.drop i = t ++ json.drop e ∧ e = i + t.length := by
  unfold skipJsonStringLiteral at h
  split_ifs at h with hquote
  obtain ⟨body, s, rest, htext, hbody, rfl⟩ := skipLiteral_sound h
  have hsplit : json.drop i = quote :: (body ++ [quote]) ++ rest := by
    rw [drop_of_getElem? hquote, htext]
    simp
  have hlength : i + 1 + (body.length + 1) = i + (quote :: (body ++ [quote])).length := by
    simp only [List.length_cons, List.length_append, List.length_nil]
    omega
  refine ⟨quote :: (body ++ [quote]), s, ⟨body, rfl, hbody⟩, ?_, hlength⟩
  rw [hlength, drop_of_append hsplit, hsplit]

theorem skipJsonStringLiteral_eq {s : Bytes} (ht : IsString encodeCodepoint t s) (h : json.drop i = t ++ rest) :
    skipJsonStringLiteral json i = some (i + t.length) := by
  obtain ⟨body, rfl, hbody⟩ := ht
  have hcons : json.drop i = quote :: (body ++ quote :: rest) := by
    rw [h]
    simp
  rw [skipJsonStringLiteral, if_pos (getElem?_of_drop hcons), drop_of_cons hcons, skipLiteral_complete hbody]
  simp only [List.length_cons, List.length_append, List.length_nil]
  congr 1
  omega

/-! ### Numbers -/

theorem isDigitAt_iff : isDigitAt json i = true ↔ ∃ c rest, json.drop i = c :: rest ∧ isDigit c = true := by
  unfold isDigitAt
  constructor
  · intro h
    obtain ⟨c, hc, hdigit⟩ := (Option.any_eq_true _ _).mp h
    exact ⟨c, _, drop_of_getElem? hc, hdigit⟩
  · rintro ⟨c, rest, hc, hdigit⟩
    rw [getElem?_of_drop hc]
    exact hdigit

/-- A run of digits. -/
theorem skipDigits_sound (h : isDigitAt json i = true) : ∃ t, IsDigits t ∧
    json.drop i = t ++ json.drop (skipWhile isDigit json i) ∧ skipWhile isDigit json i = i + t.length := by
  obtain ⟨t, hdigits, hdrop, hlength, hends⟩ := skipWhile_spec isDigit json i
  obtain ⟨c, rest, hc, hdigit⟩ := isDigitAt_iff.mp h
  refine ⟨t, ⟨?_, hdigits⟩, hdrop, hlength⟩
  rintro rfl
  rw [List.nil_append] at hdrop
  rw [← hdrop, hc] at hends
  exact absurd (hdigit.symm.trans (hends c rfl)) Bool.false_ne_true.symm

theorem isDigitAt_of_digits {digits : Bytes} (h : IsDigits digits) (hdrop : json.drop i = digits ++ rest) :
    isDigitAt json i = true := by
  obtain ⟨c, digits, rfl⟩ := List.exists_cons_of_ne_nil h.1
  exact isDigitAt_iff.mpr ⟨c, _, hdrop, h.2 c List.mem_cons_self⟩

theorem skipInteger_sound (h : skipInteger json i = some e) : ∃ t, IsInteger t ∧
    json.drop i = t ++ json.drop e ∧ e = i + t.length := by
  unfold skipInteger at h
  split_ifs at h with hdigit hzero
  · cases h
    refine ⟨ascii "0", .inl rfl, drop_of_getElem? hzero, rfl⟩
  · cases h
    obtain ⟨t, hdigits, hdrop, hlength⟩ := skipDigits_sound (by simpa using hdigit)
    refine ⟨t, .inr ⟨hdigits, fun hhead => hzero ?_⟩, hdrop, hlength⟩
    obtain ⟨c, t, rfl⟩ := List.exists_cons_of_ne_nil hdigits.1
    cases hhead
    exact getElem?_of_drop hdrop

theorem skipInteger_eq (ht : IsInteger t) (h : json.drop i = t ++ rest) (hrest : Ends isDigit rest) :
    skipInteger json i = some (i + t.length) := by
  unfold skipInteger
  rcases ht with rfl | ⟨hdigits, hhead⟩
  · have hdigit : isDigitAt json i = true := isDigitAt_iff.mpr ⟨_, _, h, by decide⟩
    have hzero : json[i]? = some '0'.toUInt8 := getElem?_of_drop h
    rw [hdigit, if_pos hzero]
    rfl
  · have hzero : json[i]? ≠ some '0'.toUInt8 := by
      obtain ⟨c, t, rfl⟩ := List.exists_cons_of_ne_nil hdigits.1
      rw [getElem?_of_drop h]
      exact hhead
    rw [isDigitAt_of_digits hdigits h, if_neg hzero, skipWhile_eq h hdigits.2 hrest]
    rfl

theorem skipFraction_sound (h : skipFraction json i = some e) : ∃ t, IsFraction t ∧
    json.drop i = t ++ json.drop e ∧ e = i + t.length := by
  unfold skipFraction at h
  split_ifs at h with hdot hdigit
  · cases h
    exact ⟨[], .inl rfl, rfl, rfl⟩
  · cases h
    obtain ⟨t, hdigits, hdrop, hlength⟩ := skipDigits_sound hdigit
    refine ⟨'.'.toUInt8 :: t, .inr ⟨t, rfl, hdigits⟩, ?_, by rw [hlength, List.length_cons]; omega⟩
    rw [drop_of_getElem? (not_not.mp hdot), hdrop]
    rfl

theorem skipFraction_eq (ht : IsFraction t) (h : json.drop i = t ++ rest) (hrest : Ends isDigit rest)
    (hdot : rest.head? ≠ some '.'.toUInt8) : skipFraction json i = some (i + t.length) := by
  unfold skipFraction
  rcases ht with rfl | ⟨digits, rfl, hdigits⟩
  · rw [← List.head?_drop, h]
    exact if_pos hdot
  · have hnext : json.drop (i + 1) = digits ++ rest := drop_of_cons h
    rw [if_neg (not_not.mpr (getElem?_of_drop h)), if_pos (isDigitAt_of_digits hdigits hnext),
      skipWhile_eq hnext hdigits.2 hrest, List.length_cons]
    congr 1
    omega

theorem skipExponent_sound (h : skipExponent json i = some e) : ∃ t, IsExponent t ∧
    json.drop i = t ++ json.drop e ∧ e = i + t.length := by
  unfold skipExponent at h
  by_cases hmark : json[i]? ≠ some 'e'.toUInt8 ∧ json[i]? ≠ some 'E'.toUInt8
  · rw [if_pos hmark] at h
    cases h
    exact ⟨[], .inl rfl, rfl, rfl⟩
  rw [if_neg hmark] at h
  have hhead : ∃ c, (c = 'e'.toUInt8 ∨ c = 'E'.toUInt8) ∧ json.drop i = c :: json.drop (i + 1) := by
    by_cases hlower : json[i]? = some 'e'.toUInt8
    · exact ⟨_, .inl rfl, drop_of_getElem? hlower⟩
    · exact ⟨_, .inr rfl, drop_of_getElem? (by by_contra hupper; exact hmark ⟨hlower, hupper⟩)⟩
  obtain ⟨c, hc, hcons⟩ := hhead
  -- The digits start after the sign, if there is one.
  have hexponent {sign : Bytes} (hsign : sign = [] ∨ sign = ascii "+" ∨ sign = ascii "-")
      (hdrop : json.drop (i + 1) = sign ++ json.drop (i + 1 + sign.length))
      (h : (if isDigitAt json (i + 1 + sign.length) then some (skipWhile isDigit json (i + 1 + sign.length))
        else none) = some e) : ∃ t, IsExponent t ∧ json.drop i = t ++ json.drop e ∧ e = i + t.length := by
    split_ifs at h with hdigit
    cases h
    obtain ⟨digits, hdigits, htail, hlength⟩ := skipDigits_sound hdigit
    refine ⟨c :: (sign ++ digits), .inr ⟨c, sign, digits, rfl, hc, hsign, hdigits⟩, ?_, ?_⟩
    · rw [hcons, hdrop, htail, List.cons_append, List.append_assoc]
    · rw [hlength, List.length_cons, List.length_append]
      omega
  by_cases hsign : json[i + 1]? = some '+'.toUInt8 ∨ json[i + 1]? = some '-'.toUInt8
  · simp only [if_pos hsign] at h
    rcases hsign with hplus | hminus
    · exact hexponent (.inr (.inl rfl)) (drop_of_getElem? hplus) h
    · exact hexponent (.inr (.inr rfl)) (drop_of_getElem? hminus) h
  · simp only [if_neg hsign] at h
    exact hexponent (.inl rfl) rfl h

theorem skipExponent_eq (ht : IsExponent t) (h : json.drop i = t ++ rest) (hrest : Ends isNumberByte rest) :
    skipExponent json i = some (i + t.length) := by
  unfold skipExponent
  rcases ht with rfl | ⟨c, sign, digits, rfl, hc, hsign, hdigits⟩
  · rw [← List.head?_drop, h]
    refine if_pos ⟨fun he => ?_, fun he => ?_⟩
    · exact absurd (hrest _ he) (by decide)
    · exact absurd (hrest _ he) (by decide)
  · have hcons : json[i]? = some c := getElem?_of_drop h
    have htail : json.drop (i + 1) = sign ++ (digits ++ rest) := (drop_of_cons h).trans (List.append_assoc ..)
    have hdigit := isDigitAt_of_digits hdigits (drop_of_append htail)
    have hends := ends_isDigit hrest
    have hmark : ¬ (json[i]? ≠ some 'e'.toUInt8 ∧ json[i]? ≠ some 'E'.toUInt8) := by
      rw [hcons]
      rcases hc with rfl | rfl <;> simp
    have hstart : (if json[i + 1]? = some '+'.toUInt8 ∨ json[i + 1]? = some '-'.toUInt8 then i + 2 else i + 1) =
        i + 1 + sign.length := by
      rcases hsign with rfl | rfl | rfl
      · obtain ⟨d, digits, rfl⟩ := List.exists_cons_of_ne_nil hdigits.1
        have hd : isDigit d = true := hdigits.2 d List.mem_cons_self
        rw [getElem?_of_drop htail]
        refine if_neg ?_
        rintro (hplus | hminus)
        · cases hplus
          contradiction
        · cases hminus
          contradiction
      · exact if_pos (.inl (getElem?_of_drop htail))
      · exact if_pos (.inr (getElem?_of_drop htail))
    rw [if_neg hmark, hstart, if_pos hdigit, skipWhile_eq (drop_of_append htail) hdigits.2 hends]
    simp only [List.length_cons, List.length_append]
    congr 1
    omega

theorem skipSign_sound (json : Bytes) (i : ℕ) : ∃ t, IsSign t ∧
    json.drop i = t ++ json.drop (skipSign json i) ∧ skipSign json i = i + t.length := by
  unfold skipSign
  split_ifs with hminus
  · exact ⟨ascii "-", .inr rfl, drop_of_getElem? hminus, rfl⟩
  · exact ⟨[], .inl rfl, rfl, rfl⟩

theorem skipSign_eq (ht : IsSign t) (h : json.drop i = t ++ rest) (hrest : rest.head? ≠ some '-'.toUInt8) :
    skipSign json i = i + t.length := by
  unfold skipSign
  rcases ht with rfl | rfl
  · rw [← List.head?_drop, h]
    exact if_neg hrest
  · exact if_pos (getElem?_of_drop h)

/-- What a scan passes over, put after what was passed over before. -/
theorem drop_append_trans {t' : Bytes} {j k : ℕ} (h : json.drop i = t ++ json.drop j) (hj : j = i + t.length)
    (h' : json.drop j = t' ++ json.drop k) (hk : k = j + t'.length) :
    json.drop i = (t ++ t') ++ json.drop k ∧ k = i + (t ++ t').length := by
  refine ⟨by rw [h, h', List.append_assoc], ?_⟩
  rw [List.length_append]
  omega

theorem skipStrictJsonNumber_sound (h : skipStrictJsonNumber json i ≠ i) : ∃ t, IsNumber t ∧
    json.drop i = t ++ json.drop (skipStrictJsonNumber json i) ∧ skipStrictJsonNumber json i = i + t.length := by
  unfold skipStrictJsonNumber at h ⊢
  split at h
  · contradiction
  next e he =>
    simp only [Option.bind_eq_bind, Option.bind_eq_some_iff] at he
    obtain ⟨j, hj, k, hk, he⟩ := he
    obtain ⟨sign, hsign, hdrop, hlength⟩ := skipSign_sound json i
    obtain ⟨integer, hinteger, hdrop₁, hlength₁⟩ := skipInteger_sound hj
    obtain ⟨fraction, hfraction, hdrop₂, hlength₂⟩ := skipFraction_sound hk
    obtain ⟨exponent, hexponent, hdrop₃, hlength₃⟩ := skipExponent_sound he
    obtain ⟨hdrop₄, hlength₄⟩ := drop_append_trans hdrop₂ hlength₂ hdrop₃ hlength₃
    obtain ⟨hdrop₅, hlength₅⟩ := drop_append_trans hdrop₁ hlength₁ hdrop₄ hlength₄
    obtain ⟨hdrop₆, hlength₆⟩ := drop_append_trans hdrop hlength hdrop₅ hlength₅
    exact ⟨_, ⟨sign, integer, fraction, exponent, rfl, hsign, hinteger, hfraction, hexponent⟩, hdrop₆, hlength₆⟩

theorem skipStrictJsonNumber_eq (ht : IsNumber t) (h : json.drop i = t ++ rest) (hrest : Ends isNumberByte rest) :
    skipStrictJsonNumber json i = i + t.length := by
  obtain ⟨sign, integer, fraction, exponent, rfl, hsign, hinteger, hfraction, hexponent⟩ := ht
  obtain ⟨hdigit, hdot⟩ := hexponent.ends hrest
  obtain ⟨c, tail, hc, hcdigit⟩ := hinteger.exists_cons
  simp only [List.append_assoc] at h
  have hminus : (integer ++ (fraction ++ (exponent ++ rest))).head? ≠ some '-'.toUInt8 := by
    rw [hc]
    rintro hhead
    cases hhead
    contradiction
  have hdrop := drop_of_append h
  have hdrop₁ := drop_of_append hdrop
  have hdrop₂ := drop_of_append hdrop₁
  have hinteger' := skipInteger_eq hinteger hdrop (hfraction.ends hdigit)
  have hfraction' := skipFraction_eq hfraction hdrop₁ hdigit hdot
  have hexponent' := skipExponent_eq hexponent hdrop₂ hrest
  rw [skipStrictJsonNumber, skipSign_eq hsign h hminus]
  simp only [hinteger', hfraction', hexponent', Option.bind_eq_bind, Option.bind_some, List.length_append]
  omega

end AIWorld.Inference
