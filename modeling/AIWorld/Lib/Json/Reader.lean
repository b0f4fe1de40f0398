import AIWorld.Lib.Json.Render

/-! A reader of JSON texts. It reads what the grammar spells; what it makes of other texts is of no concern
here. Numbers are kept as they are written. -/

namespace Lib.Json

variable {α : Type*} (encode : ℕ → Bytes)

/-! ### Reading -/

def skipWhite (t : Bytes) : Bytes := t.dropWhile isWhite

/-- A byte that numbers are made of. -/
def isNumeric (c : UInt8) : Bool := isNumberByte c || c = '+'.toUInt8 || c = '-'.toUInt8

/-- The rest of a string after its first quote, decoded, and what follows the last one. -/
def readChars : Bytes → Option (Bytes × Bytes)
  | [] => none
  | c :: t =>
    if c = quote then some ([], t)
    else if c = backslash then
      match t with
      | [] => none
      | d :: t =>
        if d = 'u'.toUInt8 then
          match t with
          | c₁ :: c₂ :: c₃ :: c₄ :: t =>
            (hexNumber c₁ c₂ c₃ c₄).bind fun n => (readChars t).map fun (s, rest) => (encode n ++ s, rest)
          | _ => none
        else (shortEscape d).bind fun e => (readChars t).map fun (s, rest) => (e :: s, rest)
    else if c < 0x20 then none
    else (readChars t).map fun (s, rest) => (c :: s, rest)

/-- Elements with commas between them, up to the last bracket. -/
def readSeparated (read : Bytes → Option (α × Bytes)) (last : UInt8) : ℕ → Bytes → Option (List α × Bytes)
  | 0, _ => none
  | fuel + 1, t =>
    (read t).bind fun (x, t) =>
      match skipWhite t with
      | [] => none
      | c :: rest =>
        if c = last then some ([x], rest)
        else if c = ','.toUInt8 then
          (readSeparated read last fuel (skipWhite rest)).map fun (xs, rest) => (x :: xs, rest)
        else none

def readBracketed (read : Bytes → Option (α × Bytes)) (last : UInt8) (t : Bytes) : Option (List α × Bytes) :=
  match skipWhite t with
  | [] => none
  | c :: rest => if c = last then some ([], rest) else readSeparated read last t.length (c :: rest)

def readMember (read : Bytes → Option (α × Bytes)) : Bytes → Option ((Bytes × α) × Bytes)
  | [] => none
  | c :: t =>
    if c = quote then
      (readChars encode t).bind fun (key, t) =>
        match skipWhite t with
        | [] => none
        | c :: t =>
          if c = ':'.toUInt8 then (read (skipWhite t)).map fun (x, rest) => ((key, x), rest) else none
    else none

def readWord (t : Bytes) : Option (Value × Bytes) :=
  if (ascii "null").isPrefixOf t then some (.null, t.drop 4)
  else if (ascii "true").isPrefixOf t then some (.bool true, t.drop 4)
  else if (ascii "false").isPrefixOf t then some (.bool false, t.drop 5)
  else none

/-- A value with at most some number of levels, and what follows it. -/
def readValue : ℕ → Bytes → Option (Value × Bytes)
  | 0, _ => none
  | _ + 1, [] => none
  | levels + 1, c :: t =>
    if c = quote then (readChars encode t).map fun (s, rest) => (.string s, rest)
    else if c = '['.toUInt8 then
      (readBracketed (readValue levels) ']'.toUInt8 t).map fun (items, rest) => (.array items, rest)
    else if c = 0x7B then
      (readBracketed (readMember encode (readValue levels)) 0x7D t).bind fun (members, rest) =>
        if (members.map Prod.fst).Nodup then some (.object members, rest) else none
    else if isNumeric c then some (.number ((c :: t).takeWhile isNumeric), (c :: t).dropWhile isNumeric)
    else readWord (c :: t)

def readText (levels : ℕ) (t : Bytes) : Option Value :=
  match readValue encode levels (skipWhite t) with
  | some (v, rest) => if skipWhite rest = [] then some v else none
  | none => none

/-! ### The grammar is read -/

/-- What is written is read, as long as no number could go on. -/
def Complete (E : Bytes → α → Prop) (read : Bytes → Option (α × Bytes)) : Prop :=
  ∀ t x rest, E t x → Ends isNumeric rest → read (t ++ rest) = some (x, rest)

/-- No element begins with white space or looks like the end. -/
def Opens (E : Bytes → α → Prop) (last : UInt8) : Prop :=
  ∀ t x, E t x → ∃ c tail, t = c :: tail ∧ isWhite c = false ∧ c ≠ last

theorem skipWhite_append {ws rest : Bytes} (hws : White ws) (hrest : Ends isWhite rest) :
    skipWhite (ws ++ rest) = rest := by
  rw [skipWhite, List.dropWhile_append_of_pos hws]
  cases rest with
  | nil => rfl
  | cons c rest =>
    have hc : isWhite c = false := hrest c (by simp)
    simp [hc]

theorem not_numeric_of_white {c : UInt8} (h : isWhite c = true) : isNumeric c = false := by
  simp only [isWhite, Bool.or_eq_true, decide_eq_true_eq] at h
  rcases h with ((rfl | rfl) | rfl) | rfl <;> decide

theorem ends_numeric {ws rest : Bytes} (hws : White ws) (hrest : Ends isNumeric rest) :
    Ends isNumeric (ws ++ rest) := by
  refine Ends.append (fun _ c hc => ?_) hrest
  exact not_numeric_of_white (hws c (List.mem_of_head? hc))

variable {encode} {t s rest : Bytes} {levels : ℕ}

theorem readChars_append (h : Chars encode t s) : readChars encode (t ++ quote :: rest) = some (s, rest) := by
  induction h with
  | nil =>
    rw [List.nil_append, readChars.eq_def]
    simp only [if_true]
  | plain hcontrol hquote hescape _ ih =>
    rw [List.cons_append, readChars.eq_def]
    simp only [if_neg hquote, if_neg hescape, if_neg (UInt8.not_lt.mpr hcontrol), ih, Option.map_some]
  | @short c d t s hc _ ih =>
    have hu : c ≠ 'u'.toUInt8 := by
      rintro rfl
      contradiction
    have hbackslash : ¬backslash = quote := by decide
    rw [List.cons_append, List.cons_append, readChars.eq_def]
    simp only [if_neg hbackslash, if_true, if_neg hu, hc, Option.bind_some, ih, Option.map_some]
  | unicode hc _ ih =>
    have hbackslash : ¬backslash = quote := by decide
    simp only [List.cons_append]
    rw [readChars.eq_def]
    simp only [if_neg hbackslash, if_true, hc, Option.bind_some, ih, Option.map_some]

/-! ### Numbers -/

theorem numeric_of_digits (h : IsDigits t) : ∀ c ∈ t, isNumeric c = true := fun c hc => by
  simp [isNumeric, isNumberByte, h.2 c hc]

theorem IsNumber.numeric (h : IsNumber t) : ∀ c ∈ t, isNumeric c = true := by
  obtain ⟨sign, integer, fraction, exponent, rfl, hsign, hinteger, hfraction, hexponent⟩ := h
  have hminus : ∀ c ∈ ascii "-", isNumeric c = true := by decide
  have hplus : ∀ c ∈ ascii "+", isNumeric c = true := by decide
  have hinteger' : ∀ c ∈ integer, isNumeric c = true := by
    rcases hinteger with rfl | ⟨hdigits, -⟩
    · decide
    · exact numeric_of_digits hdigits
  intro c hc
  rcases List.mem_append.mp hc with hc | hc
  · rcases hsign with rfl | rfl
    · contradiction
    · exact hminus c hc
  rcases List.mem_append.mp hc with hc | hc
  · exact hinteger' c hc
  rcases List.mem_append.mp hc with hc | hc
  · rcases hfraction with rfl | ⟨digits, rfl, hdigits⟩
    · contradiction
    · rcases List.mem_cons.mp hc with rfl | hc
      · decide
      · exact numeric_of_digits hdigits c hc
  · rcases hexponent with rfl | ⟨e, sign', digits, rfl, he, hsign', hdigits⟩
    · contradiction
    · rcases List.mem_cons.mp hc with rfl | hc
      · rcases he with rfl | rfl <;> decide
      rcases List.mem_append.mp hc with hc | hc
      · rcases hsign' with rfl | rfl | rfl
        · contradiction
        · exact hplus c hc
        · exact hminus c hc
      · exact numeric_of_digits hdigits c hc

theorem takeWhile_numeric (h : IsNumber t) (hrest : Ends isNumeric rest) :
    (t ++ rest).takeWhile isNumeric = t ∧ (t ++ rest).dropWhile isNumeric = rest := by
  have hall := h.numeric
  have hstop : rest.takeWhile isNumeric = [] ∧ rest.dropWhile isNumeric = rest := by
    cases rest with
    | nil => exact ⟨rfl, rfl⟩
    | cons c rest =>
      have hc : isNumeric c = false := hrest c (by simp)
      simp [hc]
  rw [List.takeWhile_append_of_pos hall, List.dropWhile_append_of_pos hall, hstop.1, hstop.2, List.append_nil]
  exact ⟨rfl, rfl⟩

/-! ### Arrays and objects -/

section Elements
variable {E : Bytes → α → Prop} {read : Bytes → Option (α × Bytes)} {last : UInt8} {xs : List α}
  (hread : Complete E read) (hopens : Opens E last) (hlast : isNumeric last = false ∧ isWhite last = false ∧
    last ≠ ','.toUInt8)
include hopens

theorem Separated.opens (h : Separated E t xs) : ∃ c tail, t = c :: tail ∧ isWhite c = false ∧ c ≠ last := by
  cases h with
  | last ht _ =>
    obtain ⟨c, tail, rfl, hc⟩ := hopens _ _ ht
    exact ⟨c, _, rfl, hc⟩
  | cons ht _ _ _ =>
    obtain ⟨c, tail, rfl, hc⟩ := hopens _ _ ht
    exact ⟨c, _, rfl, hc⟩

include hread hlast

theorem readSeparated_append {fuel : ℕ} (h : Separated E t xs) (hfuel : xs.length ≤ fuel) :
    readSeparated read last fuel (t ++ last :: rest) = some (xs, rest) := by
  induction h generalizing fuel with
  | @last t ws x ht hws =>
    obtain ⟨fuel, rfl⟩ : ∃ n, fuel = n + 1 := ⟨fuel - 1, by simp at hfuel; omega⟩
    have hend := ends_numeric hws (ends_cons hlast.1 rest)
    have hskip := skipWhite_append hws (ends_cons hlast.2.1 rest)
    rw [List.append_assoc, readSeparated, hread _ _ _ ht hend]
    simp only [Option.bind_some, hskip, if_true]
  | @cons t ws ws' tail x xs ht hws hws' hrest ih =>
    obtain ⟨fuel, rfl⟩ : ∃ n, fuel = n + 1 := ⟨fuel - 1, by simp at hfuel; omega⟩
    obtain ⟨c, tail', rfl, hc, -⟩ := hrest.opens hopens
    have hcomma : isNumeric ','.toUInt8 = false ∧ isWhite ','.toUInt8 = false := by decide
    have hend := ends_numeric hws (ends_cons hcomma.1 (ws' ++ (c :: tail' ++ last :: rest)))
    have hskip := skipWhite_append hws (ends_cons hcomma.2 (ws' ++ (c :: tail' ++ last :: rest)))
    have hskip' := skipWhite_append hws' (ends_cons hc (tail' ++ last :: rest))
    have hnext := ih (by simpa using hfuel)
    rw [List.cons_append] at hnext hskip
    have hsplit : t ++ (ws ++ ','.toUInt8 :: (ws' ++ c :: tail')) ++ last :: rest =
        t ++ (ws ++ ','.toUInt8 :: (ws' ++ (c :: tail' ++ last :: rest))) := by simp
    rw [hsplit, readSeparated, hread _ _ _ ht hend]
    simp only [Option.bind_some, hskip, if_neg hlast.2.2.symm, if_true, List.cons_append, hskip', hnext,
      Option.map_some]

theorem readBracketed_append (first : UInt8) (rest : Bytes) (h : Bracketed E first last t xs) :
    ∃ tail, t = first :: tail ∧ readBracketed read last (tail ++ rest) = some (xs, rest) := by
  obtain ⟨ws, body, hws, rfl, hxs⟩ := h
  refine ⟨_, rfl, ?_⟩
  rw [List.append_assoc, List.append_assoc, List.singleton_append, readBracketed]
  rcases hxs with ⟨rfl, rfl⟩ | hxs
  · rw [List.nil_append, skipWhite_append hws (ends_cons hlast.2.1 rest)]
    simp only [if_true]
  · obtain ⟨c, tail, hbody, hc, hne⟩ := hxs.opens hopens
    have hread' : ∀ t x, E t x → t ≠ [] := fun t x ht => by
      obtain ⟨c, tail, rfl, -⟩ := hopens t x ht
      simp
    have hlength := hxs.length_le hread'
    have hfuel : xs.length ≤ (ws ++ (body ++ last :: rest)).length := by
      simp only [List.length_append]
      omega
    have hseparated : readSeparated read last (ws ++ (body ++ last :: rest)).length (body ++ last :: rest) =
        some (xs, rest) :=
      readSeparated_append hread hopens hlast hxs hfuel
    rw [hbody] at hseparated ⊢
    rw [List.cons_append] at hseparated ⊢
    rw [skipWhite_append hws (ends_cons hc _)]
    simp only [if_neg hne, hseparated]

end Elements

theorem complete_member {V : Bytes → Value → Prop} {read : Bytes → Option (Value × Bytes)} (hread : Complete V read)
    (hopens : ∀ t v, V t v → ∃ c tail, t = c :: tail ∧ isWhite c = false) :
    Complete (IsMember encode V) (readMember encode read) := by
  rintro t ⟨key, v⟩ rest ⟨name, ws, ws', value, rfl, ⟨body, rfl, hbody⟩, hws, hws', hv⟩ hrest
  obtain ⟨c, tail, rfl, hc⟩ := hopens _ _ hv
  have hcolon : isWhite ':'.toUInt8 = false := by decide
  have hskip := skipWhite_append hws (ends_cons hcolon (ws' ++ (c :: tail ++ rest)))
  have hskip' := skipWhite_append hws' (ends_cons hc (tail ++ rest))
  have hvalue := hread _ _ _ hv hrest
  have hsplit : quote :: (body ++ [quote]) ++ (ws ++ ':'.toUInt8 :: (ws' ++ c :: tail)) ++ rest =
      quote :: (body ++ quote :: (ws ++ ':'.toUInt8 :: (ws' ++ (c :: tail ++ rest)))) := by simp
  rw [hsplit, readMember, if_pos rfl, readChars_append hbody]
  rw [List.cons_append] at hvalue hskip
  simp only [Option.bind_some, hskip, if_true, List.cons_append, hskip', hvalue, Option.map_some]

theorem opens_member {V : Bytes → Value → Prop} : Opens (IsMember encode V) 0x7D := by
  rintro t x ⟨key, ws, ws', value, rfl, hkey, -⟩
  obtain ⟨tail, rfl⟩ := hkey.exists_cons
  exact ⟨quote, _, rfl, by decide, by decide⟩

theorem opens_spells : Opens (Spells encode levels) ']'.toUInt8 := fun t v h => by
  obtain ⟨c, tail, rfl, hc⟩ := h.exists_cons
  exact ⟨c, tail, rfl, hc.other⟩

theorem complete_spells (levels : ℕ) : Complete (Spells encode levels) (readValue encode levels) := by
  induction levels with
  | zero => exact fun _ _ _ h => h.elim
  | succ levels ih =>
    intro t v rest h hrest
    cases v with
    | null =>
      obtain rfl : t = ascii "null" := h
      rfl
    | bool b =>
      obtain rfl : t = if b then ascii "true" else ascii "false" := h
      cases b <;> rfl
    | number text =>
      obtain ⟨rfl, hnumber⟩ := h
      obtain ⟨htake, hdrop⟩ := takeWhile_numeric hnumber hrest
      obtain ⟨c, tail, rfl, hc⟩ := hnumber.exists_cons
      have hnumeric := hnumber.numeric c List.mem_cons_self
      have hne : ∀ d : UInt8, isNumeric d = false → c ≠ d := by
        rintro d hd rfl
        rw [hd] at hnumeric
        contradiction
      rw [List.cons_append] at htake hdrop ⊢
      rw [readValue, if_neg (hne _ (by decide)), if_neg (hne _ (by decide)), if_neg (hne _ (by decide)),
        if_pos hnumeric, htake, hdrop]
    | string text =>
      obtain ⟨body, rfl, hbody⟩ := h
      rw [List.cons_append, List.append_assoc, List.singleton_append, readValue, if_pos rfl, readChars_append hbody,
        Option.map_some]
    | array items =>
      obtain ⟨tail, rfl, hitems⟩ := readBracketed_append ih opens_spells (by decide) _ rest h
      rw [List.cons_append, readValue, if_neg (by decide), if_pos rfl, hitems, Option.map_some]
    | object members =>
      have hmember : Complete (IsMember encode (Spells encode levels)) _ := complete_member ih fun t v h => by
        obtain ⟨c, tail, rfl, hc, -⟩ := opens_spells t v h
        exact ⟨c, tail, rfl, hc⟩
      obtain ⟨tail, rfl, hmembers⟩ := readBracketed_append hmember opens_member (by decide) _ rest h.1
      rw [List.cons_append, readValue, if_neg (by decide), if_neg (by decide), if_pos rfl, hmembers,
        Option.bind_some]
      exact if_pos h.2

/-- Every text of the grammar is read as the value that it spells. -/
theorem readText_of_isText {v : Value} (h : IsText encode levels t v) : readText encode levels t = some v := by
  obtain ⟨ws, value, ws', rfl, hws, hws', hv⟩ := h
  obtain ⟨c, tail, rfl, hc, -⟩ := opens_spells _ _ hv
  have hread := complete_spells levels _ _ ws' hv (by simpa using ends_numeric hws' (ends_nil _))
  have hend := skipWhite_append hws' (ends_nil _)
  rw [List.append_nil] at hend
  rw [List.cons_append] at hread
  rw [readText, List.cons_append, skipWhite_append hws (ends_cons hc _), hread]
  simp only [hend, if_true]

end Lib.Json
