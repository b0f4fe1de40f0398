import AIWorld.Lib.Json.Grammar
import AIWorld.Lib.Utf8

/-! String literals over the scalars of Unicode. A scalar stands for itself in UTF-8 or is escaped, one
beyond the first plane by a pair of surrogates. A literal over bytes whose value is well-formed UTF-8 is
one over scalars. -/

namespace Lib.Json

/-! ### Literals -/

/-- What follows a backslash, and the scalar that it stands for. -/
inductive Escape : Bytes → ℕ → Prop
  | short {c d : UInt8} (h : shortEscape c = some d) : Escape [c] d.toNat
  | unicode {c₁ c₂ c₃ c₄ : UInt8} {n : ℕ} (h : hexNumber c₁ c₂ c₃ c₄ = some n) (hn : ¬(0xD800 ≤ n ∧ n ≤ 0xDFFF)) :
      Escape ['u'.toUInt8, c₁, c₂, c₃, c₄] n
  | pair {c₁ c₂ c₃ c₄ d₁ d₂ d₃ d₄ : UInt8} {high low : ℕ} (h : hexNumber c₁ c₂ c₃ c₄ = some high)
      (h' : hexNumber d₁ d₂ d₃ d₄ = some low) (hhigh : 0xD800 ≤ high ∧ high ≤ 0xDBFF)
      (hlow : 0xDC00 ≤ low ∧ low ≤ 0xDFFF) :
      Escape ['u'.toUInt8, c₁, c₂, c₃, c₄, backslash, 'u'.toUInt8, d₁, d₂, d₃, d₄]
        (0x10000 + (high - 0xD800) * 0x400 + (low - 0xDC00))

/-- What stands between the quotes, and the scalars that it stands for. -/
inductive Body : Bytes → List ℕ → Prop
  | nil : Body [] []
  | plain {c : ℕ} {t : Bytes} {cs : List ℕ} (hc : Utf8.IsScalar c) (hcontrol : 0x20 ≤ c) (hquote : c ≠ 0x22)
      (hescape : c ≠ 0x5C) (ht : Body t cs) : Body (Utf8.encode c ++ t) (c :: cs)
  | escape {c : ℕ} {e t : Bytes} {cs : List ℕ} (he : Escape e c) (ht : Body t cs) :
      Body (backslash :: (e ++ t)) (c :: cs)

def IsLiteral (t : Bytes) (cs : List ℕ) : Prop := ∃ body, t = quote :: (body ++ [quote]) ∧ Body body cs

/-- The same over bytes, each of which stands for itself. -/
inductive Pieces : Bytes → Bytes → Prop
  | nil : Pieces [] []
  | plain {c : UInt8} {t s : Bytes} (hcontrol : 0x20 ≤ c) (hquote : c ≠ quote) (hescape : c ≠ backslash)
      (ht : Pieces t s) : Pieces (c :: t) (c :: s)
  | escape {c : ℕ} {e t s : Bytes} (he : Escape e c) (ht : Pieces t s) :
      Pieces (backslash :: (e ++ t)) (Utf8.encode c ++ s)

variable {t s e : Bytes} {c : ℕ} {cs : List ℕ}

theorem hexDigit_lt_sixteen {c : UInt8} {d : ℕ} (h : hexDigit c = some d) : d < 16 := by
  have hnine : '9'.toUInt8.toNat = 57 := rfl
  have hsmall : 'f'.toUInt8.toNat = 102 := rfl
  have hcapital : 'F'.toUInt8.toNat = 70 := rfl
  have hzero : '0'.toNat = 48 := rfl
  have ha : 'a'.toNat = 97 := rfl
  have hA : 'A'.toNat = 65 := rfl
  unfold hexDigit at h
  split_ifs at h with h₁ h₂ h₃ <;> cases h
  · have := UInt8.le_iff_toNat_le.mp h₁.2
    omega
  · have := UInt8.le_iff_toNat_le.mp h₂.2
    omega
  · have := UInt8.le_iff_toNat_le.mp h₃.2
    omega

theorem hexNumber_lt {c₁ c₂ c₃ c₄ : UInt8} {n : ℕ} (h : hexNumber c₁ c₂ c₃ c₄ = some n) : n < 0x10000 := by
  simp only [hexNumber, Option.bind_eq_bind, Option.bind_eq_some_iff, Option.some.injEq] at h
  obtain ⟨d₁, h₁, d₂, h₂, d₃, h₃, d₄, h₄, rfl⟩ := h
  have := hexDigit_lt_sixteen h₁
  have := hexDigit_lt_sixteen h₂
  have := hexDigit_lt_sixteen h₃
  have := hexDigit_lt_sixteen h₄
  omega

theorem shortEscape_lt {c d : UInt8} (h : shortEscape c = some d) : d.toNat < 0x80 := by
  unfold shortEscape at h
  split_ifs at h <;> cases h <;> decide

theorem Escape.isScalar (h : Escape e c) : Utf8.IsScalar c := by
  unfold Utf8.IsScalar
  cases h with
  | short h =>
    have := shortEscape_lt h
    omega
  | unicode h hn =>
    have := hexNumber_lt h
    omega
  | pair _ _ hhigh hlow => omega

theorem Body.isScalar (h : Body t cs) : ∀ c ∈ cs, Utf8.IsScalar c := by
  induction h with
  | nil => simp
  | plain hc _ _ _ _ ih => exact List.forall_mem_cons.mpr ⟨hc, ih⟩
  | escape he _ ih => exact List.forall_mem_cons.mpr ⟨he.isScalar, ih⟩

/-! ### Bytes and scalars -/

theorem pieces_plain {bs : Bytes} (h : ∀ b ∈ bs, 0x20 ≤ b ∧ b ≠ quote ∧ b ≠ backslash) (ht : Pieces t s) :
    Pieces (bs ++ t) (bs ++ s) := by
  induction bs with
  | nil => exact ht
  | cons b bs ih =>
    obtain ⟨⟨hcontrol, hquote, hescape⟩, hrest⟩ := List.forall_mem_cons.mp h
    exact .plain hcontrol hquote hescape (ih hrest)

theorem plain_of_mem_encode (hc : Utf8.IsScalar c) (hcontrol : 0x20 ≤ c) (hquote : c ≠ 0x22)
    (hescape : c ≠ 0x5C) : ∀ b ∈ Utf8.encode c, 0x20 ≤ b ∧ b ≠ quote ∧ b ≠ backslash := by
  intro b hb
  have hquote' : quote.toNat = 0x22 := rfl
  have hescape' : backslash.toNat = 0x5C := rfl
  have hspace : (0x20 : UInt8).toNat = 0x20 := rfl
  rw [UInt8.le_iff_toNat_le, Ne, Ne, ← UInt8.toNat_inj, ← UInt8.toNat_inj]
  rcases Utf8.mem_encode hc hb with ⟨_, h⟩ | ⟨_, h⟩ <;> omega

theorem Body.pieces (h : Body t cs) : Pieces t (Utf8.encodeAll cs) := by
  induction h with
  | nil => exact .nil
  | plain hc hcontrol hquote hescape _ ih =>
    exact pieces_plain (plain_of_mem_encode hc hcontrol hquote hescape) ih
  | escape he _ ih => exact .escape he ih

/-- Bytes that continue a scalar are not escaped. -/
theorem Pieces.of_continues {bs : Bytes} (hbs : ∀ b ∈ bs, Utf8.Continues b) (h : Pieces t (bs ++ s)) :
    ∃ t', t = bs ++ t' ∧ Pieces t' s := by
  induction bs generalizing t with
  | nil => exact ⟨t, rfl, h⟩
  | cons b bs ih =>
    obtain ⟨hb, hrest⟩ := List.forall_mem_cons.mp hbs
    generalize hs : b :: bs ++ s = s' at h
    cases h with
    | nil => contradiction
    | plain _ _ _ ht =>
      obtain ⟨rfl, rfl⟩ := List.cons.inj hs
      obtain ⟨t', rfl, ht'⟩ := ih hrest ht
      exact ⟨t', rfl, ht'⟩
    | escape he ht =>
      obtain ⟨b', bs', hencode, hb', -⟩ := Utf8.encode_eq_cons he.isScalar
      rw [hencode] at hs
      obtain ⟨rfl, -⟩ := List.cons.inj hs
      exact absurd hb hb'

/-- Over bytes with well-formed UTF-8 as their value a literal is one over scalars. -/
theorem Pieces.body (hcs : ∀ c ∈ cs, Utf8.IsScalar c) (h : Pieces t (Utf8.encodeAll cs)) : Body t cs := by
  induction cs generalizing t with
  | nil =>
    generalize hs : Utf8.encodeAll [] = s at h
    cases h with
    | nil => exact .nil
    | plain => contradiction
    | escape he => exact absurd (List.append_eq_nil_iff.mp hs.symm).1 (Utf8.encode_ne_nil _)
  | cons c cs ih =>
    obtain ⟨hc, hrest⟩ := List.forall_mem_cons.mp hcs
    generalize hs : Utf8.encodeAll (c :: cs) = s at h
    rw [Utf8.encodeAll_cons] at hs
    cases h with
    | nil => exact absurd (List.append_eq_nil_iff.mp hs).1 (Utf8.encode_ne_nil c)
    | @plain b t _ hcontrol hquote hescape ht =>
      obtain ⟨b', bs, hencode, -, hbs⟩ := Utf8.encode_eq_cons hc
      rw [hencode] at hs
      obtain ⟨rfl, rfl⟩ := List.cons.inj hs
      obtain ⟨t', rfl, ht'⟩ := ht.of_continues hbs
      have hb := Utf8.mem_encode hc (hencode ▸ List.mem_cons_self)
      have hspace := UInt8.le_iff_toNat_le.mp hcontrol
      rw [Ne, ← UInt8.toNat_inj] at hquote hescape
      change ¬ b'.toNat = 0x22 at hquote
      change ¬ b'.toNat = 0x5C at hescape
      change 0x20 ≤ b'.toNat at hspace
      have hbody := Body.plain hc (by omega) (by omega) (by omega) (ih hrest ht')
      rwa [hencode] at hbody
    | @escape n e t s he ht =>
      have hfirst := Utf8.decode_encode hc (Utf8.encodeAll cs)
      rw [hs, Utf8.decode_encode he.isScalar] at hfirst
      obtain ⟨rfl, rfl⟩ := Prod.mk.inj (Option.some.inj hfirst)
      exact .escape he (ih hrest ht)

/-- A literal is no shorter than what it stands for. -/
theorem Pieces.length_le (h : Pieces t s) : s.length ≤ t.length := by
  induction h with
  | nil => exact le_rfl
  | plain _ _ _ _ ih => exact Nat.succ_le_succ ih
  | @escape c e t s he _ ih =>
    have hencode : (Utf8.encode c).length ≤ e.length + 1 := by
      cases he with
      | short h =>
        rw [Utf8.encode_of_lt (shortEscape_lt h)]
        simp
      | unicode | pair =>
        exact (Utf8.length_encode_le _).trans (by simp)
    simp only [List.length_append, List.length_cons]
    omega

theorem IsLiteral.length_le (h : IsLiteral t cs) : (Utf8.encodeAll cs).length ≤ t.length := by
  obtain ⟨body, rfl, hbody⟩ := h
  have hle := hbody.pieces.length_le
  simp only [List.length_append, List.length_cons]
  omega

/-! ### Records -/

/-- A member of an object: its key and the text of its value. -/
def IsNamed (t : Bytes) (m : Bytes × Bytes) : Prop :=
  ∃ lit cs ws ws', t = lit ++ (ws ++ ':'.toUInt8 :: (ws' ++ m.2)) ∧ IsLiteral lit cs ∧
    m.1 = Utf8.encodeAll cs ∧ White ws ∧ White ws'

/-- An object with each of some keys once, in any order, and no others. The text of each value is
as the field of a record says. -/
def IsRecord {σ : Type*} (names : List Bytes) (Is : Bytes → Bytes → σ → Prop) (t : Bytes) (s : σ) : Prop :=
  ∃ members, Bracketed IsNamed 0x7B 0x7D t members ∧ (members.map Prod.fst).Perm names ∧
    ∀ m ∈ members, Is m.1 m.2 s

end Lib.Json
