import Mathlib.Data.List.Basic
import Mathlib.Data.List.DropRight
import Mathlib.Order.Defs.LinearOrder
import Mathlib.Tactic.Common

/-! UTF-8. A scalar is written in one to four bytes; the strict decoder reads exactly what is written so,
and a text of scalars is written in only one way. -/

namespace Lib.Utf8

/-- Unicode's code points without the surrogates. -/
def IsScalar (c : ℕ) : Prop := c ≤ 0x10FFFF ∧ ¬(0xD800 ≤ c ∧ c ≤ 0xDFFF)

instance (c : ℕ) : Decidable (IsScalar c) := inferInstanceAs (Decidable (_ ∧ _))

/-! ### Writing -/

/-- A byte that continues a scalar. -/
def tail (c : ℕ) : UInt8 := (0x80 + c % 64).toUInt8

def encode (c : ℕ) : List UInt8 :=
  if c < 0x80 then [c.toUInt8]
  else if c < 0x800 then [(0xC0 + c / 64).toUInt8, tail c]
  else if c < 0x10000 then [(0xE0 + c / 4096).toUInt8, tail (c / 64), tail c]
  else [(0xF0 + c / 262144).toUInt8, tail (c / 4096), tail (c / 64), tail c]

def encodeAll (cs : List ℕ) : List UInt8 := cs.flatMap encode

@[simp] theorem encodeAll_nil : encodeAll [] = [] := rfl

@[simp] theorem encodeAll_cons (c : ℕ) (cs : List ℕ) : encodeAll (c :: cs) = encode c ++ encodeAll cs := rfl

theorem encodeAll_append (cs ds : List ℕ) : encodeAll (cs ++ ds) = encodeAll cs ++ encodeAll ds :=
  List.flatMap_append

theorem one_le_length_encode (c : ℕ) : 1 ≤ (encode c).length := by
  unfold encode
  split_ifs <;> simp

theorem length_encode_le (c : ℕ) : (encode c).length ≤ 4 := by
  unfold encode
  split_ifs <;> simp

theorem encode_ne_nil (c : ℕ) : encode c ≠ [] := by
  have h := one_le_length_encode c
  intro hnil
  simp [hnil] at h

theorem encodeAll_eq_nil {cs : List ℕ} : encodeAll cs = [] ↔ cs = [] := by
  cases cs with
  | nil => simp
  | cons c cs => simp [encode_ne_nil]

theorem length_le_encodeAll (cs : List ℕ) : cs.length ≤ (encodeAll cs).length := by
  induction cs with
  | nil => simp
  | cons c cs ih =>
    have hc := one_le_length_encode c
    rw [encodeAll_cons, List.length_append, List.length_cons]
    omega

/-! ### Writing by bits -/

theorem tail_bits (c : ℕ) : (0x80 ||| c &&& 0x3F).toUInt8 = tail c := by
  have hmask : c &&& 0x3F = c % 64 := Nat.and_two_pow_sub_one_eq_mod c 6
  have hor := Nat.two_pow_add_eq_or_of_lt (i := 6) (b := c % 64) (by omega) 2
  rw [hmask, tail, ← hor]

theorem encode_two_bits {c : ℕ} (hlow : ¬c < 0x80) (h : c < 0x800) :
    [(0xC0 ||| c >>> 6).toUInt8, (0x80 ||| c &&& 0x3F).toUInt8] = encode c := by
  have hor := Nat.two_pow_add_eq_or_of_lt (i := 5) (b := c / 64) (by omega) 6
  have hfirst : (0xC0 ||| c >>> 6).toUInt8 = (0xC0 + c / 64).toUInt8 := by
    rw [Nat.shiftRight_eq_div_pow]
    exact congrArg Nat.toUInt8 hor.symm
  rw [hfirst, tail_bits, encode, if_neg hlow, if_pos h]

theorem encode_three_bits {c : ℕ} (hlow : ¬c < 0x800) (h : c < 0x10000) :
    [(0xE0 ||| c >>> 12).toUInt8, (0x80 ||| c >>> 6 &&& 0x3F).toUInt8, (0x80 ||| c &&& 0x3F).toUInt8] =
      encode c := by
  have hor := Nat.two_pow_add_eq_or_of_lt (i := 4) (b := c / 4096) (by omega) 14
  have hfirst : (0xE0 ||| c >>> 12).toUInt8 = (0xE0 + c / 4096).toUInt8 := by
    rw [Nat.shiftRight_eq_div_pow]
    exact congrArg Nat.toUInt8 hor.symm
  rw [hfirst, tail_bits, tail_bits, Nat.shiftRight_eq_div_pow c 6, encode, if_neg (by omega), if_neg hlow, if_pos h]

theorem encode_four_bits {c : ℕ} (hlow : ¬c < 0x10000) (h : c < 0x200000) :
    [(0xF0 ||| c >>> 18).toUInt8, (0x80 ||| c >>> 12 &&& 0x3F).toUInt8, (0x80 ||| c >>> 6 &&& 0x3F).toUInt8,
      (0x80 ||| c &&& 0x3F).toUInt8] = encode c := by
  have hor := Nat.two_pow_add_eq_or_of_lt (i := 3) (b := c / 262144) (by omega) 30
  have hfirst : (0xF0 ||| c >>> 18).toUInt8 = (0xF0 + c / 262144).toUInt8 := by
    rw [Nat.shiftRight_eq_div_pow]
    exact congrArg Nat.toUInt8 hor.symm
  rw [hfirst, tail_bits, tail_bits, tail_bits, Nat.shiftRight_eq_div_pow c 12, Nat.shiftRight_eq_div_pow c 6, encode,
    if_neg (by omega), if_neg (by omega), if_neg hlow]

/-! ### Reading -/

/-- How many bytes a first byte announces, its own bits, and the least scalar of that length. -/
def lead (b : UInt8) : Option (ℕ × ℕ × ℕ) :=
  if 0xC2 ≤ b.toNat ∧ b.toNat ≤ 0xDF then some (1, b.toNat % 32, 0x80)
  else if 0xE0 ≤ b.toNat ∧ b.toNat ≤ 0xEF then some (2, b.toNat % 16, 0x800)
  else if 0xF0 ≤ b.toNat ∧ b.toNat ≤ 0xF4 then some (3, b.toNat % 8, 0x10000)
  else if 0x80 ≤ b.toNat then none
  else some (0, b.toNat, 0)

/-- The bits of the bytes that follow. -/
def follow : ℕ → ℕ → List UInt8 → Option (ℕ × List UInt8)
  | 0, c, rest => some (c, rest)
  | _ + 1, _, [] => none
  | k + 1, c, b :: rest => if b.toNat / 64 = 2 then follow k (c * 64 + b.toNat % 64) rest else none

/-- The scalar that a text begins with: no longer form than needed, no surrogate, nothing past the last
code point. -/
def decode : List UInt8 → Option (ℕ × List UInt8)
  | [] => none
  | b :: text => do
    let (extra, bits, least) ← lead b
    let (c, rest) ← follow extra bits text
    if c < least ∨ ¬IsScalar c then none else some (c, rest)

theorem lead_cases {b : UInt8} {extra bits least : ℕ} (h : lead b = some (extra, bits, least)) :
    (extra = 1 ∧ least = 0x80 ∧ bits < 32 ∧ b.toNat = 0xC0 + bits) ∨
    (extra = 2 ∧ least = 0x800 ∧ bits < 16 ∧ b.toNat = 0xE0 + bits) ∨
    (extra = 3 ∧ least = 0x10000 ∧ bits < 8 ∧ b.toNat = 0xF0 + bits) ∨
    (extra = 0 ∧ least = 0 ∧ bits < 0x80 ∧ b.toNat = bits) := by
  unfold lead at h
  split_ifs at h with h₁ h₂ h₃ h₄ <;> cases h <;> omega

/-! ### What is decoded was encoded -/

theorem toUInt8_of_toNat {b : UInt8} {n : ℕ} (h : b.toNat = n) : n.toUInt8 = b := by
  subst h
  simp

theorem tail_of_toNat {b : UInt8} {c : ℕ} (h : b.toNat / 64 = 2) (hc : c % 64 = b.toNat % 64) : tail c = b := by
  apply toUInt8_of_toNat
  omega

/-- What is decoded was encoded there. -/
theorem decode_sound {text rest : List UInt8} {c : ℕ} (h : decode text = some (c, rest)) :
    IsScalar c ∧ text = encode c ++ rest := by
  cases text with
  | nil => contradiction
  | cons b text =>
    simp only [decode, Option.bind_eq_bind, Option.bind_eq_some_iff, Option.ite_none_left_eq_some, not_or,
      not_not, Option.some.injEq, Prod.mk.injEq] at h
    obtain ⟨⟨extra, bits, least⟩, hlead, ⟨c', rest'⟩, hfollow, ⟨hleast, hscalar⟩, rfl, rfl⟩ := h
    refine ⟨hscalar, ?_⟩
    obtain ⟨rfl, rfl, hbits, hb⟩ | ⟨rfl, rfl, hbits, hb⟩ | ⟨rfl, rfl, hbits, hb⟩ | ⟨rfl, rfl, hbits, hb⟩ :=
      lead_cases hlead <;> simp only at hleast
    · obtain - | ⟨b₁, text⟩ := text <;>
        simp only [follow, reduceCtorEq, Option.ite_none_right_eq_some, Option.some.injEq, Prod.mk.injEq] at hfollow
      obtain ⟨h₁, rfl, rfl⟩ := hfollow
      rw [encode, if_neg (by omega), if_pos (by omega), toUInt8_of_toNat (b := b) (by omega),
        tail_of_toNat h₁ (by omega)]
      rfl
    · obtain - | ⟨b₁, - | ⟨b₂, text⟩⟩ := text <;>
        simp only [follow, reduceCtorEq, Option.ite_none_right_eq_some, Option.some.injEq, Prod.mk.injEq,
          and_false] at hfollow
      obtain ⟨h₁, h₂, rfl, rfl⟩ := hfollow
      rw [encode, if_neg (by omega), if_neg (by omega), if_pos (by omega), toUInt8_of_toNat (b := b) (by omega),
        tail_of_toNat h₁ (by omega), tail_of_toNat h₂ (by omega)]
      rfl
    · obtain - | ⟨b₁, - | ⟨b₂, - | ⟨b₃, text⟩⟩⟩ := text <;>
        simp only [follow, reduceCtorEq, Option.ite_none_right_eq_some, Option.some.injEq, Prod.mk.injEq,
          and_false] at hfollow
      obtain ⟨h₁, h₂, h₃, rfl, rfl⟩ := hfollow
      rw [encode, if_neg (by omega), if_neg (by omega), if_neg (by omega), toUInt8_of_toNat (b := b) (by omega),
        tail_of_toNat h₁ (by omega), tail_of_toNat h₂ (by omega), tail_of_toNat h₃ (by omega)]
      rfl
    · simp only [follow, Option.some.injEq, Prod.mk.injEq] at hfollow
      obtain ⟨rfl, rfl⟩ := hfollow
      rw [encode, if_pos hbits, toUInt8_of_toNat hb]
      rfl

/-! ### What is encoded is decoded -/

theorem toNat_tail (c : ℕ) : (tail c).toNat = 0x80 + c % 64 := by
  rw [tail, Nat.toUInt8_eq, UInt8.toNat_ofNat']
  omega

theorem toNat_toUInt8 {n : ℕ} (h : n < 256) : n.toUInt8.toNat = n := by
  rw [Nat.toUInt8_eq, UInt8.toNat_ofNat']
  omega

/-- The first byte of a scalar announces the others. -/
theorem follow_tail {k c d : ℕ} (rest : List UInt8) :
    follow (k + 1) c (tail d :: rest) = follow k (c * 64 + d % 64) rest := by
  have hd := toNat_tail d
  rw [follow, if_pos (by omega)]
  congr 2
  omega

theorem lead_one {n : ℕ} (h : n < 0x80) : lead n.toUInt8 = some (0, n, 0) := by
  have hb : n.toUInt8.toNat = n := toNat_toUInt8 (by omega)
  rw [lead, hb, if_neg (by omega), if_neg (by omega), if_neg (by omega), if_neg (by omega)]

theorem lead_two {n : ℕ} (h : 2 ≤ n ∧ n < 32) : lead (0xC0 + n).toUInt8 = some (1, n, 0x80) := by
  have hb : (0xC0 + n).toUInt8.toNat = 0xC0 + n := toNat_toUInt8 (by omega)
  have hbits : (0xC0 + n) % 32 = n := by omega
  rw [lead, hb, if_pos (by omega), hbits]

theorem lead_three {n : ℕ} (h : n < 16) : lead (0xE0 + n).toUInt8 = some (2, n, 0x800) := by
  have hb : (0xE0 + n).toUInt8.toNat = 0xE0 + n := toNat_toUInt8 (by omega)
  have hbits : (0xE0 + n) % 16 = n := by omega
  rw [lead, hb, if_neg (by omega), if_pos (by omega), hbits]

theorem lead_four {n : ℕ} (h : n < 5) : lead (0xF0 + n).toUInt8 = some (3, n, 0x10000) := by
  have hb : (0xF0 + n).toUInt8.toNat = 0xF0 + n := toNat_toUInt8 (by omega)
  have hbits : (0xF0 + n) % 8 = n := by omega
  rw [lead, hb, if_neg (by omega), if_neg (by omega), if_pos (by omega), hbits]

theorem decode_cons {b : UInt8} {text rest : List UInt8} {extra bits least c : ℕ}
    (hlead : lead b = some (extra, bits, least)) (hfollow : follow extra bits text = some (c, rest))
    (hleast : least ≤ c) (hc : IsScalar c) : decode (b :: text) = some (c, rest) := by
  simp [decode, hlead, hfollow, hleast, hc]

/-- A scalar that is written is decoded, whatever follows. -/
theorem decode_encode {c : ℕ} (hc : IsScalar c) (rest : List UInt8) : decode (encode c ++ rest) = some (c, rest) := by
  have hmax : c ≤ 0x10FFFF := hc.1
  unfold encode
  split_ifs with h₁ h₂ h₃ <;> simp only [List.cons_append, List.nil_append]
  · exact decode_cons (lead_one h₁) rfl (Nat.zero_le c) hc
  · have hbits : c / 64 * 64 + c % 64 = c := by omega
    refine decode_cons (lead_two (by omega)) ?_ (by omega) hc
    rw [follow_tail, hbits]
    rfl
  · have hbits : (c / 4096 * 64 + c / 64 % 64) * 64 + c % 64 = c := by omega
    refine decode_cons (lead_three (by omega)) ?_ (by omega) hc
    rw [follow_tail, follow_tail, hbits]
    rfl
  · have hbits : ((c / 262144 * 64 + c / 4096 % 64) * 64 + c / 64 % 64) * 64 + c % 64 = c := by omega
    refine decode_cons (lead_four (by omega)) ?_ (by omega) hc
    rw [follow_tail, follow_tail, follow_tail, hbits]
    rfl

/-! ### Bytes of a scalar -/

/-- Below 0x80 a byte stands for itself, and no other scalar has such a byte. -/
theorem mem_encode {c : ℕ} (hc : IsScalar c) {b : UInt8} (hb : b ∈ encode c) :
    (c < 0x80 ∧ b.toNat = c) ∨ (0x80 ≤ c ∧ 0x80 ≤ b.toNat) := by
  have hmax : c ≤ 0x10FFFF := hc.1
  have htail : ∀ d, 0x80 ≤ (tail d).toNat := fun d => by rw [toNat_tail]; omega
  unfold encode at hb
  split_ifs at hb with h₁ h₂ h₃ <;> simp only [List.mem_cons, List.not_mem_nil, or_false] at hb
  · exact .inl ⟨h₁, by rw [hb, toNat_toUInt8 (by omega)]⟩
  · refine .inr ⟨by omega, ?_⟩
    obtain rfl | rfl := hb
    · rw [toNat_toUInt8 (by omega)]; omega
    · exact htail _
  · refine .inr ⟨by omega, ?_⟩
    obtain rfl | rfl | rfl := hb
    · rw [toNat_toUInt8 (by omega)]; omega
    all_goals exact htail _
  · refine .inr ⟨by omega, ?_⟩
    obtain rfl | rfl | rfl | rfl := hb
    · rw [toNat_toUInt8 (by omega)]; omega
    all_goals exact htail _

theorem encode_of_lt {c : ℕ} (h : c < 0x80) : encode c = [c.toUInt8] := if_pos h

/-- A byte that continues a scalar announces none. -/
def Continues (b : UInt8) : Prop := b.toNat / 64 = 2

theorem continues_tail (c : ℕ) : Continues (tail c) := by
  unfold Continues
  rw [toNat_tail]
  omega

/-- Only the first byte of a scalar is none that continues one. -/
theorem encode_eq_cons {c : ℕ} (hc : IsScalar c) :
    ∃ b rest, encode c = b :: rest ∧ ¬ Continues b ∧ ∀ x ∈ rest, Continues x := by
  have hmax : c ≤ 0x10FFFF := hc.1
  unfold encode
  split_ifs with h₁ h₂ h₃
  · refine ⟨_, _, rfl, ?_, by simp⟩
    rw [Continues, toNat_toUInt8 (by omega)]
    omega
  · refine ⟨_, _, rfl, ?_, by simp [continues_tail]⟩
    rw [Continues, toNat_toUInt8 (by omega)]
    omega
  · refine ⟨_, _, rfl, ?_, by simp [continues_tail]⟩
    rw [Continues, toNat_toUInt8 (by omega)]
    omega
  · refine ⟨_, _, rfl, ?_, by simp [continues_tail]⟩
    rw [Continues, toNat_toUInt8 (by omega)]
    omega

section Trimming
variable {a : ℕ} (ha : a < 0x80)
include ha

theorem mem_encode_eq_iff {c : ℕ} (hc : IsScalar c) {b : UInt8} (hb : b ∈ encode c) : b = a.toUInt8 ↔ c = a := by
  rw [← UInt8.toNat_inj, toNat_toUInt8 (n := a) (by omega)]
  obtain ⟨_, h⟩ | ⟨_, h⟩ := mem_encode hc hb <;> omega

/-- An ASCII character is dropped from the front of a text as from its scalars. -/
theorem dropWhile_encodeAll {cs : List ℕ} (hcs : ∀ c ∈ cs, IsScalar c) :
    (encodeAll cs).dropWhile (· = a.toUInt8) = encodeAll (cs.dropWhile (· = a)) := by
  induction cs with
  | nil => rfl
  | cons c cs ih =>
    obtain ⟨hc, hcs⟩ := List.forall_mem_cons.mp hcs
    by_cases hca : c = a
    · subst hca
      simp [encode_of_lt ha, ih hcs]
    · obtain ⟨b, t, hbt⟩ := List.exists_cons_of_ne_nil (encode_ne_nil c)
      have hb : b ≠ a.toUInt8 := fun h =>
        hca ((mem_encode_eq_iff ha hc (by rw [hbt]; exact List.mem_cons_self)).mp h)
      rw [List.dropWhile_cons_of_neg (by simpa using hca), encodeAll_cons, hbt, List.cons_append,
        List.dropWhile_cons_of_neg (by simpa using hb)]

/-- The same at the end. -/
theorem rdropWhile_encodeAll {cs : List ℕ} (hcs : ∀ c ∈ cs, IsScalar c) :
    (encodeAll cs).rdropWhile (· = a.toUInt8) = encodeAll (cs.rdropWhile (· = a)) := by
  induction cs using List.reverseRecOn with
  | nil => rfl
  | append_singleton cs c ih =>
    have hc : IsScalar c := hcs c (by simp)
    have hrest : ∀ c ∈ cs, IsScalar c := fun c hc => hcs c (by simp [hc])
    have hone : encodeAll (cs ++ [c]) = encodeAll cs ++ encode c := by simp [encodeAll_append]
    by_cases hca : c = a
    · subst hca
      rw [hone, encode_of_lt ha, List.rdropWhile_concat_pos _ _ _ (by simp),
        List.rdropWhile_concat_pos _ _ _ (by simp), ih hrest]
    · obtain ⟨t, b, hbt⟩ := List.eq_nil_or_concat (encode c) |>.resolve_left (encode_ne_nil c)
      have hb : b ≠ a.toUInt8 := fun h => hca ((mem_encode_eq_iff ha hc (by rw [hbt]; simp)).mp h)
      rw [List.rdropWhile_concat_neg _ _ _ (by simpa using hca), hone, hbt, List.concat_eq_append, ← List.append_assoc,
        List.rdropWhile_concat_neg _ _ _ (by simpa using hb)]

end Trimming

/-- Texts of scalars that are the same bytes are the same scalars. -/
theorem encodeAll_inj {cs ds : List ℕ} (hcs : ∀ c ∈ cs, IsScalar c) (hds : ∀ d ∈ ds, IsScalar d) :
    encodeAll cs = encodeAll ds ↔ cs = ds := by
  refine ⟨fun h => ?_, fun h => by rw [h]⟩
  induction cs generalizing ds with
  | nil => exact (encodeAll_eq_nil.mp h.symm).symm
  | cons c cs ih =>
    cases ds with
    | nil => exact encodeAll_eq_nil.mp h
    | cons d ds =>
      obtain ⟨hc, hcs⟩ := List.forall_mem_cons.mp hcs
      obtain ⟨hd, hds⟩ := List.forall_mem_cons.mp hds
      have hfirst := decode_encode hc (encodeAll cs)
      rw [← encodeAll_cons, h, encodeAll_cons, decode_encode hd] at hfirst
      obtain ⟨hcd, hrest⟩ := Prod.mk.inj (Option.some.inj hfirst)
      rw [hcd, ih hcs hds hrest.symm]

end Lib.Utf8
