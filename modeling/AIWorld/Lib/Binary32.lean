import Mathlib

/-! Single precision numbers as programs compare them. Two of them are equal to a
program when they are the same number or zeros of any sign, and arithmetic does not
tell such numbers apart. Squares and their sums are never a NaN when they start from
finite numbers, so a comparison of distances always has an answer. -/

namespace Lib.Binary32

open Float.Model Float.Model.UnpackedFloat

/-! ### Bits and what they stand for -/

theorem toNat_unpackMantissa (b : BitVec 32) :
    (@unpackMantissa .binary32 b).toNat = b.toNat % 2 ^ 23 := by
  simp [unpackMantissa]

theorem toNat_unpackExponent (b : BitVec 32) :
    (@unpackExponent .binary32 b).toNat = b.toNat / 2 ^ 23 % 2 ^ 8 := by
  simp [unpackExponent, Nat.shiftRight_eq_div_pow]

theorem toNat_unpackSign (b : BitVec 32) :
    (@unpackSign .binary32 b).toNat = b.toNat / 2 ^ 31 % 2 := by
  change (BitVec.extractLsb 31 31 b).toNat = _
  simp [Nat.shiftRight_eq_div_pow]

theorem pieces_ext {b c : BitVec 32} (hs : @unpackSign .binary32 b = @unpackSign .binary32 c)
    (he : @unpackExponent .binary32 b = @unpackExponent .binary32 c)
    (hm : @unpackMantissa .binary32 b = @unpackMantissa .binary32 c) : b = c := by
  have hs' := congrArg BitVec.toNat hs
  have he' := congrArg BitVec.toNat he
  have hm' := congrArg BitVec.toNat hm
  rw [toNat_unpackSign, toNat_unpackSign] at hs'
  rw [toNat_unpackExponent, toNat_unpackExponent] at he'
  rw [toNat_unpackMantissa, toNat_unpackMantissa] at hm'
  have hb := b.isLt
  have hc := c.isLt
  apply BitVec.eq_of_toNat_eq
  omega

theorem sign_inj {s t : BitVec 1} (h : Sign.ofBitVec s = Sign.ofBitVec t) : s = t := by
  have hs : s = 0#1 ∨ s = 1#1 := by bv_omega
  have ht : t = 0#1 ∨ t = 1#1 := by bv_omega
  rcases hs with rfl | rfl <;> rcases ht with rfl | rfl <;> simp_all [Sign.ofBitVec]

theorem toNat_normal (m : BitVec 23) : (1#1 ++ m).toNat = 2 ^ 23 + m.toNat := by
  have hm := m.isLt
  rw [BitVec.toNat_append, ← Nat.shiftLeft_add_eq_or_of_lt (by omega)]
  simp

/-- What a pattern of bits stands for. -/
theorem unpack_cases (x : BitVec 32) :
    (@unpackExponent .binary32 x = -1#8 ∧ @unpackMantissa .binary32 x = 0#23 ∧
      unpack .binary32 x = .infinity (Sign.ofBitVec (@unpackSign .binary32 x))) ∨
    (@unpackExponent .binary32 x = -1#8 ∧ @unpackMantissa .binary32 x ≠ 0#23 ∧ unpack .binary32 x = .notANumber) ∨
    (@unpackExponent .binary32 x = 0#8 ∧ @unpackMantissa .binary32 x = 0#23 ∧
      unpack .binary32 x = .zero (Sign.ofBitVec (@unpackSign .binary32 x))) ∨
    (@unpackExponent .binary32 x = 0#8 ∧ ∃ h, unpack .binary32 x =
      .finite (Sign.ofBitVec (@unpackSign .binary32 x)) (@unpackMantissa .binary32 x).toNat
        ((@unpackExponent .binary32 x).toNat - 150 + 1) h) ∨
    ∃ h, unpack .binary32 x = .finite (Sign.ofBitVec (@unpackSign .binary32 x))
      (1#1 ++ @unpackMantissa .binary32 x).toNat ((@unpackExponent .binary32 x).toNat - 150) h := by
  unfold UnpackedFloat.unpack
  dsimp only
  by_cases hexp : @unpackExponent .binary32 x = -1#8
  · rw [if_pos hexp]
    by_cases hm : @unpackMantissa .binary32 x = 0#23
    · exact .inl ⟨hexp, hm, if_pos hm⟩
    · exact .inr (.inl ⟨hexp, hm, if_neg hm⟩)
  · rw [if_neg hexp]
    by_cases hzero : @unpackExponent .binary32 x = 0#8
    · rw [if_pos hzero]
      by_cases hm : @unpackMantissa .binary32 x = 0#23
      · exact .inr (.inr (.inl ⟨hzero, hm, dif_pos hm⟩))
      · have hpos : 0 < (@unpackMantissa .binary32 x).toNat := Nat.pos_of_ne_zero fun h => hm (BitVec.eq_of_toNat_eq h)
        exact .inr (.inr (.inr (.inl ⟨hzero, hpos, dif_neg hm⟩)))
    · have hpos : 0 < (1#1 ++ @unpackMantissa .binary32 x).toNat := by
        rw [toNat_normal]
        omega
      exact .inr (.inr (.inr (.inr ⟨hpos, if_neg hzero⟩)))

/-- A number is known by its sign, mantissa and exponent: the unpacked form loses nothing. -/
theorem unpack_inj {x y : BitVec 32} (hx : Format.binary32.Valid x) (hy : Format.binary32.Valid y)
    (h : UnpackedFloat.unpack .binary32 x = UnpackedFloat.unpack .binary32 y) : x = y := by
  have hmx : (@unpackMantissa .binary32 x).toNat < 2 ^ 23 := (@unpackMantissa .binary32 x).isLt
  have hmy : (@unpackMantissa .binary32 y).toNat < 2 ^ 23 := (@unpackMantissa .binary32 y).isLt
  obtain ⟨hex, hm, hux⟩ | ⟨hex, hm, hux⟩ | ⟨hex, hm, hux⟩ | ⟨hex, _, hux⟩ | ⟨_, hux⟩ := unpack_cases x <;>
    obtain ⟨hey, hm', huy⟩ | ⟨hey, hm', huy⟩ | ⟨hey, hm', huy⟩ | ⟨hey, _, huy⟩ | ⟨_, huy⟩ := unpack_cases y <;>
    rw [hux, huy] at h <;>
    try exact UnpackedFloat.noConfusion h
  · exact pieces_ext (sign_inj (infinity.inj h)) (hex.trans hey.symm) (hm.trans hm'.symm)
  · exact (hx.eq_packedNaN hex hm).trans (hy.eq_packedNaN hey hm').symm
  · exact pieces_ext (sign_inj (zero.inj h)) (hex.trans hey.symm) (hm.trans hm'.symm)
  · obtain ⟨hs, hm, -⟩ := finite.inj h
    exact pieces_ext (sign_inj hs) (hex.trans hey.symm) (BitVec.eq_of_toNat_eq hm)
  · obtain ⟨-, hm, -⟩ := finite.inj h
    rw [toNat_normal] at hm
    omega
  · obtain ⟨-, hm, -⟩ := finite.inj h
    rw [toNat_normal] at hm
    omega
  · obtain ⟨hs, hm, he⟩ := finite.inj h
    rw [toNat_normal, toNat_normal] at hm
    exact pieces_ext (sign_inj hs) (BitVec.eq_of_toNat_eq (by omega))
      (BitVec.eq_of_toNat_eq (by omega))

/-! ### Equal to a program -/

/-- The same number, or zeros of any sign. -/
def Alike (a b : Float32) : Prop :=
  a = b ∨ ∃ s t, a.toModel.unpack = .zero s ∧ b.toModel.unpack = .zero t

theorem Alike.refl (a : Float32) : Alike a a := .inl rfl

theorem Alike.symm {a b : Float32} : Alike a b → Alike b a
  | .inl h => .inl h.symm
  | .inr ⟨s, t, ha, hb⟩ => .inr ⟨t, s, hb, ha⟩

theorem Alike.trans {a b c : Float32} (hab : Alike a b) (hbc : Alike b c) : Alike a c := by
  rcases hab with rfl | ⟨s, t, ha, hb⟩
  · exact hbc
  · rcases hbc with rfl | ⟨_, u, _, hc⟩
    · exact .inr ⟨s, t, ha, hb⟩
    · exact .inr ⟨s, u, ha, hc⟩

theorem eq_of_unpack_eq {a b : Float32} (h : a.toModel.unpack = b.toModel.unpack) : a = b := by
  have hbits := UInt32.toBitVec_inj.mp (unpack_inj a.toModel.valid b.toModel.valid h)
  obtain ⟨⟨_, _⟩⟩ := a
  obtain ⟨⟨_, _⟩⟩ := b
  cases hbits
  rfl

theorem unpack_pack_zero (s : Sign) : (Float32.Model.pack (.zero s)).unpack = .zero s := by
  cases s <;> rfl

theorem compare_eq_eq_iff {x y : UnpackedFloat} :
    x.compare y = some .eq ↔ x ≠ .notANumber ∧ (x = y ∨ ∃ s t, x = .zero s ∧ y = .zero t) := by
  have hsign : ∀ s t : Sign, compare s t = .eq ↔ s = t := by
    intro s t
    cases s <;> cases t <;> simp [compare]
  rcases x with ⟨_ | _⟩ | _ | _ | ⟨_ | _, m, e, h⟩ <;>
    rcases y with ⟨_ | _⟩ | _ | _ | ⟨_ | _, m', e', h'⟩ <;>
    simp [UnpackedFloat.compare, hsign, Ordering.then_eq_eq, and_comm]

theorem compare_swap (x y : UnpackedFloat) : y.compare x = (x.compare y).map Ordering.swap := by
  have hless : compare Sign.negative Sign.positive = .lt := rfl
  have hmore : compare Sign.positive Sign.negative = .gt := rfl
  have hsame : ∀ s : Sign, compare s s = .eq := by
    intro s
    cases s <;> rfl
  have hexp : ∀ e e' : ℤ, compare e' e = (compare e e').swap := fun e e' => (Int.compare_swap e e').symm
  have hman : ∀ m m' : Nat, compare m' m = (compare m m').swap := fun m m' => (Nat.compare_swap m m').symm
  rcases x with ⟨_ | _⟩ | _ | _ | ⟨_ | _, m, e, h⟩ <;>
    rcases y with ⟨_ | _⟩ | _ | _ | ⟨_ | _, m', e', h'⟩ <;>
    simp only [UnpackedFloat.compare, hless, hmore, hsame, Option.map, Ordering.swap]
  · rw [hexp e e', hman m m']
    cases compare e e' <;> cases compare m m' <;> rfl
  · rw [hexp e e', hman m m']
    cases compare e e' <;> cases compare m m' <;> rfl

theorem compare_eq_none_iff {x y : UnpackedFloat} :
    x.compare y = none ↔ x = .notANumber ∨ y = .notANumber := by
  rcases x with ⟨_ | _⟩ | _ | _ | ⟨_ | _, m, e, h⟩ <;>
    rcases y with ⟨_ | _⟩ | _ | _ | ⟨_ | _, m', e', h'⟩ <;>
    simp [UnpackedFloat.compare]

theorem beq_iff {a b : Float32} : (a == b) = true ↔ a.isNaN = false ∧ Alike a b := by
  have hnan : a.isNaN = false ↔ a.toModel.unpack ≠ .notANumber := by
    change a.toModel.unpack.isNaN = false ↔ _
    cases a.toModel.unpack with
    | notANumber => exact ⟨fun h => Bool.noConfusion h, fun h => absurd rfl h⟩
    | _ => exact ⟨fun _ h => UnpackedFloat.noConfusion h, fun _ => rfl⟩
  have hbeq : (a == b) = (a.toModel.unpack.compare b.toModel.unpack == some .eq) := rfl
  rw [hbeq, beq_iff_eq, compare_eq_eq_iff, hnan]
  exact and_congr_right fun _ => or_congr_left ⟨eq_of_unpack_eq, fun h => h ▸ rfl⟩

/-! ### Arithmetic does not tell zeros apart -/

theorem alike_pack {x y : UnpackedFloat} (h : x = y ∨ ∃ s t, x = .zero s ∧ y = .zero t) :
    Alike ⟨Float32.Model.pack x⟩ ⟨Float32.Model.pack y⟩ := by
  rcases h with rfl | ⟨s, t, rfl, rfl⟩
  · exact .inl rfl
  · exact .inr ⟨s, t, unpack_pack_zero s, unpack_pack_zero t⟩

/-- An operation respects `Alike` in one argument if it does not see the sign of a zero there. -/
theorem alike_op (op : UnpackedFloat → UnpackedFloat) {a a' : Float32} (h : Alike a a')
    (hop : ∀ s t, op (.zero s) = op (.zero t) ∨
      ∃ u v, op (.zero s) = .zero u ∧ op (.zero t) = .zero v) :
    Alike ⟨Float32.Model.pack (op a.toModel.unpack)⟩ ⟨Float32.Model.pack (op a'.toModel.unpack)⟩ := by
  rcases h with rfl | ⟨s, t, hs, ht⟩
  · exact .inl rfl
  · rw [hs, ht]
    exact alike_pack (hop s t)

theorem zero_sub_zero (s t : Sign) : ∃ u, UnpackedFloat.sub .binary32 (.zero s) (.zero t) = .zero u := by
  cases s <;> cases t <;> exact ⟨_, rfl⟩

theorem zero_add_zero (s t : Sign) : ∃ u, UnpackedFloat.add .binary32 (.zero s) (.zero t) = .zero u := by
  cases s <;> cases t <;> exact ⟨_, rfl⟩

theorem Alike.sub {a a' b b' : Float32} (ha : Alike a a') (hb : Alike b b') :
    Alike (a - b) (a' - b') := by
  have hleft : Alike (a - b) (a' - b) := by
    refine alike_op (fun x => x.sub .binary32 b.toModel.unpack) ha fun s t => ?_
    rcases b.toModel.unpack with _ | _ | r | _
    · exact .inl rfl
    · exact .inl rfl
    · obtain ⟨u, hu⟩ := zero_sub_zero s r
      obtain ⟨v, hv⟩ := zero_sub_zero t r
      exact .inr ⟨u, v, hu, hv⟩
    · exact .inl rfl
  have hright : Alike (a' - b) (a' - b') := by
    refine alike_op (fun y => a'.toModel.unpack.sub .binary32 y) hb fun s t => ?_
    rcases a'.toModel.unpack with _ | _ | r | _
    · exact .inl rfl
    · exact .inl rfl
    · obtain ⟨u, hu⟩ := zero_sub_zero r s
      obtain ⟨v, hv⟩ := zero_sub_zero r t
      exact .inr ⟨u, v, hu, hv⟩
    · exact .inl rfl
  exact hleft.trans hright

theorem Alike.add {a a' b b' : Float32} (ha : Alike a a') (hb : Alike b b') :
    Alike (a + b) (a' + b') := by
  have hleft : Alike (a + b) (a' + b) := by
    refine alike_op (fun x => x.add .binary32 b.toModel.unpack) ha fun s t => ?_
    rcases b.toModel.unpack with _ | _ | r | _
    · exact .inl rfl
    · exact .inl rfl
    · obtain ⟨u, hu⟩ := zero_add_zero s r
      obtain ⟨v, hv⟩ := zero_add_zero t r
      exact .inr ⟨u, v, hu, hv⟩
    · exact .inl rfl
  have hright : Alike (a' + b) (a' + b') := by
    refine alike_op (fun y => a'.toModel.unpack.add .binary32 y) hb fun s t => ?_
    rcases a'.toModel.unpack with _ | _ | r | _
    · exact .inl rfl
    · exact .inl rfl
    · obtain ⟨u, hu⟩ := zero_add_zero r s
      obtain ⟨v, hv⟩ := zero_add_zero r t
      exact .inr ⟨u, v, hu, hv⟩
    · exact .inl rfl
  exact hleft.trans hright

theorem Alike.mul {a a' b b' : Float32} (ha : Alike a a') (hb : Alike b b') :
    Alike (a * b) (a' * b') := by
  have hleft : Alike (a * b) (a' * b) := by
    refine alike_op (fun x => x.mul .binary32 b.toModel.unpack) ha fun s t => ?_
    cases b.toModel.unpack <;> simp [UnpackedFloat.mul]
  have hright : Alike (a' * b) (a' * b') := by
    refine alike_op (fun y => a'.toModel.unpack.mul .binary32 y) hb fun s t => ?_
    cases a'.toModel.unpack <;> simp [UnpackedFloat.mul]
  exact hleft.trans hright

theorem Alike.compare {a a' b b' : Float32} (ha : Alike a a') (hb : Alike b b') :
    a.toModel.unpack.compare b.toModel.unpack = a'.toModel.unpack.compare b'.toModel.unpack := by
  have hzero : ∀ (s t : Sign) (y : UnpackedFloat),
      UnpackedFloat.compare (.zero s) y = UnpackedFloat.compare (.zero t) y := by
    intro s t y
    rcases y with ⟨_ | _⟩ | _ | _ | ⟨_ | _, _, _, _⟩ <;> rfl
  have hleft : a.toModel.unpack.compare b.toModel.unpack =
      a'.toModel.unpack.compare b.toModel.unpack := by
    rcases ha with rfl | ⟨s, t, hs, ht⟩
    · rfl
    · rw [hs, ht, hzero s t]
  rw [hleft]
  rcases hb with rfl | ⟨s, t, hs, ht⟩
  · rfl
  · rw [hs, ht, compare_swap (.zero s), compare_swap (.zero t), hzero s t]

theorem lt_iff {a b : Float32} :
    a < b ↔ a.toModel.unpack.compare b.toModel.unpack = some .lt := by
  change decide (a.toModel < b.toModel) = true ↔ _
  rw [decide_eq_true_iff]
  change (a.toModel.unpack.compare b.toModel.unpack == some .lt) = true ↔ _
  rw [beq_iff_eq]

theorem le_iff {a b : Float32} :
    a ≤ b ↔ (a.toModel.unpack.compare b.toModel.unpack).any (·.isLE) = true := by
  change decide (a.toModel ≤ b.toModel) = true ↔ _
  rw [decide_eq_true_iff]
  rfl

theorem Alike.lt_iff {a a' b b' : Float32} (ha : Alike a a') (hb : Alike b b') :
    a < b ↔ a' < b' := by
  rw [Binary32.lt_iff, Binary32.lt_iff, ha.compare hb]

theorem Alike.le_iff {a a' b b' : Float32} (ha : Alike a a') (hb : Alike b b') :
    a ≤ b ↔ a' ≤ b' := by
  rw [Binary32.le_iff, Binary32.le_iff, ha.compare hb]

theorem Alike.beq_eq {a a' b b' : Float32} (ha : Alike a a') (hb : Alike b b') :
    (a == b) = (a' == b') := by
  change (a.toModel.unpack.compare b.toModel.unpack == some .eq) = _
  rw [ha.compare hb]
  rfl

theorem Alike.isFinite_eq {a b : Float32} (h : Alike a b) : a.isFinite = b.isFinite := by
  rcases h with rfl | ⟨s, t, ha, hb⟩
  · rfl
  · change a.toModel.unpack.isFinite = b.toModel.unpack.isFinite
    rw [ha, hb]
    rfl

/-- The number without the sign of a zero. -/
def plain (a : Float32) : Float32 :=
  match a.toModel.unpack with
  | .zero _ => ⟨Float32.Model.pack (.zero .positive)⟩
  | _ => a

theorem alike_plain (a : Float32) : Alike a (plain a) := by
  unfold plain
  split
  · rename_i s hs
    exact .inr ⟨s, .positive, hs, unpack_pack_zero _⟩
  · exact .refl a

theorem Alike.plain_eq {a b : Float32} (h : Alike a b) : plain a = plain b := by
  rcases h with rfl | ⟨s, t, ha, hb⟩
  · rfl
  · rw [plain, plain, ha, hb]

theorem isNaN_of_isFinite {a : Float32} (h : a.isFinite = true) : a.isNaN = false := by
  change a.toModel.unpack.isNaN = false
  change a.toModel.unpack.isFinite = true at h
  revert h
  cases a.toModel.unpack <;> intro h <;> first | rfl | contradiction

/-! ### Distances are never a NaN -/

/-- The sign of a number, unless it is a NaN. -/
def sign? : UnpackedFloat → Option Sign
  | .notANumber => none
  | .infinity s => some s
  | .zero s => some s
  | .finite s _ _ _ => some s

theorem isNaN_eq_false_iff {a : Float32} : a.isNaN = false ↔ sign? a.toModel.unpack ≠ none := by
  change a.toModel.unpack.isNaN = false ↔ _
  cases a.toModel.unpack <;> simp [UnpackedFloat.isNaN, sign?]

theorem sign?_unpack_packComponents (s : Sign) {e : BitVec 8} {m : BitVec 23}
    (h : e ≠ -1#8 ∨ m = 0#23) :
    sign? (UnpackedFloat.unpack .binary32 (packComponents .binary32 s e m)) = some s := by
  have hsign : @unpackSign .binary32 (packComponents .binary32 s e m) = s.toBitVec := by
    have he := e.isLt
    have hm := m.isLt
    apply BitVec.eq_of_toNat_eq
    rw [toNat_unpackSign, packComponents, BitVec.toNat_append, BitVec.toNat_append,
      ← Nat.shiftLeft_add_eq_or_of_lt hm, ← Nat.shiftLeft_add_eq_or_of_lt he]
    simp only [Nat.shiftLeft_eq]
    cases s <;> simp only [Sign.toBitVec, BitVec.toNat_ofNat] <;> omega
  have hs : Sign.ofBitVec s.toBitVec = s := by cases s <;> rfl
  unfold UnpackedFloat.unpack
  simp only [unpackMantissa_packComponents, unpackExponent_packComponents, hsign, hs]
  split_ifs <;> simp_all [sign?]

theorem sign?_unpack_pack (x : UnpackedFloat) : sign? (Float32.Model.pack x).unpack = sign? x := by
  change sign? (UnpackedFloat.unpack .binary32 (UnpackedFloat.pack .binary32 x)) = _
  rcases x with s | _ | s | ⟨s, m, e, h⟩
  · exact sign?_unpack_packComponents s (.inr rfl)
  · rfl
  · exact sign?_unpack_packComponents s (.inr rfl)
  · unfold UnpackedFloat.pack
    dsimp only
    split_ifs with hbig hnormal
    · exact sign?_unpack_packComponents s (.inr rfl)
    · refine sign?_unpack_packComponents s (.inl ?_)
      intro heq
      have hnat := congrArg BitVec.toNat heq
      have hones : (-1#8).toNat = 255 := rfl
      rw [BitVec.toNat_ofNat, hones] at hnat
      simp only [Format.exponentBias] at hbig hnat
      omega
    · exact sign?_unpack_packComponents s (.inl (by decide))

theorem sign?_roundWithAccuracy (s : Sign) (m : Nat) (e : ℤ) (accuracy : Accuracy) :
    sign? (roundWithAccuracy .binary32 s m e accuracy) = some s := by
  unfold roundWithAccuracy
  dsimp only
  split_ifs <;> rfl

theorem sign?_round (s : Sign) (m : Nat) (e : ℤ) : sign? (round .binary32 s m e) = some s :=
  sign?_roundWithAccuracy s _ _ _

theorem sign?_normalize (m : ℤ) (e : ℤ) : sign? (UnpackedFloat.normalize .binary32 m e .positive) ≠ none := by
  unfold UnpackedFloat.normalize
  split
  · rw [sign?_round]
    exact Option.some_ne_none _
  · exact Option.some_ne_none _
  · rw [sign?_round]
    exact Option.some_ne_none _

theorem sign?_normalize_nonneg {m : ℤ} (e : ℤ) (h : 0 ≤ m) :
    sign? (UnpackedFloat.normalize .binary32 m e .positive) = some .positive := by
  unfold UnpackedFloat.normalize
  split
  · rename_i hlt
    rw [Int.compare_eq_lt] at hlt
    omega
  · rfl
  · rw [sign?_round]

theorem isNaN_sub {a b : Float32} (ha : a.isFinite = true) (hb : b.isFinite = true) :
    (a - b).isNaN = false := by
  rw [isNaN_eq_false_iff]
  change sign? (Float32.Model.pack (UnpackedFloat.sub .binary32 a.toModel.unpack b.toModel.unpack)).unpack
    ≠ none
  rw [sign?_unpack_pack]
  change a.toModel.unpack.isFinite = true at ha
  change b.toModel.unpack.isFinite = true at hb
  revert ha hb
  rcases a.toModel.unpack with _ | _ | s | ⟨s, m, e, h⟩ <;>
    rcases b.toModel.unpack with _ | _ | t | ⟨t, m', e', h'⟩ <;> intro ha hb <;>
    first | contradiction | skip
  · obtain ⟨u, hu⟩ := zero_sub_zero s t
    rw [hu]
    exact Option.some_ne_none _
  · exact Option.some_ne_none _
  · exact Option.some_ne_none _
  · exact sign?_normalize _ _

/-- Not below zero, and not a NaN. -/
def Nonnegative (a : Float32) : Prop := sign? a.toModel.unpack = some .positive

theorem Nonnegative.isNaN {a : Float32} (h : Nonnegative a) : a.isNaN = false := by
  rw [isNaN_eq_false_iff, h]
  exact Option.some_ne_none _

theorem nonnegative_mul_self {a : Float32} (h : a.isNaN = false) : Nonnegative (a * a) := by
  rw [isNaN_eq_false_iff] at h
  change sign? (Float32.Model.pack (UnpackedFloat.mul .binary32 a.toModel.unpack a.toModel.unpack)).unpack
    = some .positive
  rw [sign?_unpack_pack]
  revert h
  rcases a.toModel.unpack with s | _ | s | ⟨s, m, e, hm⟩ <;> intro h
  · cases s <;> rfl
  · exact absurd rfl h
  · cases s <;> rfl
  · cases s <;> exact sign?_roundWithAccuracy _ _ _ _

theorem Nonnegative.add {a b : Float32} (ha : Nonnegative a) (hb : Nonnegative b) :
    Nonnegative (a + b) := by
  unfold Nonnegative at ha hb
  revert ha hb
  change _ → _ → sign? (Float32.Model.pack (UnpackedFloat.add .binary32 a.toModel.unpack b.toModel.unpack)).unpack
    = some .positive
  rw [sign?_unpack_pack]
  rcases a.toModel.unpack with s | _ | s | ⟨s, m, e, h⟩ <;>
    rcases b.toModel.unpack with t | _ | t | ⟨t, m', e', h'⟩ <;>
    intro ha hb <;> cases ha <;> cases hb <;> first | rfl | skip
  exact sign?_normalize_nonneg _ (Int.add_nonneg (Int.natCast_nonneg _) (Int.natCast_nonneg _))

/-- A finite number is as far from itself as zero is from zero. -/
theorem alike_sub_self {a : Float32} (ha : a.isFinite = true) : Alike (a - a) 0 := by
  have hzero : (0 : Float32).toModel.unpack = .zero .positive := rfl
  refine .inr ⟨.positive, .positive, ?_, hzero⟩
  change (Float32.Model.pack (UnpackedFloat.sub .binary32 a.toModel.unpack a.toModel.unpack)).unpack = _
  have hsub : UnpackedFloat.sub .binary32 a.toModel.unpack a.toModel.unpack = .zero .positive := by
    change a.toModel.unpack.isFinite = true at ha
    revert ha
    rcases a.toModel.unpack with _ | _ | s | ⟨s, m, e, h⟩ <;> intro ha <;> first | contradiction | skip
    · cases s <;> rfl
    · simp only [UnpackedFloat.sub, Int.sub_self]
      rfl
  rw [hsub, unpack_pack_zero]

/-! ### Where a NaN comes from -/

theorem isNaN_iff {a : Float32} : a.isNaN = true ↔ sign? a.toModel.unpack = none := by
  change a.toModel.unpack.isNaN = true ↔ _
  cases a.toModel.unpack <;> simp [UnpackedFloat.isNaN, sign?]

/-- From a finite number only a NaN takes to a NaN. -/
theorem isNaN_finite_sub {a b : Float32} (ha : a.isFinite = true) (hb : b.isNaN = false) :
    (a - b).isNaN = false := by
  by_cases hfinite : b.isFinite = true
  · exact isNaN_sub ha hfinite
  rw [isNaN_eq_false_iff] at hb ⊢
  change sign? (Float32.Model.pack (UnpackedFloat.sub .binary32 a.toModel.unpack b.toModel.unpack)).unpack
    ≠ none
  rw [sign?_unpack_pack]
  change ¬ b.toModel.unpack.isFinite = true at hfinite
  change a.toModel.unpack.isFinite = true at ha
  revert ha hb hfinite
  rcases a.toModel.unpack with _ | _ | s | ⟨s, m, e, h⟩ <;>
    rcases b.toModel.unpack with t | _ | t | ⟨t, m', e', h'⟩ <;> intro ha hb hfinite <;>
    first | contradiction | exact absurd rfl hfinite | exact absurd rfl hb | exact Option.some_ne_none _

theorem isNaN_sub_right {a b : Float32} (hb : b.isNaN = true) : (a - b).isNaN = true := by
  rw [isNaN_iff] at hb ⊢
  change sign? (Float32.Model.pack (UnpackedFloat.sub .binary32 a.toModel.unpack b.toModel.unpack)).unpack
    = none
  rw [sign?_unpack_pack]
  revert hb
  rcases a.toModel.unpack with _ | _ | _ | _ <;> rcases b.toModel.unpack with _ | _ | _ | _ <;>
    intro hb <;> first | contradiction | rfl

theorem isNaN_mul_self {a : Float32} (ha : a.isNaN = true) : (a * a).isNaN = true := by
  rw [isNaN_iff] at ha ⊢
  change sign? (Float32.Model.pack (UnpackedFloat.mul .binary32 a.toModel.unpack a.toModel.unpack)).unpack
    = none
  rw [sign?_unpack_pack]
  revert ha
  rcases a.toModel.unpack with _ | _ | _ | _ <;> intro ha <;> first | contradiction | rfl

theorem isNaN_add {a b : Float32} (h : a.isNaN = true ∨ b.isNaN = true) : (a + b).isNaN = true := by
  rw [isNaN_iff, isNaN_iff] at h
  rw [isNaN_iff]
  change sign? (Float32.Model.pack (UnpackedFloat.add .binary32 a.toModel.unpack b.toModel.unpack)).unpack
    = none
  rw [sign?_unpack_pack]
  revert h
  rcases a.toModel.unpack with _ | _ | _ | _ <;> rcases b.toModel.unpack with _ | _ | _ | _ <;>
    rintro (h | h) <;> first | contradiction | rfl

theorem not_lt_iff {a b : Float32} (ha : a.isNaN = false) (hb : b.isNaN = false) :
    ¬ a < b ↔ b ≤ a := by
  rw [lt_iff, le_iff, compare_swap b.toModel.unpack]
  rw [isNaN_eq_false_iff] at ha hb
  cases h : b.toModel.unpack.compare a.toModel.unpack with
  | none =>
    rw [compare_eq_none_iff] at h
    rcases h with h | h
    · rw [h] at hb
      exact absurd rfl hb
    · rw [h] at ha
      exact absurd rfl ha
  | some o => cases o <;> decide

/-! ### Double precision -/

/-- The same number in double precision. -/
def widen (a : Float32) : Float :=
  ⟨Float.Model.pack (match a.toModel.unpack with
    | .finite sign mantissa exponent _ => UnpackedFloat.round .binary64 sign mantissa exponent
    | other => other)⟩

/-- The nearest number in single precision. -/
def narrow (a : Float) : Float32 :=
  ⟨Float32.Model.pack (match a.toModel.unpack with
    | .finite sign mantissa exponent _ => UnpackedFloat.round .binary32 sign mantissa exponent
    | other => other)⟩

end Lib.Binary32
