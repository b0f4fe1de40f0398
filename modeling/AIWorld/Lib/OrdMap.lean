import Mathlib.Algebra.BigOperators.Group.Finset.Basic
import Mathlib.Algebra.Order.BigOperators.Group.Finset
import Mathlib.Tactic.Common
import Std.Data.ExtTreeMap

/-! Ordered finite maps as loops and totals see them. `total` adds up a quantity
over the entries of a map; the lemmas say how it moves under an insertion, a
deletion and an entrywise update. `loop` is the rule for a loop that visits each
key of a map once. -/

namespace Lib.OrdMap

open Std

variable {α β γ : Type*} [Ord α] [TransOrd α] [LawfulEqOrd α]

/-! ### Entries -/

theorem getElem?_insert (m : ExtTreeMap α β) [DecidableEq α] (k a : α) (v : β) :
    (m.insert k v)[a]? = if k = a then some v else m[a]? := by
  simp [ExtTreeMap.getElem?_insert]

theorem getElem?_insert_ne (m : ExtTreeMap α β) {k a : α} (v : β) (h : k ≠ a) :
    (m.insert k v)[a]? = m[a]? := by
  simp [ExtTreeMap.getElem?_insert, h]

theorem getElem?_erase (m : ExtTreeMap α β) [DecidableEq α] (k a : α) :
    (m.erase k)[a]? = if k = a then none else m[a]? := by
  simp [ExtTreeMap.getElem?_erase]

theorem forall_insert {P : α → β → Prop} {m : ExtTreeMap α β} {a : α} {w : β} (ha : P a w)
    (h : ∀ k v, a ≠ k → m[k]? = some v → P k v) :
    ∀ k v, (m.insert a w)[k]? = some v → P k v := by
  classical
  intro k v hk
  rw [getElem?_insert] at hk
  split_ifs at hk with hak
  · cases hk
    exact hak ▸ ha
  · exact h k v hak hk

theorem exists_insert [DecidableEq α] {P : α → β → Prop} {m : ExtTreeMap α β} {a : α} {w : β} :
    (∃ k v, (m.insert a w)[k]? = some v ∧ P k v) ↔
      P a w ∨ ∃ k v, a ≠ k ∧ m[k]? = some v ∧ P k v := by
  simp only [getElem?_insert]
  constructor
  · rintro ⟨k, v, hk, hP⟩
    split_ifs at hk with hak
    · cases hk
      exact .inl (hak ▸ hP)
    · exact .inr ⟨k, v, hak, hk, hP⟩
  · rintro (hP | ⟨k, v, hak, hk, hP⟩)
    · exact ⟨a, w, if_pos rfl, hP⟩
    · exact ⟨k, v, (if_neg hak).trans hk, hP⟩

theorem exists_erase [DecidableEq α] {P : α → β → Prop} {m : ExtTreeMap α β} {a : α} :
    (∃ k v, (m.erase a)[k]? = some v ∧ P k v) ↔ ∃ k v, a ≠ k ∧ m[k]? = some v ∧ P k v := by
  simp only [getElem?_erase]
  constructor
  · rintro ⟨k, v, hk, hP⟩
    split_ifs at hk with hak
    exact ⟨k, v, hak, hk, hP⟩
  · rintro ⟨k, v, hak, hk, hP⟩
    exact ⟨k, v, (if_neg hak).trans hk, hP⟩

omit [LawfulEqOrd α] in
/-- An entry, or one of the others. -/
theorem exists_split [DecidableEq α] {P : α → β → Prop} {m : ExtTreeMap α β} {a : α} {w : β}
    (h : m[a]? = some w) :
    (∃ k v, m[k]? = some v ∧ P k v) ↔ P a w ∨ ∃ k v, a ≠ k ∧ m[k]? = some v ∧ P k v := by
  constructor
  · rintro ⟨k, v, hk, hP⟩
    by_cases hak : a = k
    · subst hak
      rw [h] at hk
      cases hk
      exact .inl hP
    · exact .inr ⟨k, v, hak, hk, hP⟩
  · rintro (hP | ⟨k, v, -, hk, hP⟩)
    · exact ⟨a, w, h, hP⟩
    · exact ⟨k, v, hk, hP⟩

omit [LawfulEqOrd α] in
theorem exists_ne {P : α → β → Prop} {m : ExtTreeMap α β} {a : α} (h : m[a]? = none) :
    (∃ k v, m[k]? = some v ∧ P k v) ↔ ∃ k v, a ≠ k ∧ m[k]? = some v ∧ P k v := by
  constructor
  · rintro ⟨k, v, hk, hP⟩
    refine ⟨k, v, ?_, hk, hP⟩
    rintro rfl
    rw [h] at hk
    contradiction
  · rintro ⟨k, v, -, hk, hP⟩
    exact ⟨k, v, hk, hP⟩

theorem mem_keys_iff (m : ExtTreeMap α β) (k : α) : k ∈ m.keys ↔ ∃ v, m[k]? = some v := by
  rw [ExtTreeMap.mem_keys, ExtTreeMap.mem_iff_isSome_getElem?, Option.isSome_iff_exists]

theorem nodup_keys (m : ExtTreeMap α β) : m.keys.Nodup :=
  m.distinct_keys.imp fun h hab => h (by simp [hab])

theorem map_congr {m : ExtTreeMap α β} {f g : α → β → γ}
    (h : ∀ k v, m[k]? = some v → f k v = g k v) : m.map f = m.map g := by
  apply ExtTreeMap.ext_getElem?
  intro k
  rw [ExtTreeMap.getElem?_map, ExtTreeMap.getElem?_map]
  cases hk : m[k]? with
  | none => rfl
  | some v => simp [h k v hk]

theorem map_id_of {m : ExtTreeMap α β} {f : α → β → β}
    (h : ∀ k v, m[k]? = some v → f k v = v) : m.map f = m := by
  apply ExtTreeMap.ext_getElem?
  intro k
  rw [ExtTreeMap.getElem?_map]
  cases hk : m[k]? with
  | none => rfl
  | some v => simp [h k v hk]

theorem map_map (m : ExtTreeMap α β) {δ : Type*} (f : α → β → γ) (g : α → γ → δ) :
    (m.map f).map g = m.map fun k v => g k (f k v) := by
  apply ExtTreeMap.ext_getElem?
  intro k
  simp only [ExtTreeMap.getElem?_map, Option.map_map]
  rfl

theorem insert_self {m : ExtTreeMap α β} {k : α} {v : β} (h : m[k]? = some v) :
    m.insert k v = m := by
  classical
  apply ExtTreeMap.ext_getElem?
  intro a
  rw [getElem?_insert]
  split_ifs with hk
  · rw [← hk, h]
  · rfl

/-! ### Totals -/

section Total
variable {N : Type*} [AddCommMonoid N]

/-- The sum of a quantity over the entries of a map. -/
def total (f : α → β → N) (m : ExtTreeMap α β) : N := (m.toList.map fun p => f p.1 p.2).sum

theorem total_eq_sum [DecidableEq α] (f : α → β → N) (m : ExtTreeMap α β) :
    total f m = ∑ k ∈ m.keys.toFinset, (m[k]?).elim 0 (f k) := by
  have hl : (m.toList.map fun p => f p.1 p.2) = m.keys.map fun k => (m[k]?).elim 0 (f k) := by
    rw [← ExtTreeMap.map_fst_toList_eq_keys, List.map_map]
    apply List.map_congr_left
    intro p hp
    have hk : m[p.1]? = some p.2 := ExtTreeMap.mem_toList_iff_getElem?_eq_some.mp hp
    simp [hk]
  rw [total, hl, List.sum_toFinset _ (nodup_keys m)]

omit [LawfulEqOrd α] in
@[simp] theorem total_empty (f : α → β → N) : total f (∅ : ExtTreeMap α β) = 0 := by
  have h : (∅ : ExtTreeMap α β).toList = [] := by simp
  simp only [total, h, List.map_nil, List.sum_nil]

theorem total_congr {f g : α → β → N} {m : ExtTreeMap α β}
    (h : ∀ k v, m[k]? = some v → f k v = g k v) : total f m = total g m := by
  unfold total
  congr 1
  apply List.map_congr_left
  intro p hp
  exact h _ _ (ExtTreeMap.mem_toList_iff_getElem?_eq_some.mp hp)

omit [LawfulEqOrd α] in
theorem total_map (g : α → β → γ) (f : α → γ → N) (m : ExtTreeMap α β) :
    total f (m.map g) = total (fun k v => f k (g k v)) m := by
  simp only [total, ExtTreeMap.toList_map, List.map_map]
  rfl

omit [LawfulEqOrd α] in
theorem total_add (f g : α → β → N) (m : ExtTreeMap α β) :
    total (fun k v => f k v + g k v) m = total f m + total g m := by
  simp only [total]
  exact List.sum_map_add

theorem total_zero {f : α → β → N} {m : ExtTreeMap α β}
    (h : ∀ k v, m[k]? = some v → f k v = 0) : total f m = 0 := by
  rw [total_congr h]
  simp [total]

theorem total_insert_new {m : ExtTreeMap α β} {k : α} (h : m[k]? = none) (f : α → β → N) (v : β) :
    total f (m.insert k v) = total f m + f k v := by
  classical
  have hk : k ∉ m.keys.toFinset := by
    rw [List.mem_toFinset, mem_keys_iff, h]
    simp
  have hkeys : (m.insert k v).keys.toFinset = insert k m.keys.toFinset := by
    ext a
    rw [List.mem_toFinset, ExtTreeMap.mem_keys, ExtTreeMap.mem_insert, Finset.mem_insert,
      List.mem_toFinset, ExtTreeMap.mem_keys, Std.compare_eq_iff_eq, eq_comm]
  rw [total_eq_sum, total_eq_sum, hkeys, Finset.sum_insert hk, add_comm]
  congr 1
  · apply Finset.sum_congr rfl
    intro a ha
    rw [getElem?_insert_ne m v (by rintro rfl; exact hk ha)]
  · simp

theorem total_erase {m : ExtTreeMap α β} {k : α} {v : β} (h : m[k]? = some v) (f : α → β → N) :
    total f (m.erase k) + f k v = total f m := by
  classical
  have hi : (m.erase k).insert k v = m := by
    apply ExtTreeMap.ext_getElem?
    intro a
    rw [getElem?_insert, getElem?_erase]
    split_ifs with hk
    · rw [← hk, h]
    · rfl
  rw [← total_insert_new (by simp) f v, hi]

/-- Replacing an entry moves the total by the difference of the two entries. -/
theorem total_insert {m : ExtTreeMap α β} {k : α} {v : β} (h : m[k]? = some v) (f : α → β → N)
    (w : β) : total f (m.insert k w) + f k v = total f m + f k w := by
  classical
  have hi : m.insert k w = (m.erase k).insert k w := by
    apply ExtTreeMap.ext_getElem?
    intro a
    rw [getElem?_insert, getElem?_insert, getElem?_erase]
    split_ifs <;> rfl
  rw [hi, total_insert_new (by simp), ← total_erase h f, add_right_comm]

/-- A total to which only one entry contributes. -/
theorem total_single {m : ExtTreeMap α β} {k : α} {v : β} (h : m[k]? = some v) {f : α → β → N}
    (hz : ∀ k' v', k' ≠ k → m[k']? = some v' → f k' v' = 0) : total f m = f k v := by
  classical
  rw [← total_erase h f, total_zero, zero_add]
  intro k' v' hk'
  rw [getElem?_erase] at hk'
  split_ifs at hk' with hkk
  exact hz k' v' (fun e => hkk e.symm) hk'

theorem le_total {m : ExtTreeMap α β} {k : α} {v : β} (h : m[k]? = some v) (f : α → β → ℕ) :
    f k v ≤ total f m := by
  rw [← total_erase h f]
  exact Nat.le_add_left _ _

theorem total_le {f g : α → β → ℕ} {m : ExtTreeMap α β}
    (h : ∀ k v, m[k]? = some v → f k v ≤ g k v) : total f m ≤ total g m := by
  apply List.sum_le_sum
  intro p hp
  exact h _ _ (ExtTreeMap.mem_toList_iff_getElem?_eq_some.mp hp)

theorem total_eq_zero_iff {f : α → β → ℕ} {m : ExtTreeMap α β} :
    total f m = 0 ↔ ∀ k v, m[k]? = some v → f k v = 0 := by
  constructor
  · intro h k v hk
    have := le_total hk f
    omega
  · exact total_zero

end Total

/-! ### Loops -/

/-- Rewriting one more entry of a map. -/
theorem map_visited_insert [DecidableEq α] {m : ExtTreeMap α β} {k : α} {v : β}
    (h : m[k]? = some v) (f : α → β → β) (seen : List α) :
    (m.map fun k' v' => if k' ∈ seen then f k' v' else v').insert k (f k v) =
      m.map fun k' v' => if k' ∈ seen ++ [k] then f k' v' else v' := by
  apply ExtTreeMap.ext_getElem?
  intro a
  rw [getElem?_insert, ExtTreeMap.getElem?_map, ExtTreeMap.getElem?_map]
  by_cases hk : k = a
  · subst hk
    simp [h]
  · have : a ≠ k := fun e => hk e.symm
    simp [hk, this]

theorem total_visited [DecidableEq α] {N : Type*} [AddCommMonoid N] {m : ExtTreeMap α β} {k : α}
    {v : β} (h : m[k]? = some v) (f : α → β → N) {seen : List α} (hk : k ∉ seen) :
    total (fun k' v' => if k' ∈ seen ++ [k] then f k' v' else 0) m =
      total (fun k' v' => if k' ∈ seen then f k' v' else 0) m + f k v := by
  have hone : total (fun k' v' => if k' = k then f k' v' else 0) m = f k v := by
    rw [total_single h fun k' v' hne _ => if_neg hne, if_pos rfl]
  rw [← hone, ← total_add]
  refine total_congr fun k' v' _ => ?_
  by_cases hkk : k' = k
  · subst hkk
    simp [hk]
  · simp [hkk]

/-- A loop over distinct keys: what holds before it and is carried by one visit
of a key not seen before holds of the keys visited when it ends. -/
theorem loop {κ σ : Type*} {f : σ → κ → Option σ} {P : List κ → σ → Prop} (ks : List κ)
    (hks : ks.Nodup) {s : σ} (h0 : P [] s)
    (hstep : ∀ seen k t, k ∈ ks → k ∉ seen → P seen t → ∃ t', f t k = some t' ∧ P (seen ++ [k]) t') :
    ∃ s', ks.foldlM f s = some s' ∧ P ks s' := by
  suffices h : ∀ rest seen t, ks = seen ++ rest → P seen t →
      ∃ s', rest.foldlM f t = some s' ∧ P ks s' from h ks [] s rfl h0
  intro rest
  induction rest with
  | nil =>
    intro seen t hs ht
    simp only [List.append_nil] at hs
    exact ⟨t, rfl, hs ▸ ht⟩
  | cons k rest ih =>
    intro seen t hs ht
    have hk : k ∉ seen := by
      rw [hs] at hks
      exact fun hmem => (List.nodup_append.mp hks).2.2 k hmem k (by simp) rfl
    obtain ⟨t', hf, ht'⟩ := hstep seen k t (by simp [hs]) hk ht
    obtain ⟨s', hr, hs'⟩ := ih (seen ++ [k]) t' (by simp [hs]) ht'
    exact ⟨s', by simp [List.foldlM_cons, hf, hr], hs'⟩

/-! ### Numbers as keys -/

/-- Ids in their numerical order. -/
instance linearOrderUInt64 : LinearOrder UInt64 where
  le_refl := UInt64.le_refl
  le_trans _ _ _ := UInt64.le_trans
  lt_iff_le_not_ge _ _ := by
    rw [UInt64.not_le]
    exact ⟨fun h => ⟨UInt64.le_of_lt h, h⟩, fun h => h.2⟩
  le_antisymm _ _ := UInt64.le_antisymm
  le_total := UInt64.le_total
  toDecidableLE := inferInstance
  toDecidableEq := inferInstance
  toDecidableLT := inferInstance
  compare_eq_compareOfLessAndEq _ _ := rfl

/-- Equality of ids is decided as ever, and not by the order. -/
instance lawfulBEqUInt64 : LawfulBEq UInt64 := instLawfulBEq

theorem keys_sorted (m : ExtTreeMap UInt64 β) : m.keys.Pairwise (· < ·) :=
  m.ordered_keys.imp fun h => compare_lt_iff_lt.mp h

/-- The last item of an increasing list is its greatest. -/
theorem le_getLast {γ : Type*} [LinearOrder γ] {p : List γ} (h : p.Pairwise (· < ·)) {x : γ}
    (hx : x ∈ p) (c : γ) : x ≤ p.getLast?.getD c := by
  have hne : p ≠ [] := List.ne_nil_of_mem hx
  rw [List.getLast?_eq_some_getLast hne, Option.getD_some]
  rw [← List.dropLast_append_getLast hne] at h hx
  rcases List.mem_append.mp hx with hx | hx
  · exact ((List.pairwise_append.mp h).2.2 x hx _ (List.mem_singleton.mpr rfl)).le
  · exact (List.mem_singleton.mp hx).le

theorem le_lastKey (m : ExtTreeMap UInt64 β) {k : UInt64} (hk : k ∈ m.keys) :
    k ≤ m.keys.getLast?.getD 0 :=
  le_getLast (keys_sorted m) hk 0

end Lib.OrdMap
