import AIWorld.Lib.OrdMap
import Mathlib.Data.List.Nodup

/-! Maps from keys to finite sets. A set is a list without repetition, and a key
whose set has become empty has no entry. The lemmas say which values a key has
after one value is linked to a key or unlinked from it, and after the same is
done for a list of keys that may repeat. -/

namespace Lib.SetMap

open Std

variable {α κ : Type*} [DecidableEq α] [DecidableEq κ] [Ord κ] [TransOrd κ] [LawfulEqOrd κ]

/-- The values of a key. -/
def bucket (m : ExtTreeMap κ (List α)) (k : κ) : List α := (m[k]?).getD []

def link (m : ExtTreeMap κ (List α)) (k : κ) (a : α) : ExtTreeMap κ (List α) :=
  m.insert k ((bucket m k).insert a)

/-- Take a value from a key; a key without values loses its entry. -/
def unlink (m : ExtTreeMap κ (List α)) (k : κ) (a : α) : ExtTreeMap κ (List α) :=
  match m[k]? with
  | none => m
  | some s => if s.erase a = [] then m.erase k else m.insert k (s.erase a)

/-- Every entry is a nonempty set. -/
def Clean (m : ExtTreeMap κ (List α)) : Prop :=
  ∀ (k : κ) (s : List α), m[k]? = some s → s ≠ [] ∧ s.Nodup

variable {m : ExtTreeMap κ (List α)} {k k' : κ} {a b : α}

omit [DecidableEq α] [DecidableEq κ] [LawfulEqOrd κ] in
theorem clean_empty : Clean (∅ : ExtTreeMap κ (List α)) := fun k s h => by simp at h

omit [DecidableEq α] [DecidableEq κ] [LawfulEqOrd κ] in
theorem Clean.nodup_bucket (h : Clean m) (k : κ) : (bucket m k).Nodup := by
  unfold bucket
  cases hk : m[k]? with
  | none => exact List.nodup_nil
  | some s => exact (h k s hk).2

omit [DecidableEq α] [DecidableEq κ] [LawfulEqOrd κ] in
/-- A key with a value has an entry, which is its set. -/
theorem getElem?_of_mem_bucket (h : a ∈ bucket m k) : m[k]? = some (bucket m k) := by
  unfold bucket at h ⊢
  cases hk : m[k]? with
  | none =>
    rw [hk] at h
    contradiction
  | some s => rfl

theorem bucket_link (m : ExtTreeMap κ (List α)) (k k' : κ) (a : α) :
    bucket (link m k a) k' = if k = k' then (bucket m k').insert a else bucket m k' := by
  unfold link
  rw [bucket, OrdMap.getElem?_insert]
  split_ifs with hk
  · rw [hk]
    rfl
  · rfl

theorem mem_bucket_link : b ∈ bucket (link m k a) k' ↔ k = k' ∧ b = a ∨ b ∈ bucket m k' := by
  rw [bucket_link]
  split_ifs with hk
  · simp [hk]
  · simp [hk]

omit [DecidableEq κ] in
theorem clean_link (h : Clean m) : Clean (link m k a) := by
  apply OrdMap.forall_insert
  · exact ⟨List.ne_nil_of_mem List.mem_insert_self, (h.nodup_bucket k).insert⟩
  · exact fun k' s _ hs => h k' s hs

theorem bucket_unlink (m : ExtTreeMap κ (List α)) (k k' : κ) (a : α) :
    bucket (unlink m k a) k' = if k = k' then (bucket m k').erase a else bucket m k' := by
  unfold unlink
  cases hk : m[k]? with
  | none =>
    split_ifs with hkk
    · subst hkk
      simp [bucket, hk]
    · rfl
  | some s =>
    simp only [bucket]
    split_ifs with hnil hkk hkk
    · subst hkk
      simp [hk, hnil]
    · rw [OrdMap.getElem?_erase, if_neg hkk]
    · subst hkk
      simp [hk]
    · rw [OrdMap.getElem?_insert_ne _ _ hkk]

theorem mem_bucket_unlink (h : Clean m) :
    b ∈ bucket (unlink m k a) k' ↔ b ∈ bucket m k' ∧ ¬ (k = k' ∧ b = a) := by
  rw [bucket_unlink]
  split_ifs with hk
  · rw [(h.nodup_bucket k').mem_erase_iff]
    simp [hk, and_comm]
  · simp [hk]

theorem clean_unlink (h : Clean m) : Clean (unlink m k a) := by
  unfold unlink
  cases hk : m[k]? with
  | none => exact h
  | some s =>
    simp only
    split_ifs with hnil
    · intro k' s' hs'
      rw [OrdMap.getElem?_erase] at hs'
      split_ifs at hs'
      exact h k' s' hs'
    · apply OrdMap.forall_insert
      · exact ⟨hnil, (h k s hk).2.erase a⟩
      · exact fun k' s' _ hs' => h k' s' hs'

/-! ### Many keys -/

def linkAll (m : ExtTreeMap κ (List α)) (ks : List κ) (a : α) : ExtTreeMap κ (List α) :=
  ks.foldl (fun m k => link m k a) m

def unlinkAll (m : ExtTreeMap κ (List α)) (ks : List κ) (a : α) : ExtTreeMap κ (List α) :=
  ks.foldl (fun m k => unlink m k a) m

omit [DecidableEq κ] in
theorem clean_linkAll {ks : List κ} (h : Clean m) : Clean (linkAll m ks a) := by
  induction ks generalizing m with
  | nil => exact h
  | cons k ks ih => exact ih (clean_link h)

theorem clean_unlinkAll {ks : List κ} (h : Clean m) : Clean (unlinkAll m ks a) := by
  induction ks generalizing m with
  | nil => exact h
  | cons k ks ih => exact ih (clean_unlink h)

theorem mem_bucket_linkAll {ks : List κ} :
    b ∈ bucket (linkAll m ks a) k' ↔ k' ∈ ks ∧ b = a ∨ b ∈ bucket m k' := by
  induction ks generalizing m with
  | nil => simp [linkAll]
  | cons k ks ih =>
    rw [linkAll, List.foldl_cons, ← linkAll, ih, mem_bucket_link, List.mem_cons]
    constructor
    · rintro (⟨hk, hb⟩ | ⟨hk, hb⟩ | hb)
      · exact .inl ⟨.inr hk, hb⟩
      · exact .inl ⟨.inl hk.symm, hb⟩
      · exact .inr hb
    · rintro (⟨rfl | hk, hb⟩ | hb)
      · exact .inr (.inl ⟨rfl, hb⟩)
      · exact .inl ⟨hk, hb⟩
      · exact .inr (.inr hb)

theorem mem_bucket_unlinkAll {ks : List κ} (h : Clean m) :
    b ∈ bucket (unlinkAll m ks a) k' ↔ b ∈ bucket m k' ∧ ¬ (k' ∈ ks ∧ b = a) := by
  induction ks generalizing m with
  | nil => simp [unlinkAll]
  | cons k ks ih =>
    rw [unlinkAll, List.foldl_cons, ← unlinkAll, ih (clean_unlink h), mem_bucket_unlink h,
      List.mem_cons]
    constructor
    · rintro ⟨⟨hb, hk⟩, hks⟩
      refine ⟨hb, ?_⟩
      rintro ⟨rfl | hmem, hba⟩
      · exact hk ⟨rfl, hba⟩
      · exact hks ⟨hmem, hba⟩
    · rintro ⟨hb, hks⟩
      exact ⟨⟨hb, fun hk => hks ⟨.inl hk.1.symm, hk.2⟩⟩, fun hmem => hks ⟨.inr hmem.1, hmem.2⟩⟩

end Lib.SetMap
