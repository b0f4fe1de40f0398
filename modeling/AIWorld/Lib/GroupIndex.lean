import AIWorld.Lib.OrdMap

/-! Indexes of a list by a key. The items of a list carry an id and a key; an
index maps each key that occurs to the ids of its items, in the list's order, and
has no empty entry. The lemmas say how an index follows the list when an item is
appended, items are changed in place, or all items with one id are taken out. -/

namespace Lib.GroupIndex

open Std

variable {α κ β : Type*} [DecidableEq κ] (name : β → α) (key : β → κ)

/-- The ids of the items with a key, in order. -/
def ids (s : List β) (k : κ) : List α := (s.filter fun b => key b = k).map name

variable {name key} {s : List β} {k : κ} {a : α}

theorem ids_append (s : List β) (b : β) (k : κ) :
    ids name key (s ++ [b]) k = if key b = k then ids name key s k ++ [name b] else ids name key s k := by
  unfold ids
  rw [List.filter_append]
  split_ifs with hk <;> simp [hk]

theorem ids_map {f : β → β} (hname : ∀ b, name (f b) = name b) (hkey : ∀ b, key (f b) = key b)
    (s : List β) (k : κ) : ids name key (s.map f) k = ids name key s k := by
  unfold ids
  induction s with
  | nil => rfl
  | cons b s ih =>
    simp only [List.map_cons, List.filter_cons, hkey]
    split_ifs
    · simp only [List.map_cons, hname, ih]
    · exact ih

theorem ids_filter_ne [DecidableEq α] (s : List β) (a : α) (k : κ) :
    ids name key (s.filter fun b => name b ≠ a) k = (ids name key s k).filter (· ≠ a) := by
  unfold ids
  rw [List.filter_map, List.filter_filter, List.filter_filter]
  congr 1
  refine List.filter_congr fun b _ => ?_
  simp [Bool.and_comm]

/-- Taking out the items with an id does not touch the other keys. -/
theorem ids_filter_ne_of_key [DecidableEq α] (hk : ∀ b ∈ s, name b = a → key b ≠ k) :
    ids name key (s.filter fun b => name b ≠ a) k = ids name key s k := by
  rw [ids_filter_ne, List.filter_eq_self]
  intro x hx
  obtain ⟨b, hb, rfl⟩ := List.mem_map.mp hx
  rw [List.mem_filter] at hb
  simp only [decide_eq_true_eq] at hb ⊢
  exact fun ha => hk b hb.1 ha hb.2

theorem ids_nodup (h : (s.map name).Nodup) (k : κ) : (ids name key s k).Nodup :=
  h.sublist (List.filter_sublist.map name)

theorem find_name [DecidableEq α] (h : (s.map name).Nodup) {b : β} (hb : b ∈ s) :
    s.find? (fun b' => name b' = name b) = some b := by
  induction s with
  | nil => contradiction
  | cons b₀ s ih =>
    obtain ⟨hnot, hs⟩ := List.nodup_cons.mp h
    rw [List.find?_cons]
    rcases List.mem_cons.mp hb with rfl | hb
    · simp
    · have hne : name b₀ ≠ name b := fun he => hnot (he ▸ List.mem_map_of_mem hb)
      simp [hne, ih hs hb]

/-- Looking up the ids of a key gives back its items. -/
theorem filterMap_ids [DecidableEq α] (h : (s.map name).Nodup) (k : κ) :
    (ids name key s k).filterMap (fun a => s.find? fun b => name b = a) =
      s.filter fun b => key b = k := by
  unfold ids
  rw [List.filterMap_map]
  have hsome : ∀ b ∈ s.filter (fun b => key b = k),
      ((fun a => s.find? fun b => name b = a) ∘ name) b = some b := fun b hb =>
    find_name h (List.mem_filter.mp hb).1
  rw [List.filterMap_congr hsome, List.filterMap_some]

section Indexes
variable [Ord κ] [TransOrd κ]

variable (name key) in
/-- The map that sends each key that occurs to the ids of its items. -/
def Indexes (m : ExtTreeMap κ (List α)) (s : List β) : Prop :=
  ∀ k, m[k]? = if ids name key s k = [] then none else some (ids name key s k)

variable {m : ExtTreeMap κ (List α)}

theorem indexes_empty : Indexes name key ∅ [] := fun k => by simp [ids]

theorem Indexes.getD (h : Indexes name key m s) (k : κ) : (m[k]?).getD [] = ids name key s k := by
  rw [h k]
  split_ifs with hnil
  · exact hnil.symm
  · rfl

theorem Indexes.push [LawfulEqOrd κ] (h : Indexes name key m s) (b : β) :
    Indexes name key (m.insert (key b) ((m[key b]?).getD [] ++ [name b])) (s ++ [b]) := by
  intro k
  rw [OrdMap.getElem?_insert, ids_append, h.getD]
  split_ifs with hk hnil hnil
  · simp at hnil
  · rw [hk]
  · rw [h k, if_pos hnil]
  · rw [h k, if_neg hnil]

theorem Indexes.map (h : Indexes name key m s) {f : β → β} (hname : ∀ b, name (f b) = name b)
    (hkey : ∀ b, key (f b) = key b) : Indexes name key m (s.map f) := by
  intro k
  rw [ids_map hname hkey]
  exact h k

/-- All items with one id share a key; its entry is filtered, or dropped when empty. -/
theorem Indexes.remove [DecidableEq α] [LawfulEqOrd κ] (h : Indexes name key m s) (hk : ∀ b ∈ s, name b = a → key b = k) :
    Indexes name key
      (if (ids name key s k).filter (· ≠ a) = [] then m.erase k
        else m.insert k ((ids name key s k).filter (· ≠ a)))
      (s.filter fun b => name b ≠ a) := by
  intro k'
  by_cases hkk : k = k'
  · subst hkk
    rw [ids_filter_ne]
    split_ifs with hnil
    · exact ExtTreeMap.getElem?_erase_self
    · exact ExtTreeMap.getElem?_insert_self
  · have hother : ids name key (s.filter fun b => name b ≠ a) k' = ids name key s k' :=
      ids_filter_ne_of_key fun b hb ha hkey => hkk ((hk b hb ha).symm.trans hkey)
    rw [hother, ← h k']
    split_ifs
    · rw [OrdMap.getElem?_erase, if_neg hkk]
    · exact OrdMap.getElem?_insert_ne _ _ hkk

end Indexes

end Lib.GroupIndex
