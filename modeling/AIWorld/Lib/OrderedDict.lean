import Mathlib.Data.List.Nodup
import Mathlib.Tactic.Common

/-! Dictionaries that keep the order in which their keys came. Each key stands once. A key that is replaced keeps its
place, a new one comes last, and the place of a key is how many keys stand before it. -/

namespace Lib

structure OrderedDict (α β : Type*) where
  entries : List (α × β)
  nodup : (entries.map Prod.fst).Nodup

namespace OrderedDict

variable {α β : Type*} {d : OrderedDict α β} {k a : α} {v b : β}

def empty : OrderedDict α β := ⟨[], List.nodup_nil⟩

def keys (d : OrderedDict α β) : List α := d.entries.map Prod.fst

def length (d : OrderedDict α β) : ℕ := d.entries.length

def first? (d : OrderedDict α β) : Option (α × β) := d.entries.head?

/-- The entries that pass a test. -/
def filter (d : OrderedDict α β) (p : α × β → Bool) : OrderedDict α β :=
  ⟨d.entries.filter p, d.nodup.sublist (List.filter_sublist.map Prod.fst)⟩

/-- All but the first entry. -/
def popFirst (d : OrderedDict α β) : OrderedDict α β :=
  ⟨d.entries.tail, d.nodup.sublist ((List.tail_sublist _).map Prod.fst)⟩

/-- The newest entries, so many of them. -/
def shrink : ℕ → OrderedDict α β → ℕ → OrderedDict α β
  | 0, d, _ => d
  | fuel + 1, d, most => if d.length > most then shrink fuel d.popFirst most else d

theorem mem_keys : k ∈ d.keys ↔ ∃ v, (k, v) ∈ d.entries := by simp [keys]

theorem length_keys : d.keys.length = d.length := List.length_map _

theorem unique (h : (k, v) ∈ d.entries) (h' : (k, b) ∈ d.entries) : v = b := by
  have hinj := List.inj_on_of_nodup_map d.nodup h h' rfl
  exact (Prod.mk.inj hinj).2

theorem length_filter_le (p : α × β → Bool) : (d.filter p).length ≤ d.length := List.length_filter_le _ _

theorem length_popFirst : d.popFirst.length = d.length - 1 := List.length_tail

theorem length_shrink_le {fuel most : ℕ} (hfuel : d.length ≤ fuel + most) : (shrink fuel d most).length ≤ most := by
  induction fuel generalizing d with
  | zero =>
    rw [Nat.zero_add] at hfuel
    exact hfuel
  | succ fuel ih =>
    rw [shrink]
    split_ifs with h
    · refine ih ?_
      rw [length_popFirst]
      omega
    · exact Nat.not_lt.mp h

section Lookup
variable [DecidableEq α]

def get? (d : OrderedDict α β) (k : α) : Option β := (d.entries.find? (·.1 = k)).map Prod.snd

def contains (d : OrderedDict α β) (k : α) : Bool := d.keys.contains k

def erase (d : OrderedDict α β) (k : α) : OrderedDict α β := d.filter (·.1 ≠ k)

/-- A key that is there keeps its place. -/
def insert (d : OrderedDict α β) (k : α) (v : β) : OrderedDict α β :=
  if h : k ∈ d.keys then
    ⟨d.entries.map fun e => if e.1 = k then (k, v) else e, by
      have hkeys : (d.entries.map fun e => if e.1 = k then (k, v) else e).map Prod.fst = d.keys := by
        rw [List.map_map]
        refine List.map_congr_left fun e _ => ?_
        by_cases he : e.1 = k <;> simp [he]
      rw [hkeys]
      exact d.nodup⟩
  else
    ⟨d.entries ++ [(k, v)], by
      rw [List.map_append]
      exact List.nodup_append.mpr ⟨d.nodup, List.nodup_singleton k, by rintro a ha b hb rfl; simp_all [keys]⟩⟩

/-- An entry comes last. -/
def moveToEnd (d : OrderedDict α β) (k : α) : OrderedDict α β :=
  ⟨d.entries.filter (·.1 ≠ k) ++ d.entries.filter (·.1 = k), by
    have hperm : (d.entries.filter (·.1 ≠ k) ++ d.entries.filter (·.1 = k)).Perm d.entries := by
      have hsplit := List.filter_append_perm (fun e : α × β => decide (e.1 ≠ k)) d.entries
      simpa using hsplit
    exact (hperm.map Prod.fst).nodup_iff.mpr d.nodup⟩

theorem get?_eq_some : d.get? k = some v ↔ (k, v) ∈ d.entries := by
  rw [get?, Option.map_eq_some_iff]
  constructor
  · rintro ⟨⟨a, b⟩, hfind, rfl⟩
    have hmem := List.mem_of_find?_eq_some hfind
    have hkey := List.find?_some hfind
    simp only [decide_eq_true_eq] at hkey
    rwa [← hkey]
  · intro h
    cases hfind : d.entries.find? (·.1 = k) with
    | none => exact absurd (List.find?_eq_none.mp hfind _ h) (by simp)
    | some e =>
      obtain ⟨a, b⟩ := e
      have hmem := List.mem_of_find?_eq_some hfind
      have hkey := List.find?_some hfind
      simp only [decide_eq_true_eq] at hkey
      subst hkey
      exact ⟨_, rfl, unique hmem h⟩

theorem mem_keys_iff_get? : k ∈ d.keys ↔ ∃ v, d.get? k = some v := by
  rw [mem_keys]
  exact exists_congr fun v => get?_eq_some.symm

theorem get?_eq_none : d.get? k = none ↔ k ∉ d.keys := by
  rw [mem_keys_iff_get?, not_exists, Option.eq_none_iff_forall_ne_some]

theorem contains_iff : d.contains k = true ↔ k ∈ d.keys := List.contains_iff_mem

theorem get?_filter_some {p : α × β → Bool} (h : (d.filter p).get? k = some v) : d.get? k = some v := by
  rw [get?_eq_some] at h ⊢
  exact (List.mem_filter.mp h).1

theorem mem_keys_filter {p : α × β → Bool} (h : k ∈ (d.filter p).keys) : k ∈ d.keys := by
  rw [mem_keys_iff_get?] at h ⊢
  exact h.imp fun v => get?_filter_some

theorem get?_erase_some : (d.erase k).get? a = some b ↔ a ≠ k ∧ d.get? a = some b := by
  rw [get?_eq_some, get?_eq_some, erase, filter, List.mem_filter, and_comm]
  simp

theorem mem_keys_erase : a ∈ (d.erase k).keys ↔ a ≠ k ∧ a ∈ d.keys := by
  simp only [mem_keys_iff_get?, get?_erase_some, exists_and_left]

theorem get?_insert_some : (d.insert k v).get? a = some b ↔ a = k ∧ b = v ∨ a ≠ k ∧ d.get? a = some b := by
  rw [get?_eq_some, get?_eq_some, insert]
  split_ifs with h
  · rw [List.mem_map]
    constructor
    · rintro ⟨⟨a', b'⟩, hmem, heq⟩
      by_cases hkey : a' = k
      · rw [if_pos hkey, Prod.mk.injEq] at heq
        exact .inl ⟨heq.1.symm, heq.2.symm⟩
      · rw [if_neg hkey, Prod.mk.injEq] at heq
        obtain ⟨rfl, rfl⟩ := heq
        exact .inr ⟨hkey, hmem⟩
    · rintro (⟨rfl, rfl⟩ | ⟨hkey, hmem⟩)
      · obtain ⟨v', hv'⟩ := mem_keys.mp h
        exact ⟨_, hv', if_pos rfl⟩
      · exact ⟨_, hmem, if_neg hkey⟩
  · rw [List.mem_append, List.mem_singleton, Prod.mk.injEq]
    constructor
    · rintro (hmem | heq)
      · refine .inr ⟨?_, hmem⟩
        rintro rfl
        exact h (mem_keys.mpr ⟨b, hmem⟩)
      · exact .inl heq
    · rintro (heq | ⟨-, hmem⟩)
      · exact .inr heq
      · exact .inl hmem

theorem mem_keys_insert : a ∈ (d.insert k v).keys ↔ a = k ∨ a ∈ d.keys := by
  by_cases ha : a = k
  · subst ha
    simp [mem_keys_iff_get?, get?_insert_some]
  · simp [mem_keys_iff_get?, get?_insert_some, ha]

theorem keys_insert (h : k ∉ d.keys) : (d.insert k v).keys = d.keys ++ [k] := by
  rw [insert, dif_neg h]
  exact List.map_append

theorem length_insert (h : k ∉ d.keys) : (d.insert k v).length = d.length + 1 := by
  rw [← length_keys, keys_insert h, List.length_append, length_keys, List.length_singleton]

theorem get?_moveToEnd (a : α) : (d.moveToEnd k).get? a = d.get? a := by
  refine Option.ext fun b => ?_
  rw [get?_eq_some, get?_eq_some, moveToEnd, List.mem_append, List.mem_filter, List.mem_filter]
  by_cases h : a = k <;> simp [h]

theorem mem_keys_moveToEnd : a ∈ (d.moveToEnd k).keys ↔ a ∈ d.keys := by
  simp only [mem_keys_iff_get?, get?_moveToEnd]

theorem length_moveToEnd : (d.moveToEnd k).length = d.length := by
  have hsplit := (List.filter_append_perm (fun e : α × β => decide (e.1 ≠ k)) d.entries).length_eq
  rw [length, length, ← hsplit, moveToEnd]
  simp

theorem get?_popFirst_some (h : d.popFirst.get? k = some v) : d.get? k = some v := by
  rw [get?_eq_some] at h ⊢
  exact List.mem_of_mem_tail h

theorem get?_shrink_some {fuel most : ℕ} (h : (shrink fuel d most).get? k = some v) : d.get? k = some v := by
  induction fuel generalizing d with
  | zero => exact h
  | succ fuel ih =>
    rw [shrink] at h
    split_ifs at h
    · exact get?_popFirst_some (ih h)
    · exact h

theorem mem_keys_shrink {fuel most : ℕ} (h : k ∈ (shrink fuel d most).keys) : k ∈ d.keys := by
  rw [mem_keys_iff_get?] at h ⊢
  exact h.imp fun v => get?_shrink_some

/-! ### Places -/

/-- How many keys stand before a key. -/
def place (d : OrderedDict α β) (k : α) : ℕ := d.keys.idxOf k

theorem place_lt (h : k ∈ d.keys) : d.place k < d.length := by
  rw [← length_keys]
  exact List.idxOf_lt_length_of_mem h

theorem idxOf_filter_le {l : List (α × β)} {p : α × β → Bool} (hnodup : (l.map Prod.fst).Nodup)
    (h : k ∈ (l.filter p).map Prod.fst) : ((l.filter p).map Prod.fst).idxOf k ≤ (l.map Prod.fst).idxOf k := by
  induction l with
  | nil => exact Nat.le_refl _
  | cons e l ih =>
    rw [List.map_cons, List.nodup_cons] at hnodup
    rw [List.filter_cons] at h ⊢
    by_cases hp : p e = true
    · rw [if_pos hp, List.map_cons] at h ⊢
      rw [List.map_cons]
      by_cases he : e.1 = k
      · rw [List.idxOf_cons_eq _ he]
        exact Nat.zero_le _
      · have hrest := (List.mem_cons.mp h).resolve_left (Ne.symm he)
        rw [List.idxOf_cons_ne _ he, List.idxOf_cons_ne _ he]
        exact Nat.succ_le_succ (ih hnodup.2 hrest)
    · rw [if_neg hp] at h ⊢
      have he : e.1 ≠ k := by
        rintro rfl
        exact hnodup.1 ((List.filter_sublist.map Prod.fst).subset h)
      rw [List.map_cons, List.idxOf_cons_ne _ he]
      exact Nat.le_succ_of_le (ih hnodup.2 h)

theorem place_filter_le {p : α × β → Bool} (h : k ∈ (d.filter p).keys) : (d.filter p).place k ≤ d.place k :=
  idxOf_filter_le d.nodup h

theorem place_insert (h : k ∉ d.keys) (ha : a ∈ d.keys) : (d.insert k v).place a = d.place a := by
  rw [place, keys_insert h, List.idxOf_append_of_mem ha]
  rfl

/-- When the first of the dictionary comes last, the others move on by one. -/
theorem place_moveToEnd (hfirst : d.first? = some (k, v)) (ha : a ∈ d.keys) (hne : a ≠ k) :
    (d.moveToEnd k).place a + 1 = d.place a := by
  obtain ⟨entries, hnodup⟩ := d
  obtain - | ⟨e, rest⟩ := entries
  · contradiction
  obtain rfl : e = (k, v) := Option.some.inj hfirst
  have hrest : k ∉ rest.map Prod.fst := by
    rw [List.map_cons, List.nodup_cons] at hnodup
    exact hnodup.1
  have hkept : rest.filter (fun e => decide (e.1 ≠ k)) = rest := by
    rw [List.filter_eq_self]
    intro e he
    refine decide_eq_true fun heq => hrest ?_
    exact heq ▸ List.mem_map_of_mem he
  have hmem : a ∈ rest.map Prod.fst := by
    have hcons : a ∈ k :: rest.map Prod.fst := ha
    exact (List.mem_cons.mp hcons).resolve_left hne
  have hkeys : (moveToEnd ⟨(k, v) :: rest, hnodup⟩ k).keys =
      rest.map Prod.fst ++ (((k, v) :: rest).filter fun e => decide (e.1 = k)).map Prod.fst := by
    rw [keys, moveToEnd, List.map_append, List.filter_cons, if_neg (by simp), hkept]
  rw [place, hkeys, List.idxOf_append_of_mem hmem, place, keys, List.map_cons, List.idxOf_cons_ne _ (Ne.symm hne)]

end Lookup

end OrderedDict

end Lib
