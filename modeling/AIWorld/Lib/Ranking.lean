import Mathlib.Data.List.Sort
import Mathlib.Tactic.Common

/-! Ranking by a comparison that is a strict total order. There is only one way to rank, so
the order in which the elements are given plays no role, and whoever misses the first places
is preceded by all that got them. -/

namespace Lib.Ranking

variable {α : Type*}

/-- The comparison is a strict total order. -/
structure Strict (less : α → α → Bool) : Prop where
  irrefl : ∀ a, less a a = false
  trans : ∀ a b c, less a b = true → less b c = true → less a c = true
  connected : ∀ a b, less a b = false → less b a = false → a = b

/-- The elements in order. -/
def ranked (less : α → α → Bool) (l : List α) : List α := l.insertionSort fun a b => less b a = false

variable {less : α → α → Bool} {l l' : List α} {a b : α} {n : ℕ}

theorem perm_ranked (less : α → α → Bool) (l : List α) : (ranked less l).Perm l :=
  List.perm_insertionSort _ l

theorem mem_ranked : a ∈ ranked less l ↔ a ∈ l := (perm_ranked less l).mem_iff

theorem Strict.asymm (h : Strict less) (hab : less a b = true) : less b a = false := by
  cases hba : less b a with
  | false => rfl
  | true =>
    have hloop := h.trans a b a hab hba
    rw [h.irrefl a] at hloop
    contradiction

theorem Strict.pairwise_ranked (h : Strict less) (l : List α) :
    (ranked less l).Pairwise fun a b => less b a = false := by
  have htotal : Std.Total fun a b => less b a = false := by
    refine ⟨fun a b => ?_⟩
    cases hba : less b a with
    | false => exact .inl rfl
    | true => exact .inr (h.asymm hba)
  have htrans : IsTrans α fun a b => less b a = false := by
    refine ⟨fun a b c hab hbc => ?_⟩
    cases hca : less c a with
    | false => rfl
    | true =>
      cases hac : less a b with
      | true =>
        have hcb := h.trans c a b hca hac
        rw [hbc] at hcb
        contradiction
      | false =>
        cases h.connected a b hac hab
        rw [hbc] at hca
        contradiction
  exact List.pairwise_insertionSort _ l

/-- Ranking is independent of the order in which the elements are given. -/
theorem Strict.ranked_eq_of_perm (h : Strict less) (hperm : l.Perm l') :
    ranked less l = ranked less l' := by
  refine List.Perm.eq_of_pairwise (fun a b _ _ hab hba => h.connected a b hba hab) (h.pairwise_ranked l)
    (h.pairwise_ranked l') ?_
  exact (perm_ranked less l).trans (hperm.trans (perm_ranked less l').symm)

/-- What is not among the first elements of a sorted list comes after them all, and the places are
all taken. -/
theorem of_notMem_take {r : α → α → Prop} (hsorted : l.Pairwise r) (ha : a ∈ l)
    (hmissed : a ∉ l.take n) : (l.take n).length = n ∧ ∀ b ∈ l.take n, r b a := by
  have hmem : a ∈ l.take n ++ l.drop n := by
    rw [List.take_append_drop]
    exact ha
  have hdrop := (List.mem_append.mp hmem).resolve_left hmissed
  rw [← List.take_append_drop n l, List.pairwise_append] at hsorted
  constructor
  · have hpos := List.length_pos_of_mem hdrop
    rw [List.length_drop] at hpos
    rw [List.length_take]
    omega
  · exact fun b hb => hsorted.2.2 b hb a hdrop

/-- Who misses the first places is preceded by all that got them, and no place is left free. -/
theorem Strict.of_notMem_take (h : Strict less) (ha : a ∈ l) (hmissed : a ∉ (ranked less l).take n) :
    ((ranked less l).take n).length = n ∧ ∀ b ∈ (ranked less l).take n, less b a = true := by
  obtain ⟨hlength, hbefore⟩ :=
    Ranking.of_notMem_take (h.pairwise_ranked l) (mem_ranked.mpr ha) hmissed
  refine ⟨hlength, fun b hb => ?_⟩
  have hle := hbefore b hb
  cases hba : less b a with
  | true => rfl
  | false =>
    cases h.connected a b hle hba
    exact absurd hb hmissed

/-! ### Ranking by a key

A comparison need be an order on the elements that are ranked only. -/

theorem orderedInsert_congr {r r' : α → α → Prop} [DecidableRel r] [DecidableRel r']
    (h : ∀ b ∈ l, r a b ↔ r' a b) : l.orderedInsert r a = l.orderedInsert r' a := by
  induction l with
  | nil => rfl
  | cons b l ih =>
    rw [List.orderedInsert_cons, List.orderedInsert_cons,
      ih fun c hc => h c (List.mem_cons_of_mem _ hc)]
    exact if_congr (h b List.mem_cons_self) rfl rfl

theorem insertionSort_congr {r r' : α → α → Prop} [DecidableRel r] [DecidableRel r']
    (h : ∀ a ∈ l, ∀ b ∈ l, r a b ↔ r' a b) : l.insertionSort r = l.insertionSort r' := by
  induction l with
  | nil => rfl
  | cons a l ih =>
    rw [List.insertionSort_cons, List.insertionSort_cons,
      ih fun b hb c hc => h b (List.mem_cons_of_mem _ hb) c (List.mem_cons_of_mem _ hc)]
    refine orderedInsert_congr fun b hb => h a List.mem_cons_self b ?_
    exact List.mem_cons_of_mem _ ((List.mem_insertionSort _).mp hb)

variable {κ : Type*} [LinearOrder κ] {key : α → κ}

theorem pairwise_ranked_key (hkey : ∀ a ∈ l, ∀ b ∈ l, less a b = true ↔ key a < key b) :
    (ranked less l).Pairwise fun a b => key a ≤ key b := by
  have htotal : Std.Total fun a b => key a ≤ key b := ⟨fun a b => le_total (key a) (key b)⟩
  have htrans : IsTrans α fun a b => key a ≤ key b := ⟨fun _ _ _ => le_trans⟩
  have hranked : ranked less l = l.insertionSort fun a b => key a ≤ key b := by
    refine insertionSort_congr fun a ha b hb => ?_
    rw [← Bool.not_eq_true, hkey b hb a ha, not_lt]
  rw [hranked]
  exact List.pairwise_insertionSort _ l

/-- Who misses the first places has no smaller key than any that got one, and no place is left
free. -/
theorem of_notMem_take_key (hkey : ∀ a ∈ l, ∀ b ∈ l, less a b = true ↔ key a < key b) (ha : a ∈ l)
    (hmissed : a ∉ (ranked less l).take n) :
    ((ranked less l).take n).length = n ∧ ∀ b ∈ (ranked less l).take n, key b ≤ key a :=
  of_notMem_take (pairwise_ranked_key hkey) (mem_ranked.mpr ha) hmissed

end Lib.Ranking
