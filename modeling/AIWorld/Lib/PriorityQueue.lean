import Mathlib.Data.List.Sort

/-! Priority queues with a comparison that says which of two items comes later. A queue
is known by the list of its items in the order in which it gives them up; items that
compare equal may come in any order. What a program computes from a queue by skipping
and popping is then a computation on that list. -/

namespace Lib

/-- An implementation of priority queues, with the order in which each gives up its items. -/
structure PriorityQueue (α : Type) (later : α → α → Bool) where
  Q : Type
  ofList : List α → Q
  push : Q → α → Q
  top : Q → Option α
  pop : Q → Q
  toList : Q → List α
  sorted : ∀ q, (toList q).Pairwise fun a b => later a b = false
  toList_ofList : ∀ l, (toList (ofList l)).Perm l
  toList_push : ∀ q a, (toList (push q a)).Perm (a :: toList q)
  top_eq : ∀ q, top q = (toList q).head?
  toList_pop : ∀ q, toList (pop q) = (toList q).tail

namespace PriorityQueue

variable {α : Type} {later : α → α → Bool}

/-! ### Sorted lists -/

/-- Sorted lists as priority queues. -/
def sortedList (later : α → α → Bool)
    (total : ∀ a b, later a b = false ∨ later b a = false)
    (trans : ∀ a b c, later a b = false → later b c = false → later a c = false) :
    PriorityQueue α later :=
  have : Std.Total fun a b => later a b = false := ⟨total⟩
  have : IsTrans α fun a b => later a b = false := ⟨trans⟩
  { Q := { l : List α // l.Pairwise fun a b => later a b = false }
    ofList l := ⟨l.insertionSort fun a b => later a b = false, List.pairwise_insertionSort _ l⟩
    push q a := ⟨q.1.orderedInsert (fun a b => later a b = false) a, q.2.orderedInsert a _⟩
    top q := q.1.head?
    pop q := ⟨q.1.tail, q.2.tail⟩
    toList := Subtype.val
    sorted := Subtype.property
    toList_ofList := List.perm_insertionSort _
    toList_push q a := List.perm_orderedInsert _ a q.1
    top_eq _ := rfl
    toList_pop _ := rfl }

variable (P : PriorityQueue α later)

/-- The number of items. -/
def size (q : P.Q) : ℕ := (P.toList q).length

variable {P} {q : P.Q} {a : α} {l : List α}

theorem toList_of_top (h : P.top q = some a) : P.toList q = a :: P.toList (P.pop q) := by
  rw [P.top_eq, List.head?_eq_some_iff] at h
  obtain ⟨l, hl⟩ := h
  rw [P.toList_pop, hl, List.tail_cons]

theorem toList_of_top_none (h : P.top q = none) : P.toList q = [] := by
  rwa [P.top_eq, List.head?_eq_none_iff] at h

theorem size_of_top (h : P.top q = some a) : P.size q = P.size (P.pop q) + 1 := by
  rw [size, toList_of_top h, List.length_cons]
  rfl

/-! ### Skipping -/

/-- Pop until the top is one to keep, at most so often. -/
def skip (P : PriorityQueue α later) (keep : α → Bool) : ℕ → P.Q → P.Q
  | 0, q => q
  | fuel + 1, q =>
    match P.top q with
    | none => q
    | some a => if keep a then q else skip P keep fuel (P.pop q)

theorem toList_skip (keep : α → Bool) {fuel : ℕ} (h : P.size q ≤ fuel) :
    P.toList (P.skip keep fuel q) = (P.toList q).dropWhile fun a => !keep a := by
  induction fuel generalizing q with
  | zero =>
    have hnil : P.toList q = [] := List.length_eq_zero_iff.mp (Nat.le_zero.mp h)
    rw [skip, hnil, List.dropWhile_nil]
  | succ fuel ih =>
    rw [skip]
    cases htop : P.top q with
    | none => rw [toList_of_top_none htop, List.dropWhile_nil]
    | some a =>
      simp only
      rw [toList_of_top htop, List.dropWhile_cons]
      cases hkeep : keep a with
      | true => simpa [hkeep] using toList_of_top htop
      | false =>
        rw [size_of_top htop] at h
        simpa [hkeep] using ih (Nat.le_of_succ_le_succ h)

/-! ### Listing -/

/-- Pop while the top is within a bound, and keep the first so many of a kind. -/
def take (P : PriorityQueue α later) (within keep : α → Bool) (limit : ℕ) :
    ℕ → P.Q → List α → List α
  | 0, _, result => result
  | fuel + 1, q, result =>
    match P.top q with
    | none => result
    | some a =>
      if within a = true ∧ result.length < limit then
        take P within keep limit fuel (P.pop q) (if keep a then result ++ [a] else result)
      else result

theorem take_eq (within keep : α → Bool) (limit : ℕ) {fuel : ℕ} (h : P.size q ≤ fuel)
    (result : List α) : P.take within keep limit fuel q result =
      result ++ (((P.toList q).takeWhile within).filter keep).take (limit - result.length) := by
  induction fuel generalizing q result with
  | zero =>
    have hnil : P.toList q = [] := List.length_eq_zero_iff.mp (Nat.le_zero.mp h)
    simp [take, hnil]
  | succ fuel ih =>
    rw [take]
    cases htop : P.top q with
    | none => simp [toList_of_top_none htop]
    | some a =>
      rw [size_of_top htop] at h
      have hrest := fun r => ih (Nat.le_of_succ_le_succ h) r
      simp only [toList_of_top htop, List.takeWhile_cons]
      by_cases hwithin : within a = true
      · by_cases hroom : result.length < limit
        · rw [if_pos ⟨hwithin, hroom⟩, hrest, if_pos hwithin]
          cases hkeep : keep a with
          | false => simp [hkeep]
          | true =>
            obtain ⟨n, hn⟩ := Nat.exists_eq_add_of_lt hroom
            have hleft : limit - result.length = n + 1 := by omega
            have hnext : limit - (result ++ [a]).length = n := by
              rw [List.length_append, List.length_singleton]
              omega
            rw [if_pos rfl, hnext, hleft, List.filter_cons_of_pos hkeep, List.take_succ_cons,
              List.append_assoc, List.singleton_append]
        · rw [if_neg fun hc => hroom hc.2, Nat.sub_eq_zero_of_le (Nat.le_of_not_lt hroom),
            List.take_zero, List.append_nil]
      · rw [if_neg fun hc => hwithin hc.1, if_neg hwithin]
        simp

end PriorityQueue

/-! ### Sorted lists and bounds -/

/-- Up to a bound that the order respects, taking while and filtering are the same. -/
theorem takeWhile_eq_filter {α : Type*} {R : α → α → Prop} {within : α → Bool} {l : List α}
    (h : l.Pairwise R) (hR : ∀ a b, R a b → within b = true → within a = true) :
    l.takeWhile within = l.filter within := by
  induction l with
  | nil => rfl
  | cons a l ih =>
    obtain ⟨hhead, htail⟩ := List.pairwise_cons.mp h
    cases hwithin : within a with
    | true => rw [List.takeWhile_cons_of_pos hwithin, List.filter_cons_of_pos hwithin, ih htail]
    | false =>
      have hnone : ∀ b ∈ a :: l, ¬ within b = true := by
        intro b hb hwb
        rcases List.mem_cons.mp hb with rfl | hb
        · simp [hwithin] at hwb
        · simp [hR a b (hhead b hb) hwb] at hwithin
      rw [List.filter_eq_nil_iff.mpr hnone, List.takeWhile_cons, hwithin]
      rfl

end Lib
