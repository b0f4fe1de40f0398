import Mathlib.Data.List.Chain
import Mathlib.Tactic.Common

/-! Two walks over one list. The first thins it: it keeps what is not near the element it kept last. The second
reads the list again and looks for what was kept, skipping repetitions of the element it found last and nothing
else. The two agree exactly where all that the first walk passed over was such a repetition. -/

namespace Lib.Thinning

variable {α : Type*}

/-- What is kept, starting from an element. -/
def thin (near : α → α → Bool) : α → List α → List α
  | _, [] => []
  | a, x :: xs => if near a x then thin near a xs else x :: thin near x xs

/-- How many elements are passed until so many of them have been kept. -/
def passed (near : α → α → Bool) : α → ℕ → List α → ℕ
  | _, 0, _ => 0
  | _, _ + 1, [] => 0
  | a, n + 1, x :: xs => 1 + if near a x then passed near a (n + 1) xs else passed near x n xs

/-- What is passed over until so many have been kept repeats what was kept last. -/
def Repeats (near same : α → α → Bool) : α → ℕ → List α → Prop
  | _, 0, _ => True
  | _, _ + 1, [] => True
  | a, n + 1, x :: xs =>
    if near a x then same x a = true ∧ Repeats near same a (n + 1) xs else Repeats near same x n xs

/-- Find what was kept, and count the elements read. -/
def recognise (same : α → α → Bool) : α → List α → List α → Option ℕ
  | _, [], _ => some 0
  | a, p :: ps, xs =>
    match xs.dropWhile (same · a) with
    | [] => none
    | x :: rest =>
      if same x p then (recognise same p ps rest).map (· + ((xs.takeWhile (same · a)).length + 1)) else none

variable {near same : α → α → Bool} {a x p : α} {xs ps : List α} {n : ℕ}

theorem not_near_of_thin (h : (thin near a xs).head? = some p) : near a p = false := by
  induction xs with
  | nil => contradiction
  | cons x xs ih =>
    unfold thin at h
    by_cases hx : near a x = true
    · rw [if_pos hx] at h
      exact ih h
    · rw [if_neg hx, List.head?_cons, Option.some.injEq] at h
      subst h
      exact Bool.eq_false_iff.mpr hx

/-- A list whose neighbours are not near is thin already. -/
theorem thin_eq_self (h : (a :: xs).IsChain fun a b => near a b = false) : thin near a xs = xs := by
  induction xs generalizing a with
  | nil => rfl
  | cons x xs ih =>
    rw [List.isChain_cons_cons] at h
    rw [thin, if_neg (by simp [h.1]), ih h.2]

/-- Before such a list no more than the first elements are near. -/
theorem thin_of_apart (h : xs.IsChain fun a b => near a b = false) : thin near a xs = xs.dropWhile (near a) := by
  induction xs with
  | nil => rfl
  | cons x xs ih =>
    unfold thin
    by_cases hx : near a x = true
    · rw [if_pos hx, List.dropWhile_cons_of_pos (p := near a) hx, ih h.tail]
    · rw [if_neg hx, List.dropWhile_cons_of_neg (p := near a) hx, thin_eq_self h]

theorem passed_le : passed near a n xs ≤ xs.length := by
  induction xs generalizing a n with
  | nil => cases n <;> exact Nat.le_refl 0
  | cons x xs ih =>
    cases n with
    | zero => exact Nat.zero_le _
    | succ n =>
      rw [passed, List.length_cons, Nat.add_comm]
      split_ifs
      · exact Nat.add_le_add_right ih 1
      · exact Nat.add_le_add_right ih 1

theorem passed_pos (hn : n ≠ 0) (hxs : xs ≠ []) : 0 < passed near a n xs := by
  obtain ⟨n, rfl⟩ := Nat.exists_eq_succ_of_ne_zero hn
  obtain ⟨x, xs, rfl⟩ := List.exists_cons_of_ne_nil hxs
  rw [passed]
  omega

/-- The elements passed thin to those kept. -/
theorem thin_take_passed : thin near a (xs.take (passed near a n xs)) = (thin near a xs).take n := by
  induction xs generalizing a n with
  | nil => cases n <;> rfl
  | cons x xs ih =>
    cases n with
    | zero => rfl
    | succ n =>
      rw [passed, Nat.add_comm, List.take_succ_cons, thin, thin]
      split_ifs
      · exact ih
      · rw [List.take_succ_cons, ih]

theorem recognise_skip (hx : same x a = true) :
    recognise same a (p :: ps) (x :: xs) = (recognise same a (p :: ps) xs).map (· + 1) := by
  rw [recognise, recognise, List.dropWhile_cons_of_pos (p := (same · a)) hx, List.takeWhile_cons_of_pos (p := (same · a)) hx]
  cases xs.dropWhile (same · a) with
  | nil => rfl
  | cons y rest =>
    dsimp only
    split_ifs
    · rw [Option.map_map]
      rfl
    · rfl

theorem recognise_found (hx : same x a = false) (hp : same x p = true) :
    recognise same a (p :: ps) (x :: xs) = (recognise same p ps xs).map (· + 1) := by
  have hx' : ¬ same x a = true := Bool.eq_false_iff.mp hx
  rw [recognise, List.dropWhile_cons_of_neg (p := (same · a)) hx', List.takeWhile_cons_of_neg (p := (same · a)) hx']
  exact if_pos hp

theorem recognise_lost (hx : same x a = false) (hp : same x p = false) :
    recognise same a (p :: ps) (x :: xs) = none := by
  rw [recognise, List.dropWhile_cons_of_neg (p := (same · a)) (Bool.eq_false_iff.mp hx)]
  exact if_neg (Bool.eq_false_iff.mp hp)

theorem map_succ_eq {o : Option ℕ} {c : Prop} {k m : ℕ} (h : ∀ m, o = some m ↔ c ∧ m = k) :
    o.map (· + 1) = some m ↔ c ∧ m = 1 + k := by
  cases o with
  | none =>
    refine iff_of_false nofun fun hc => ?_
    exact absurd ((h k).mpr ⟨hc.1, rfl⟩) nofun
  | some j =>
    obtain ⟨hc, rfl⟩ := (h j).mp rfl
    simp only [Option.map_some, Option.some.injEq, hc, true_and]
    omega

/-- The second walk finds what the first kept, where the first passed over repetitions only, and then reads what
the first passed. -/
theorem recognise_thin (hnear : ∀ x p, same x p = true → ∀ a, near a x = near a p) (hn : n ≤ (thin near a xs).length)
    (hrefl : ∀ p ∈ (thin near a xs).take n, same p p = true)
    (hself : ∀ b ∈ a :: (thin near a xs).take n, ∀ x, same x b = true → near b x = true) (m : ℕ) :
    recognise same a ((thin near a xs).take n) xs = some m ↔
      Repeats near same a n xs ∧ m = passed near a n xs := by
  induction xs generalizing a n m with
  | nil =>
    obtain rfl : n = 0 := Nat.le_zero.mp hn
    exact ⟨fun h => ⟨trivial, (Option.some.inj h).symm⟩, fun h => congrArg some h.2.symm⟩
  | cons x xs ih =>
    cases n with
    | zero => exact ⟨fun h => ⟨trivial, (Option.some.inj h).symm⟩, fun h => congrArg some h.2.symm⟩
    | succ n =>
      by_cases hx : near a x = true
      · -- `x` is passed over: what is kept is what the rest keeps.
        have hthin : thin near a (x :: xs) = thin near a xs := by rw [thin, if_pos hx]
        rw [hthin] at hn hrefl hself ⊢
        obtain ⟨p, kept, hkept⟩ := List.exists_cons_of_ne_nil
          (List.ne_nil_of_length_pos (Nat.lt_of_lt_of_le n.succ_pos hn))
        have hp : near a p = false := not_near_of_thin (by rw [hkept]; rfl)
        have ih := ih hn hrefl hself
        rw [passed, if_pos hx, Repeats, if_pos hx]
        rw [hkept, List.take_succ_cons] at ih ⊢
        by_cases hsame : same x a = true
        · rw [recognise_skip hsame, map_succ_eq ih]
          exact and_congr_left fun _ => (and_iff_right hsame).symm
        · have hlost : same x p = false := by
            by_contra h
            rw [hnear x p (Bool.not_eq_false _ ▸ h)] at hx
            rw [hp] at hx
            contradiction
          rw [recognise_lost (Bool.eq_false_iff.mpr hsame) hlost]
          exact iff_of_false nofun fun h => hsame h.1.1
      · have hthin : thin near a (x :: xs) = x :: thin near x xs := by rw [thin, if_neg hx]
        rw [hthin] at hn hrefl hself ⊢
        rw [List.take_succ_cons] at hrefl hself ⊢
        have hnew : same x a = false := by
          by_contra h
          exact hx (hself a (List.mem_cons_self ..) x (Bool.not_eq_false _ ▸ h))
        have ih := ih (a := x) (Nat.le_of_succ_le_succ hn) (fun p hp => hrefl p (List.mem_cons_of_mem _ hp))
          fun b hb => hself b (List.mem_cons_of_mem _ hb)
        rw [passed, if_neg hx, Repeats, if_neg hx,
          recognise_found hnew (hrefl x (List.mem_cons_self ..)), map_succ_eq ih]

end Lib.Thinning
