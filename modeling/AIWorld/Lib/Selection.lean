import Mathlib.Order.MinMax
import Mathlib.Tactic.Common

/-! The best of a list, by a loop that keeps the best so far and goes over to a candidate only when
it is better. Where better means a smaller key, the result has the smallest key of all. -/

namespace Lib.Selection

variable {α κ : Type*} [LinearOrder κ]

/-- One round of the loop. -/
def keep (better : α → α → Bool) (best : Option α) (candidate : α) : Option α :=
  match best with
  | none => some candidate
  | some best => if better candidate best then some candidate else some best

def select (better : α → α → Bool) (l : List α) : Option α := l.foldl (keep better) none

variable {better : α → α → Bool} {key : α → κ} {l : List α} {a s : α}

theorem foldl_keep_some (hkey : ∀ c ∈ a :: l, ∀ b ∈ a :: l, better c b = true ↔ key c < key b) :
    ∃ s ∈ a :: l, l.foldl (keep better) (some a) = some s ∧ ∀ c ∈ a :: l, key s ≤ key c := by
  induction l generalizing a with
  | nil => exact ⟨a, List.mem_cons_self, rfl, by simp⟩
  | cons c l ih =>
    rw [List.foldl_cons]
    by_cases hbetter : better c a = true
    · have hlt := (hkey c (by simp) a (by simp)).mp hbetter
      obtain ⟨s, hs, hfold, hmin⟩ := ih (a := c) fun x hx y hy =>
        hkey x (List.mem_cons_of_mem _ hx) y (List.mem_cons_of_mem _ hy)
      refine ⟨s, List.mem_cons_of_mem _ hs, ?_, ?_⟩
      · rw [keep, if_pos hbetter]
        exact hfold
      · exact List.forall_mem_cons.mpr ⟨(hmin c List.mem_cons_self).trans hlt.le, hmin⟩
    · have hle := not_lt.mp ((hkey c (by simp) a (by simp)).not.mp hbetter)
      have hsub : ∀ x ∈ a :: l, x ∈ a :: c :: l := by
        intro x hx
        rcases List.mem_cons.mp hx with rfl | hx
        · exact List.mem_cons_self
        · exact List.mem_cons_of_mem _ (List.mem_cons_of_mem _ hx)
      obtain ⟨s, hs, hfold, hmin⟩ := ih (a := a) fun x hx y hy =>
        hkey x (hsub x hx) y (hsub y hy)
      refine ⟨s, hsub s hs, ?_, ?_⟩
      · rw [keep, if_neg hbetter]
        exact hfold
      · intro x hx
        rcases List.mem_cons.mp hx with rfl | hx
        · exact hmin x List.mem_cons_self
        · rcases List.mem_cons.mp hx with rfl | hx
          · exact (hmin a List.mem_cons_self).trans hle
          · exact hmin x (List.mem_cons_of_mem _ hx)

theorem select_eq_none_iff : select better l = none ↔ l = [] := by
  constructor
  · intro h
    cases l with
    | nil => rfl
    | cons a l =>
      have hsome : ∀ (l : List α) (a : α), l.foldl (keep better) (some a) ≠ none := by
        intro l
        induction l with
        | nil => exact fun a => Option.some_ne_none a
        | cons c l ih =>
          intro a
          rw [List.foldl_cons, keep]
          split_ifs
          · exact ih c
          · exact ih a
      exact absurd h (hsome l a)
  · rintro rfl
    rfl

/-- What is selected is of the list, and nothing in the list has a smaller key. -/
theorem select_spec (hkey : ∀ c ∈ l, ∀ b ∈ l, better c b = true ↔ key c < key b)
    (h : select better l = some s) : s ∈ l ∧ ∀ c ∈ l, key s ≤ key c := by
  cases l with
  | nil => exact absurd h nofun
  | cons a l =>
    obtain ⟨s', hs', hfold, hmin⟩ := foldl_keep_some hkey
    have heq : select better (a :: l) = some s' := hfold
    rw [heq] at h
    cases h
    exact ⟨hs', hmin⟩

/-- Where no two keys are the same, the order in which the candidates come plays no role. -/
theorem select_eq_of_perm {l' : List α} (hperm : l.Perm l')
    (hkey : ∀ c ∈ l, ∀ b ∈ l, better c b = true ↔ key c < key b)
    (hinj : ∀ c ∈ l, ∀ b ∈ l, key c = key b → c = b) : select better l = select better l' := by
  cases hs : select better l with
  | none =>
    cases select_eq_none_iff.mp hs
    rw [← hperm.nil_eq, hs]
  | some s =>
    cases hs' : select better l' with
    | none =>
      cases select_eq_none_iff.mp hs'
      rw [hperm.eq_nil, select_eq_none_iff.mpr rfl] at hs
      contradiction
    | some s' =>
      have hkey' : ∀ c ∈ l', ∀ b ∈ l', better c b = true ↔ key c < key b := fun c hc b hb =>
        hkey c (hperm.mem_iff.mpr hc) b (hperm.mem_iff.mpr hb)
      obtain ⟨hmem, hmin⟩ := select_spec hkey hs
      obtain ⟨hmem', hmin'⟩ := select_spec hkey' hs'
      have hle := hmin s' (hperm.mem_iff.mpr hmem')
      have hge := hmin' s (hperm.mem_iff.mp hmem)
      rw [hinj s hmem s' (hperm.mem_iff.mpr hmem') (hle.antisymm hge)]

/-! ### The largest value -/

/-- A part of the state to which only some elements contribute is the fold of what they do. -/
theorem foldl_part {σ ε β γ : Type*} {step : σ → ε → σ} {part : σ → β} {contribution : ε → Option γ}
    {join : β → γ → β}
    (hstep : ∀ s e, part (step s e) = (contribution e).elim (part s) (join (part s)))
    (l : List ε) (s : σ) :
    part (l.foldl step s) = (l.filterMap contribution).foldl join (part s) := by
  induction l generalizing s with
  | nil => rfl
  | cons e l ih =>
    rw [List.foldl_cons, ih, hstep]
    cases h : contribution e with
    | none => rw [List.filterMap_cons_none h, Option.elim_none]
    | some c => rw [List.filterMap_cons_some h, Option.elim_some, List.foldl_cons]

theorem mem_foldl_max (a : κ) (l : List κ) : l.foldl max a ∈ a :: l := by
  induction l generalizing a with
  | nil => exact List.mem_cons_self
  | cons c l ih =>
    rw [List.foldl_cons]
    rcases List.mem_cons.mp (ih (max a c)) with h | h
    · rcases max_choice a c with hmax | hmax
      · rw [h, hmax]
        exact List.mem_cons_self
      · rw [h, hmax]
        exact List.mem_cons_of_mem _ List.mem_cons_self
    · exact List.mem_cons_of_mem _ (List.mem_cons_of_mem _ h)

end Lib.Selection
