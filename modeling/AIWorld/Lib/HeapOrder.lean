import Mathlib.Order.Nat
import Mathlib.Tactic.Common

/-! The order of a binary heap. Every entry has its parent at half its place, and no entry is before its parent. An
entry that has become smaller rises, one that was put at the top sinks, and the others keep their order. -/

namespace Lib.HeapOrder

variable {α : Type*} {before : α → α → Prop} {get : ℕ → α} {n p next : ℕ}

/-- What a comparison has to promise: what is not before something else is ordered. -/
structure Preference (before : α → α → Prop) : Prop where
  asymm : ∀ {a b}, before a b → ¬before b a
  trans : ∀ {a b c}, ¬before b a → ¬before c b → ¬before c a

/-- A comparison with another one for what it does not tell apart. -/
theorem Preference.lex {first second : α → α → Prop} (hfirst : Preference first) (hsecond : Preference second) :
    Preference fun a b => first a b ∨ ¬first b a ∧ second a b := by
  constructor
  · rintro a b (hab | ⟨hba, hab⟩) (hba' | ⟨hab', hba'⟩)
    · exact hfirst.asymm hab hba'
    · exact hab' hab
    · exact hba hba'
    · exact hsecond.asymm hab hba'
  · intro a b c hab hbc hca
    obtain ⟨hba, hab⟩ := not_or.mp hab
    obtain ⟨hcb, hbc⟩ := not_or.mp hbc
    obtain hca | ⟨hac, hca⟩ := hca
    · exact hfirst.trans hba hcb hca
    · have hnot : ¬second b a := fun h => hab ⟨hfirst.trans hcb hac, h⟩
      have hnot' : ¬second c b := fun h => hbc ⟨hfirst.trans hac hba, h⟩
      exact hsecond.trans hnot hnot' hca

def parent (p : ℕ) : ℕ := (p - 1) / 2

theorem parent_lt (hp : p ≠ 0) : parent p < p := by
  unfold parent
  omega

theorem parent_eq_iff {q : ℕ} (hq : q ≠ 0) : parent q = p ↔ q = p * 2 + 1 ∨ q = p * 2 + 1 + 1 := by
  unfold parent
  omega

def swap (get : ℕ → α) (a b : ℕ) : ℕ → α := fun q => if q = a then get b else if q = b then get a else get q

theorem swap_left (get : ℕ → α) (a b : ℕ) : swap get a b a = get b := if_pos rfl

theorem swap_right (get : ℕ → α) {a b : ℕ} (h : b ≠ a) : swap get a b b = get a := by
  rw [swap, if_neg h, if_pos rfl]

theorem swap_of_ne (get : ℕ → α) {a b q : ℕ} (ha : q ≠ a) (hb : q ≠ b) : swap get a b q = get q := by
  rw [swap, if_neg ha, if_neg hb]

/-- No entry is before its parent. -/
def Ordered (before : α → α → Prop) (get : ℕ → α) (n : ℕ) : Prop :=
  ∀ q < n, q ≠ 0 → ¬before (get q) (get (parent q))

/-- No entry but one is before its parent, and those under that one are not before its parent. -/
structure Rising (before : α → α → Prop) (get : ℕ → α) (n p : ℕ) : Prop where
  others : ∀ q < n, q ≠ 0 → q ≠ p → ¬before (get q) (get (parent q))
  across : ∀ q < n, q ≠ 0 → parent q = p → p ≠ 0 → ¬before (get q) (get (parent p))

/-- Only the entries under one may be before it, and they are not before its parent. -/
structure Sinking (before : α → α → Prop) (get : ℕ → α) (n p : ℕ) : Prop where
  others : ∀ q < n, q ≠ 0 → parent q ≠ p → ¬before (get q) (get (parent q))
  across : ∀ q < n, q ≠ 0 → parent q = p → p ≠ 0 → ¬before (get q) (get (parent p))

/-- The first entry is a least one. -/
theorem Ordered.not_before_first (hbefore : Preference before) (h : Ordered before get n) {q : ℕ} (hq : q < n) :
    ¬before (get q) (get 0) := by
  induction q using Nat.strongRecOn with
  | ind q ih =>
    obtain rfl | hq0 := eq_or_ne q 0
    · exact fun hself => hbefore.asymm hself hself
    · have hless := parent_lt hq0
      exact hbefore.trans (ih (parent q) hless (hless.trans hq)) (h q hq hq0)

/-! ### Rising -/

theorem Rising.stop (h : Rising before get n p) (hstop : p = 0 ∨ ¬before (get p) (get (parent p))) :
    Ordered before get n := by
  intro q hq hq0
  by_cases hqp : q = p
  · subst hqp
    exact hstop.resolve_left hq0
  · exact h.others q hq hq0 hqp

theorem Rising.step (hbefore : Preference before) (h : Rising before get n p) (hp : p < n) (hp0 : p ≠ 0)
    (hless : before (get p) (get (parent p))) : Rising before (swap get p (parent p)) n (parent p) := by
  have hparent := parent_lt hp0
  have hne : parent p ≠ p := hparent.ne
  refine ⟨fun q hq hq0 hqp => ?_, fun q hq hq0 hqp hpp0 => ?_⟩
  · by_cases hqp' : q = p
    · subst hqp'
      rw [swap_left, swap_right get hne]
      exact hbefore.asymm hless
    · rw [swap_of_ne get hqp' hqp]
      by_cases hchild : parent q = p
      · rw [hchild, swap_left]
        exact h.across q hq hq0 hchild hp0
      · by_cases hsibling : parent q = parent p
        · have hold := h.others q hq hq0 hqp'
          rw [hsibling] at hold
          rw [hsibling, swap_right get hne]
          exact hbefore.trans (hbefore.asymm hless) hold
        · rw [swap_of_ne get hchild hsibling]
          exact h.others q hq hq0 hqp'
  · have hgrand := parent_lt hpp0
    have hup := h.others (parent p) (hparent.trans hp) hpp0 hne
    rw [swap_of_ne get (hgrand.trans hparent).ne hgrand.ne]
    by_cases hqp' : q = p
    · subst hqp'
      rw [swap_left]
      exact hup
    · have hq' : q ≠ parent p := by
        rintro rfl
        exact hgrand.ne hqp
      have hold := h.others q hq hq0 hqp'
      rw [hqp] at hold
      rw [swap_of_ne get hqp' hq']
      exact hbefore.trans hup hold

/-- An entry that is added at the end rises. -/
theorem Ordered.rising_last {get' : ℕ → α} (h : Ordered before get n) (hold : ∀ q < n, get' q = get q) :
    Rising before get' (n + 1) n := by
  refine ⟨fun q hq hq0 hqn => ?_, fun q hq hq0 hqn => ?_⟩
  · have hqn : q < n := by omega
    rw [hold q hqn, hold _ ((parent_lt hq0).trans hqn)]
    exact h q hqn hq0
  · have hless := parent_lt hq0
    omega

/-! ### Sinking -/

theorem Sinking.stop (h : Sinking before get n p)
    (hstop : ∀ q < n, q ≠ 0 → parent q = p → ¬before (get q) (get p)) : Ordered before get n := by
  intro q hq hq0
  by_cases hqp : parent q = p
  · rw [hqp]
    exact hstop q hq hq0 hqp
  · exact h.others q hq hq0 hqp

theorem Sinking.step (hbefore : Preference before) (h : Sinking before get n p) (hnext : next < n) (hnext0 : next ≠ 0)
    (hchild : parent next = p) (hleast : ∀ q < n, q ≠ 0 → parent q = p → ¬before (get q) (get next))
    (hless : before (get next) (get p)) : Sinking before (swap get p next) n next := by
  have hlt : p < next := hchild ▸ parent_lt hnext0
  refine ⟨fun q hq hq0 hqn => ?_, fun q hq hq0 hqn _ => ?_⟩
  · by_cases hqnext : q = next
    · subst hqnext
      rw [swap_right get hlt.ne', hchild, swap_left]
      exact hbefore.asymm hless
    · by_cases hqp : q = p
      · subst hqp
        have hup := parent_lt hq0
        rw [swap_left, swap_of_ne get hup.ne (hup.trans hlt).ne]
        exact h.across next hnext hnext0 hchild hq0
      · rw [swap_of_ne get hqp hqnext]
        by_cases hsibling : parent q = p
        · rw [hsibling, swap_left]
          exact hleast q hq hq0 hsibling
        · rw [swap_of_ne get hsibling hqn]
          exact h.others q hq hq0 hsibling
  · have hless' := parent_lt hq0
    have hold := h.others q hq hq0 (by omega)
    rw [hqn] at hold
    rw [swap_of_ne get (by omega) (by omega), hchild, swap_left]
    exact hold

/-- An entry that is put first sinks. -/
theorem Ordered.sinking_first {get' : ℕ → α} {m : ℕ} (h : Ordered before get n) (hm : m ≤ n)
    (hold : ∀ q < m, q ≠ 0 → get' q = get q) : Sinking before get' m 0 := by
  refine ⟨fun q hq hq0 hqp => ?_, fun q hq hq0 hqp hp0 => absurd rfl hp0⟩
  rw [hold q hq hq0, hold _ ((parent_lt hq0).trans hq) hqp]
  exact h q (hq.trans_le hm) hq0

end Lib.HeapOrder
