import AIWorld.Lib.Selection
import Mathlib.Data.List.Nodup

/-! Shedding the least elements of a list, one at a time, until the rest fits. Where no two keys are the
same, what is left is the list without the fewest of the least elements, in the order that it had. -/

namespace Lib.Shedding

open Selection (keep select select_spec select_eq_none_iff)

variable {α κ : Type*} [LinearOrder κ] (key : α → κ)

/-! ### Ranks -/

/-- How many elements come before one. -/
def rank (l : List α) (a : α) : ℕ := l.countP fun b => key b < key a

/-- The list without the first elements by rank. -/
def kept (l : List α) (k : ℕ) : List α := l.filter fun a => k ≤ rank key l a

variable {key} {l : List α} {a b : α}

theorem rank_lt_length (ha : a ∈ l) : rank key l a < l.length := by
  refine lt_of_le_of_ne (List.countP_le_length) fun hall => ?_
  simpa using List.countP_eq_length.mp hall a ha

theorem rank_eq_zero (ha : ∀ b ∈ l, key a ≤ key b) : rank key l a = 0 :=
  List.countP_eq_zero.mpr fun b hb => by simpa using ha b hb

/-- The least element comes before every other. -/
theorem rank_erase [DecidableEq α] (ha : a ∈ l) (hlt : key a < key b) : rank key l b = rank key (l.erase a) b + 1 := by
  rw [rank, (List.perm_cons_erase ha).countP_eq, List.countP_cons, if_pos (decide_eq_true hlt)]
  rfl

@[simp] theorem kept_zero : kept key l 0 = l := by simp [kept]

theorem kept_length : kept key l l.length = [] := by
  rw [kept, List.filter_eq_nil_iff]
  intro a ha
  simpa using rank_lt_length ha

theorem kept_erase [DecidableEq α] (hnodup : (l.map key).Nodup) (ha : a ∈ l) (hmin : ∀ b ∈ l, key a ≤ key b) (k : ℕ) :
    kept key (l.erase a) k = kept key l (k + 1) := by
  have hnodup' : l.Nodup := hnodup.of_map
  unfold kept
  rw [hnodup'.erase_eq_filter, List.filter_filter, ← hnodup'.erase_eq_filter]
  refine List.filter_congr fun b hb => ?_
  by_cases hba : b = a
  · subst hba
    simp [rank_eq_zero hmin]
  · have hne : key a ≠ key b := fun heq => hba (List.inj_on_of_nodup_map hnodup hb ha heq.symm)
    rw [rank_erase ha (lt_of_le_of_ne (hmin b hb) hne)]
    simp [hba]

/-! ### Shedding -/

theorem foldl_keep_mem {less : α → α → Bool} {best : Option α} (h : l.foldl (keep less) best = some a) :
    a ∈ l ∨ best = some a := by
  induction l generalizing best with
  | nil => exact .inr h
  | cons b l ih =>
    rcases ih h with ha | hbest
    · exact .inl (List.mem_cons_of_mem b ha)
    · unfold keep at hbest
      cases best with
      | none =>
        cases hbest
        exact .inl List.mem_cons_self
      | some c =>
        dsimp only at hbest
        split_ifs at hbest <;> cases hbest
        · exact .inl List.mem_cons_self
        · exact .inr rfl

theorem select_mem {less : α → α → Bool} (h : select less l = some a) : a ∈ l :=
  (foldl_keep_mem h).resolve_right nofun

section Loop
variable [DecidableEq α] (fits : List α → Bool) (less : α → α → Bool)

def shed (l : List α) : Option (List α) :=
  if fits l then some l
  else
    match _h : select less l with
    | none => none
    | some a => shed (l.erase a)
termination_by l.length
decreasing_by
  have ha := select_mem _h
  have hpos := List.length_pos_of_mem ha
  rw [List.length_erase_of_mem ha]
  omega

variable {fits less}

theorem shed_of_fits (h : fits l = true) : shed fits less l = some l := by
  rw [shed, if_pos h]

theorem shed_of_select (h : fits l = false) (hselect : select less l = some a) :
    shed fits less l = shed fits less (l.erase a) := by
  rw [shed, if_neg (by simp [h])]
  split
  next hnone =>
    rw [hselect] at hnone
    contradiction
  next b hb =>
    rw [hselect] at hb
    cases hb
    rfl

theorem shed_nil (h : fits [] = false) : shed fits less [] = none := by
  rw [shed, if_neg (by simp [h])]
  rfl

/-- What is left is the whole without the fewest of the least elements that leave a rest that fits, and
nothing is left only where no element at all is too much. -/
theorem shed_spec (fits : List α → Bool) (hnodup : (l.map key).Nodup) (hkey : ∀ a ∈ l, ∀ b ∈ l, less a b = true ↔ key a < key b) :
    ∃ k ≤ l.length, (∀ j < k, fits (kept key l j) = false) ∧
      (fits (kept key l k) = true ∧ shed fits less l = some (kept key l k) ∨
        k = l.length ∧ fits [] = false ∧ shed fits less l = none) := by
  induction hn : l.length generalizing l with
  | zero =>
    cases List.length_eq_zero_iff.mp hn
    refine ⟨0, le_rfl, nofun, ?_⟩
    rw [kept_zero]
    cases hfits : fits [] with
    | true => exact .inl ⟨rfl, shed_of_fits hfits⟩
    | false => exact .inr ⟨rfl, rfl, shed_nil hfits⟩
  | succ n ih =>
    cases hfits : fits l with
    | true => exact ⟨0, Nat.zero_le _, nofun, .inl ⟨by rwa [kept_zero], by rw [shed_of_fits hfits, kept_zero]⟩⟩
    | false =>
      obtain ⟨a, hselect⟩ : ∃ a, select less l = some a := by
        refine Option.ne_none_iff_exists'.mp fun hnone => ?_
        rw [select_eq_none_iff.mp hnone] at hn
        contradiction
      obtain ⟨ha, hmin⟩ := select_spec hkey hselect
      have hlength : (l.erase a).length = n := by
        rw [List.length_erase_of_mem ha, hn]
        rfl
      have hsub : ∀ b ∈ l.erase a, b ∈ l := fun b => List.mem_of_mem_erase
      have hnodup' : ((l.erase a).map key).Nodup := hnodup.sublist (List.erase_sublist.map key)
      obtain ⟨k, hk, hbefore, hend⟩ := ih hnodup' (fun b hb c hc => hkey b (hsub b hb) c (hsub c hc)) hlength
      simp only [kept_erase hnodup ha hmin, ← shed_of_select hfits hselect] at hbefore hend
      refine ⟨k + 1, Nat.succ_le_succ hk, fun j hj => ?_, ?_⟩
      · cases j with
        | zero => rwa [kept_zero]
        | succ j => exact hbefore j (by omega)
      · rcases hend with hend | ⟨hk, hend⟩
        · exact .inl hend
        · exact .inr ⟨by omega, hend⟩

end Loop

end Lib.Shedding
