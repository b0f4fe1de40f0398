import Mathlib.Data.List.Perm.Basic
import Mathlib.Logic.Relation
import Mathlib.Tactic.Common

/-! Merging of duplicates in one pass. A candidate takes the place of the first duplicate among
those kept if it wins, and is dropped if it does not; without a duplicate it is kept. The relation of
duplicates need not be transitive: what holds of all elements then holds along chains only. -/

namespace Lib.Merging

variable {α : Type*}

/-- One candidate. -/
def absorb (same wins : α → α → Bool) (kept : List α) (candidate : α) : List α :=
  match kept.findIdx? (same candidate) with
  | none => kept ++ [candidate]
  | some i => kept.modify i fun existing => if wins candidate existing then candidate else existing

def merge (same wins : α → α → Bool) (l : List α) : List α := l.foldl (absorb same wins) []

variable {same wins : α → α → Bool} {kept l : List α} {a b candidate : α}

theorem perm_modify {i : ℕ} (hi : i < l.length) (f : α → α) :
    (l.modify i f).Perm (f l[i] :: l.eraseIdx i) := by
  rw [List.modify_eq_take_cons_drop hi, List.eraseIdx_eq_take_drop_succ]
  exact List.perm_middle

/-- Either nothing kept is a duplicate of the candidate, or one of them stays or goes. -/
theorem absorb_cases (same wins : α → α → Bool) (kept : List α) (candidate : α) :
    ((∀ e ∈ kept, same candidate e = false) ∧ absorb same wins kept candidate = kept ++ [candidate]) ∨
    ∃ (e : α) (others : List α), kept.Perm (e :: others) ∧ same candidate e = true ∧
      ((wins candidate e = true ∧ (absorb same wins kept candidate).Perm (candidate :: others)) ∨
        (wins candidate e = false ∧ (absorb same wins kept candidate).Perm (e :: others))) := by
  unfold absorb
  cases hfind : kept.findIdx? (same candidate) with
  | none => exact .inl ⟨List.findIdx?_eq_none_iff.mp hfind, rfl⟩
  | some i =>
    obtain ⟨hi, hsame, -⟩ := List.findIdx?_eq_some_iff_getElem.mp hfind
    refine .inr ⟨kept[i], kept.eraseIdx i, (List.getElem_cons_eraseIdx_perm hi).symm, hsame, ?_⟩
    have hperm := perm_modify hi fun existing => if wins candidate existing then candidate else existing
    cases hwins : wins candidate kept[i] with
    | true =>
      rw [hwins, if_pos rfl] at hperm
      exact .inl ⟨rfl, hperm⟩
    | false =>
      rw [hwins, if_neg Bool.false_ne_true] at hperm
      exact .inr ⟨rfl, hperm⟩

theorem mem_absorb (h : a ∈ absorb same wins kept candidate) : a ∈ kept ∨ a = candidate := by
  rcases absorb_cases same wins kept candidate with
    ⟨-, heq⟩ | ⟨e, others, hkept, -, ⟨-, hperm⟩ | ⟨-, hperm⟩⟩
  · rw [heq] at h
    simpa using h
  · rcases List.mem_cons.mp (hperm.mem_iff.mp h) with h | h
    · exact .inr h
    · exact .inl (hkept.mem_iff.mpr (List.mem_cons_of_mem _ h))
  · exact .inl (hkept.mem_iff.mpr (hperm.mem_iff.mp h))

theorem mem_foldl_absorb (h : a ∈ l.foldl (absorb same wins) kept) : a ∈ kept ∨ a ∈ l := by
  induction l generalizing kept with
  | nil => exact .inl h
  | cons c l ih =>
    rcases ih h with h | h
    · rcases mem_absorb h with h | rfl
      · exact .inl h
      · exact .inr List.mem_cons_self
    · exact .inr (List.mem_cons_of_mem _ h)

theorem mem_of_mem_merge (h : a ∈ merge same wins l) : a ∈ l :=
  (mem_foldl_absorb h).resolve_left List.not_mem_nil

/-! ### Duplicates that remain -/

/-- Among the plain elements to be a duplicate is symmetric and transitive, and no other element
is a duplicate of a plain one. -/
structure Plain (same : α → α → Bool) (plain : α → Prop) : Prop where
  closed : ∀ a b, same a b = true → (plain a ↔ plain b)
  symm : ∀ a b, plain a → same a b = true → same b a = true
  trans : ∀ a b c, plain a → same a b = true → same b c = true → same a c = true

/-- Two elements that are no plain duplicates. -/
def Apart (same : α → α → Bool) (plain : α → Prop) (a b : α) : Prop := plain a → same a b = false

variable {plain : α → Prop}

theorem Plain.symm_apart (h : Plain same plain) (hab : Apart same plain a b) :
    Apart same plain b a := by
  intro hb
  by_contra hba
  rw [Bool.not_eq_false] at hba
  have ha := (h.closed b a hba).mp hb
  have hsame := h.symm b a hb hba
  rw [hab ha] at hsame
  contradiction

theorem Plain.pairwise_absorb (h : Plain same plain) (hkept : kept.Pairwise (Apart same plain)) :
    (absorb same wins kept candidate).Pairwise (Apart same plain) := by
  rcases absorb_cases same wins kept candidate with
    ⟨hnone, heq⟩ | ⟨e, others, hperm, hsame, ⟨-, hperm'⟩ | ⟨-, hperm'⟩⟩
  · rw [heq, List.pairwise_append]
    refine ⟨hkept, List.pairwise_singleton _ _, fun x hx y hy => ?_⟩
    rw [List.mem_singleton.mp hy]
    exact h.symm_apart fun _ => hnone x hx
  · rw [hperm.pairwise_iff h.symm_apart, List.pairwise_cons] at hkept
    rw [hperm'.pairwise_iff h.symm_apart, List.pairwise_cons]
    refine ⟨fun x hx hcandidate => ?_, hkept.2⟩
    by_contra hx'
    rw [Bool.not_eq_false] at hx'
    have he := (h.closed _ _ hsame).mp hcandidate
    have hex := h.trans _ _ _ he (h.symm _ _ hcandidate hsame) hx'
    rw [hkept.1 x hx he] at hex
    contradiction
  · rw [hperm'.pairwise_iff h.symm_apart]
    exact (hperm.pairwise_iff h.symm_apart).mp hkept

/-- No plain element is kept beside a duplicate of it. -/
theorem Plain.pairwise_merge (h : Plain same plain) (wins : α → α → Bool) (l : List α) :
    (merge same wins l).Pairwise (Apart same plain) := by
  have hfold : ∀ kept : List α, kept.Pairwise (Apart same plain) →
      (l.foldl (absorb same wins) kept).Pairwise (Apart same plain) := by
    induction l with
    | nil => exact fun _ hkept => hkept
    | cons c l ih => exact fun kept hkept => ih _ (h.pairwise_absorb hkept)
  exact hfold [] List.Pairwise.nil

/-! ### What becomes of each element -/

/-- A duplicate that is as good or better. -/
def Yields (same : α → α → Bool) (le : α → α → Prop) (a b : α) : Prop :=
  (same a b = true ∨ same b a = true) ∧ le a b

def Leads (same : α → α → Bool) (le : α → α → Prop) : α → α → Prop :=
  Relation.ReflTransGen (Yields same le)

variable {le : α → α → Prop}

theorem exists_leads_absorb (hle : ∀ e ∈ kept, if wins candidate e then le e candidate else le candidate e)
    (ha : (∃ s ∈ kept, Leads same le a s) ∨ a = candidate) :
    ∃ s ∈ absorb same wins kept candidate, Leads same le a s := by
  rcases absorb_cases same wins kept candidate with
    ⟨-, heq⟩ | ⟨e, others, hperm, hsame, ⟨hwins, hperm'⟩ | ⟨hwins, hperm'⟩⟩
  · rw [heq]
    rcases ha with ⟨s, hs, hleads⟩ | rfl
    · exact ⟨s, List.mem_append_left _ hs, hleads⟩
    · exact ⟨a, by simp, .refl⟩
  · have hyields : Yields same le e candidate := by
      have hbetter := hle e (hperm.mem_iff.mpr List.mem_cons_self)
      rw [if_pos hwins] at hbetter
      exact ⟨.inr hsame, hbetter⟩
    rcases ha with ⟨s, hs, hleads⟩ | rfl
    · rcases List.mem_cons.mp (hperm.mem_iff.mp hs) with rfl | hs
      · exact ⟨candidate, hperm'.mem_iff.mpr List.mem_cons_self, hleads.tail hyields⟩
      · exact ⟨s, hperm'.mem_iff.mpr (List.mem_cons_of_mem _ hs), hleads⟩
    · exact ⟨a, hperm'.mem_iff.mpr List.mem_cons_self, .refl⟩
  · rcases ha with ⟨s, hs, hleads⟩ | rfl
    · exact ⟨s, hperm'.mem_iff.mpr (hperm.mem_iff.mp hs), hleads⟩
    · have hworse := hle e (hperm.mem_iff.mpr List.mem_cons_self)
      rw [if_neg (ne_true_of_eq_false hwins)] at hworse
      exact ⟨e, hperm'.mem_iff.mpr List.mem_cons_self, .single ⟨.inl hsame, hworse⟩⟩

theorem exists_leads_foldl
    (hle : ∀ c ∈ l, ∀ e, e ∈ kept ∨ e ∈ l → if wins c e then le e c else le c e)
    (ha : (∃ s ∈ kept, Leads same le a s) ∨ a ∈ l) :
    ∃ s ∈ l.foldl (absorb same wins) kept, Leads same le a s := by
  induction l generalizing kept with
  | nil => exact ha.resolve_right List.not_mem_nil
  | cons c l ih =>
    have hstep : (∃ s ∈ kept, Leads same le a s) ∨ a = c →
        ∃ s ∈ absorb same wins kept c, Leads same le a s :=
      exists_leads_absorb fun e he => hle c List.mem_cons_self e (.inl he)
    refine ih (fun x hx e he => hle x (List.mem_cons_of_mem _ hx) e ?_) ?_
    · rcases he with he | he
      · rcases mem_absorb he with he | rfl
        · exact .inl he
        · exact .inr List.mem_cons_self
      · exact .inr (List.mem_cons_of_mem _ he)
    · rcases ha with ha | ha
      · exact .inl (hstep (.inl ha))
      · rcases List.mem_cons.mp ha with rfl | ha
        · exact .inl (hstep (.inr rfl))
        · exact .inr ha

/-- From every element a chain of duplicates, none of them worse than the one before, leads to
one that is kept. -/
theorem exists_leads (hle : ∀ c ∈ l, ∀ e ∈ l, if wins c e then le e c else le c e) (ha : a ∈ l) :
    ∃ s ∈ merge same wins l, Leads same le a s :=
  exists_leads_foldl (fun c hc e he => hle c hc e (he.resolve_left List.not_mem_nil)) (.inr ha)

/-- From a plain element the chain is one step long. -/
theorem Plain.of_leads (h : Plain same plain) (htrans : ∀ a b c, le a b → le b c → le a c)
    (ha : plain a) (hleads : Leads same le a b) : b = a ∨ (same a b = true ∧ le a b) := by
  induction hleads with
  | refl => exact .inl rfl
  | @tail b c _ hyields ih =>
    have hb : plain b := by
      rcases ih with rfl | ⟨hsame, -⟩
      · exact ha
      · exact (h.closed a b hsame).mp ha
    have hsame : same b c = true := by
      rcases hyields.1 with hsame | hsame
      · exact hsame
      · exact h.symm c b ((h.closed c b hsame).mpr hb) hsame
    rcases ih with rfl | ⟨hsame', hle⟩
    · exact .inr ⟨hsame, hyields.2⟩
    · exact .inr ⟨h.trans a b c ha hsame' hsame, htrans a b c hle hyields.2⟩

end Lib.Merging
