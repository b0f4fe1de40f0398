import Mathlib.Data.List.Basic
import Mathlib.Order.Basic
import Mathlib.Tactic.Common

/-! Deterministic transition systems and their runs. A step reads an input and
is either undefined or answers with an output and the next state. A run is kept
as the list of its events with the states around them, so that a property of a
whole run is a property of that list. The rules below lift what one step
preserves to what every run preserves. -/

namespace Lib

/-- A system whose step is undefined where the modelled program would trap. -/
structure Machine (σ ι ο : Type*) where
  step : σ → ι → Option (ο × σ)

/-- One step of a run, with the states around it. -/
structure Event (σ ι ο : Type*) where
  pre : σ
  input : ι
  output : ο
  post : σ

/-- The same step with its states seen through a function. -/
def Event.map {σ τ ι ο : Type*} (f : σ → τ) (e : Event σ ι ο) : Event τ ι ο :=
  ⟨f e.pre, e.input, e.output, f e.post⟩

namespace Machine

variable {σ ι ο : Type*} (M : Machine σ ι ο)

/-- The events of a run between two states, oldest first. -/
inductive Run : σ → List (Event σ ι ο) → σ → Prop
  | nil (s : σ) : Run s [] s
  | cons {s m s' : σ} {i : ι} {o : ο} {tr : List (Event σ ι ο)}
      (hstep : M.step s i = some (o, m)) (hrun : Run m tr s') : Run s (⟨s, i, o, m⟩ :: tr) s'

def Reachable (s s' : σ) : Prop := ∃ tr, M.Run s tr s'

/-- An event is a step of the machine. -/
def IsStep (e : Event σ ι ο) : Prop := M.step e.pre e.input = some (e.output, e.post)

/-- Feed a list of inputs, keeping the events. -/
def exec : σ → List ι → Option (List (Event σ ι ο) × σ)
  | s, [] => some ([], s)
  | s, i :: is =>
    match M.step s i with
    | none => none
    | some (o, m) =>
      match exec m is with
      | none => none
      | some (tr, s') => some (⟨s, i, o, m⟩ :: tr, s')

variable {M}

theorem run_of_exec {is : List ι} {s s' : σ} {tr : List (Event σ ι ο)}
    (h : M.exec s is = some (tr, s')) : M.Run s tr s' := by
  induction is generalizing s tr with
  | nil =>
    simp only [exec, Option.some.injEq, Prod.mk.injEq] at h
    obtain ⟨rfl, rfl⟩ := h
    exact Run.nil s
  | cons i is ih =>
    simp only [exec] at h
    split at h
    · contradiction
    next o m hstep =>
      split at h
      · contradiction
      next tr' t hrest =>
        simp only [Option.some.injEq, Prod.mk.injEq] at h
        obtain ⟨rfl, rfl⟩ := h
        exact Run.cons hstep (ih hrest)

theorem inputs_of_exec {is : List ι} {s s' : σ} {tr : List (Event σ ι ο)}
    (h : M.exec s is = some (tr, s')) : tr.map Event.input = is := by
  induction is generalizing s tr with
  | nil =>
    cases h
    rfl
  | cons i is ih =>
    simp only [exec] at h
    split at h
    · contradiction
    next o m hstep =>
      split at h
      · contradiction
      next tr' t hrest =>
        simp only [Option.some.injEq, Prod.mk.injEq] at h
        obtain ⟨rfl, rfl⟩ := h
        rw [List.map_cons, ih hrest]

theorem Run.append {s m s' : σ} {tr tr' : List (Event σ ι ο)} (h : M.Run s tr m)
    (h' : M.Run m tr' s') : M.Run s (tr ++ tr') s' := by
  induction h with
  | nil => exact h'
  | cons hstep _ ih => exact Run.cons hstep (ih h')

/-- What holds at the start and is carried on by each step, with the events so far, holds of every run. -/
theorem Run.history {P : List (Event σ ι ο) → σ → Prop} {s : σ}
    (hP : ∀ tr m i o s', P tr m → M.step m i = some (o, s') → P (tr ++ [⟨m, i, o, s'⟩]) s')
    {s' : σ} {tr : List (Event σ ι ο)} (h : M.Run s tr s') (hs : P [] s) : P tr s' := by
  suffices hall : ∀ front, P front s → P (front ++ tr) s' from hall [] hs
  clear hs
  induction h with
  | nil => exact fun front hfront => by rwa [List.append_nil]
  | cons hstep _ ih =>
    intro front hfront
    rw [List.append_cons]
    exact ih _ (hP _ _ _ _ _ hfront hstep)

/-- A run cut at any point of its event list. -/
theorem Run.split {s s' : σ} {tr tr' : List (Event σ ι ο)} (h : M.Run s (tr ++ tr') s') :
    ∃ m, M.Run s tr m ∧ M.Run m tr' s' := by
  induction tr generalizing s with
  | nil => exact ⟨s, Run.nil s, h⟩
  | cons e tr ih =>
    cases h with
    | cons hstep hrun =>
      obtain ⟨m, h₁, h₂⟩ := ih hrun
      exact ⟨m, Run.cons hstep h₁, h₂⟩

/-- A run cut around one of its events. -/
theorem Run.split_cons {s s' : σ} {tr tr' : List (Event σ ι ο)} {e : Event σ ι ο}
    (h : M.Run s (tr ++ e :: tr') s') :
    M.Run s tr e.pre ∧ M.IsStep e ∧ M.Run e.post tr' s' := by
  obtain ⟨m, h₁, h₂⟩ := h.split
  cases h₂ with
  | cons hstep hrun => exact ⟨h₁, hstep, hrun⟩

/-- The events before one event of a run, its step, and the events after it. -/
theorem Run.at_mem {s s' : σ} {tr : List (Event σ ι ο)} (h : M.Run s tr s')
    {e : Event σ ι ο} (he : e ∈ tr) :
    ∃ tr₁ tr₂, tr = tr₁ ++ e :: tr₂ ∧ M.Run s tr₁ e.pre ∧ M.IsStep e ∧ M.Run e.post tr₂ s' := by
  obtain ⟨tr₁, tr₂, rfl⟩ := List.append_of_mem he
  exact ⟨tr₁, tr₂, rfl, h.split_cons⟩

/-- A run is one of another machine when each of its steps is. -/
theorem Run.map {τ : Type*} {N : Machine τ ι ο} (f : σ → τ) {s s' : σ} {tr : List (Event σ ι ο)}
    (h : M.Run s tr s') (hN : ∀ e ∈ tr, N.IsStep (e.map f)) : N.Run (f s) (tr.map (Event.map f)) (f s') := by
  induction h with
  | nil => exact Run.nil _
  | cons _ _ ih =>
    obtain ⟨hfirst, hrest⟩ := List.forall_mem_cons.mp hN
    exact Run.cons hfirst (ih hrest)

theorem Reachable.refl (s : σ) : M.Reachable s s := ⟨[], Run.nil s⟩

theorem Reachable.step {s s' t : σ} {i : ι} {o : ο} (h : M.Reachable s s')
    (hstep : M.step s' i = some (o, t)) : M.Reachable s t := by
  obtain ⟨tr, hr⟩ := h
  exact ⟨_, hr.append (Run.cons hstep (Run.nil t))⟩

/-- What every step that meets a condition preserves holds at the end of a run of such steps. -/
theorem Run.invariant_of_forall {P : σ → Prop} {C : Event σ ι ο → Prop}
    (hP : ∀ s i o s', P s → C ⟨s, i, o, s'⟩ → M.step s i = some (o, s') → P s')
    {s s' : σ} {tr : List (Event σ ι ο)} (h : M.Run s tr s') (hC : ∀ e ∈ tr, C e) (hs : P s) :
    P s' := by
  induction h with
  | nil => exact hs
  | cons hstep _ ih =>
    obtain ⟨hfirst, hrest⟩ := List.forall_mem_cons.mp hC
    exact ih hrest (hP _ _ _ _ hs hfirst hstep)

/-- What an event leaves true of the states after it, when every step that meets a condition keeps it,
relates the event to each later one in a run of such steps. -/
theorem Run.pairwise_of_forall {R : Event σ ι ο → Event σ ι ο → Prop} {Q : Event σ ι ο → σ → Prop}
    {C : Event σ ι ο → Prop} (hleave : ∀ e, C e → M.IsStep e → Q e e.post)
    (hkeep : ∀ e s i o s', Q e s → C ⟨s, i, o, s'⟩ → M.step s i = some (o, s') → Q e s')
    (hmeet : ∀ e e', C e' → M.IsStep e' → Q e e'.pre → R e e')
    {s s' : σ} {tr : List (Event σ ι ο)} (h : M.Run s tr s') (hC : ∀ e ∈ tr, C e) : tr.Pairwise R := by
  induction h with
  | nil => exact List.Pairwise.nil
  | @cons s m s' i o tr hstep hrun ih =>
    obtain ⟨hfirst, hrest⟩ := List.forall_mem_cons.mp hC
    refine List.Pairwise.cons (fun e he => ?_) (ih hrest)
    obtain ⟨tr₁, tr₂, rfl, hpre, hst, _⟩ := hrun.at_mem he
    have hQ : Q ⟨s, i, o, m⟩ e.pre :=
      hpre.invariant_of_forall (hkeep ⟨s, i, o, m⟩) (fun e' he' => hrest e' (List.mem_append_left _ he'))
        (hleave ⟨s, i, o, m⟩ hfirst hstep)
    exact hmeet _ e (hrest e he) hst hQ

section Clock
variable {T : Type*} [Preorder T] {now : ι → T} {P : T → σ → Prop} {C : Event σ ι ο → Prop}

/-- A property that each step carries from an earlier time to its own holds around every
event of a run whose clock does not go back. -/
theorem Run.clocked
    (hP : ∀ t s i o s', P t s → t ≤ now i → C ⟨s, i, o, s'⟩ → M.step s i = some (o, s') → P (now i) s')
    {s s' : σ} {tr : List (Event σ ι ο)} {t : T} (h : M.Run s tr s')
    (hclock : (t :: tr.map fun e => now e.input).Pairwise (· ≤ ·)) (hC : ∀ e ∈ tr, C e) (hs : P t s) :
    (∀ e ∈ tr, ∃ u ≤ now e.input, P u e.pre ∧ P (now e.input) e.post) ∧
      ∃ u, P u s' ∧ ∀ v, t ≤ v → (∀ e ∈ tr, now e.input ≤ v) → u ≤ v := by
  induction h generalizing t with
  | nil => exact ⟨by simp, t, hs, fun _ hv _ => hv⟩
  | @cons s m s' i o tr hstep _ ih =>
    rw [List.map_cons, List.pairwise_cons] at hclock
    obtain ⟨hfirst, hrest⟩ := List.forall_mem_cons.mp hC
    have hle : t ≤ now i := hclock.1 _ List.mem_cons_self
    have hm := hP t s i o m hs hle hfirst hstep
    obtain ⟨hevents, u, hu, hmin⟩ := ih hclock.2 hrest hm
    refine ⟨List.forall_mem_cons.mpr ⟨⟨t, hle, hs, hm⟩, hevents⟩, u, hu, fun v _ hv => ?_⟩
    obtain ⟨hnow, hlater⟩ := List.forall_mem_cons.mp hv
    exact hmin v hnow hlater

end Clock

section Invariant
variable {P : σ → Prop} (hP : ∀ s i o s', P s → M.step s i = some (o, s') → P s')
include hP

/-- What every step preserves holds at the end of a run. -/
theorem Run.invariant {s s' : σ} {tr : List (Event σ ι ο)} (h : M.Run s tr s') (hs : P s) : P s' := by
  induction h with
  | nil => exact hs
  | cons hstep _ ih => exact ih (hP _ _ _ _ hs hstep)

theorem Reachable.invariant {s s' : σ} (h : M.Reachable s s') (hs : P s) : P s' := by
  obtain ⟨tr, hr⟩ := h
  exact hr.invariant hP hs

/-- An invariant holds around every event of a run. -/
theorem Run.forall_mem {s s' : σ} {tr : List (Event σ ι ο)} (h : M.Run s tr s') (hs : P s) :
    ∀ e ∈ tr, P e.pre ∧ M.IsStep e ∧ P e.post := by
  intro e he
  obtain ⟨_, _, _, hpre, hstep, _⟩ := h.at_mem he
  have hp := hpre.invariant hP hs
  exact ⟨hp, hstep, hP _ _ _ _ hp hstep⟩

/-- A preorder that every step respects relates the ends of a run. -/
theorem Run.relates {R : σ → σ → Prop} (hrefl : ∀ s, R s s)
    (htrans : ∀ s t u, R s t → R t u → R s u)
    (hR : ∀ s i o s', P s → M.step s i = some (o, s') → R s s')
    {s s' : σ} {tr : List (Event σ ι ο)} (h : M.Run s tr s') (hs : P s) : R s s' := by
  induction h with
  | nil => exact hrefl _
  | cons hstep _ ih => exact htrans _ _ _ (hR _ _ _ _ hs hstep) (ih (hP _ _ _ _ hs hstep))

/-- What an event leaves true of the states after it, when every step keeps it,
relates the event to each later one. -/
theorem Run.pairwise {R : Event σ ι ο → Event σ ι ο → Prop} {Q : Event σ ι ο → σ → Prop}
    (hleave : ∀ e, P e.pre → M.IsStep e → Q e e.post)
    (hkeep : ∀ e s i o s', P s → Q e s → M.step s i = some (o, s') → Q e s')
    (hmeet : ∀ e e', P e'.pre → M.IsStep e' → Q e e'.pre → R e e')
    {s s' : σ} {tr : List (Event σ ι ο)} (h : M.Run s tr s') (hs : P s) : tr.Pairwise R :=
  h.pairwise_of_forall hleave (fun e s i o s' hQ hPs hstep => hkeep e s i o s' hPs hQ hstep) hmeet
    fun e he => (h.forall_mem hP hs e he).1

end Invariant

/-- A machine that always steps inside an invariant runs every list of inputs. -/
theorem exists_run {P : σ → Prop} (hP : ∀ s i, P s → ∃ o s', M.step s i = some (o, s') ∧ P s')
    (is : List ι) {s : σ} (hs : P s) :
    ∃ tr s', M.Run s tr s' ∧ tr.map Event.input = is ∧ P s' := by
  induction is generalizing s with
  | nil => exact ⟨[], s, Run.nil s, rfl, hs⟩
  | cons i is ih =>
    obtain ⟨o, m, hstep, hm⟩ := hP s i hs
    obtain ⟨tr, s', hr, hi, hs'⟩ := ih hm
    exact ⟨_, s', Run.cons hstep hr, by simp [hi], hs'⟩

end Machine

end Lib
