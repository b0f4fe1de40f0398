import Mathlib.Data.List.Basic
import Mathlib.Tactic.Common

/-! Programs that ask. A program ends with a value or asks a query and goes on with the answer, so that
what answers is left open: the relation of a program to its transcripts holds for every answer, and a
function that answers all queries picks one of them. A process is a program that takes a state to the next
one, called again and again. -/

namespace Lib

/-- A program over queries `Q` with answers `A`. -/
inductive Probe (Q : Type) (A : Q → Type) (α : Type)
  | done (a : α)
  | ask (q : Q) (next : A q → Probe Q A α)

namespace Probe

variable {Q : Type} {A : Q → Type} {α β σ ι : Type}

def bind : Probe Q A α → (α → Probe Q A β) → Probe Q A β
  | done a, f => f a
  | ask q next, f => ask q fun answer => (next answer).bind f

instance monad : Monad (Probe Q A) where
  pure := done
  bind := bind

/-- The queries of a run with their answers, oldest first. -/
abbrev Transcript (Q : Type) (A : Q → Type) := List (Σ q, A q)

/-- A run of a program, whatever the answers are. -/
inductive Runs : Probe Q A α → Transcript Q A → α → Prop
  | done (a : α) : Runs (.done a) [] a
  | ask {q : Q} {next : A q → Probe Q A α} {log : Transcript Q A} {a : α} (answer : A q)
      (h : Runs (next answer) log a) : Runs (.ask q next) (⟨q, answer⟩ :: log) a

/-- The answers of a transcript are those of a function. -/
def AnsweredBy (f : ∀ q, A q) (log : Transcript Q A) : Prop := ∀ e ∈ log, e.2 = f e.1

/-- The run whose answers are those of a function. -/
def eval (f : ∀ q, A q) : Probe Q A α → Transcript Q A × α
  | done a => ([], a)
  | ask q next => (⟨q, f q⟩ :: (eval f (next (f q))).1, (eval f (next (f q))).2)

section Runs
variable {log log' : Transcript Q A} {a b : α}

@[simp] theorem runs_pure : Runs (pure a : Probe Q A α) log b ↔ log = [] ∧ b = a := by
  constructor
  · rintro ⟨⟩
    exact ⟨rfl, rfl⟩
  · rintro ⟨rfl, rfl⟩
    exact .done _

@[simp] theorem runs_ask {q : Q} {next : A q → Probe Q A α} :
    Runs (.ask q next) log b ↔ ∃ answer rest, log = ⟨q, answer⟩ :: rest ∧ Runs (next answer) rest b := by
  constructor
  · rintro ⟨⟩
    exact ⟨_, _, rfl, ‹_›⟩
  · rintro ⟨answer, rest, rfl, h⟩
    exact .ask answer h

theorem runs_bind {p : Probe Q A α} {f : α → Probe Q A β} {c : β} :
    Runs (p >>= f) log c ↔ ∃ front back m, log = front ++ back ∧ Runs p front m ∧ Runs (f m) back c := by
  change Runs (p.bind f) log c ↔ _
  constructor
  · induction p generalizing log with
    | done m => exact fun h => ⟨[], log, m, rfl, .done m, h⟩
    | ask q next ih =>
      rintro ⟨⟩
      rename_i rest answer h
      obtain ⟨front, back, m, rfl, hfront, hback⟩ := ih answer h
      exact ⟨⟨q, answer⟩ :: front, back, m, rfl, .ask answer hfront, hback⟩
  · rintro ⟨front, back, m, rfl, hfront, hback⟩
    induction hfront with
    | done => exact hback
    | ask answer h ih => exact .ask answer (ih hback)

theorem AnsweredBy.append {f : ∀ q, A q} :
    AnsweredBy f (log ++ log') ↔ AnsweredBy f log ∧ AnsweredBy f log' := by
  simp only [AnsweredBy, List.forall_mem_append]

/-- What the answers determine. -/
theorem Runs.unique {f : ∀ q, A q} {p : Probe Q A α} (h : Runs p log a) (h' : Runs p log' b)
    (hf : AnsweredBy f log) (hf' : AnsweredBy f log') : log = log' ∧ a = b := by
  induction h generalizing log' with
  | done =>
    cases h'
    exact ⟨rfl, rfl⟩
  | ask answer h ih =>
    cases h' with
    | ask answer' h' =>
      obtain ⟨hanswer, hrest⟩ := List.forall_mem_cons.mp hf
      obtain ⟨hanswer', hrest'⟩ := List.forall_mem_cons.mp hf'
      dsimp only at hanswer hanswer'
      subst hanswer hanswer'
      obtain ⟨rfl, rfl⟩ := ih h' hrest hrest'
      exact ⟨rfl, rfl⟩

theorem runs_eval (f : ∀ q, A q) (p : Probe Q A α) : Runs p (eval f p).1 (eval f p).2 := by
  induction p with
  | done a => exact .done a
  | ask q next ih => exact .ask (f q) (ih (f q))

theorem answeredBy_eval (f : ∀ q, A q) (p : Probe Q A α) : AnsweredBy f (eval f p).1 := by
  induction p with
  | done a => simp [AnsweredBy, eval]
  | ask q next ih => exact List.forall_mem_cons.mpr ⟨rfl, ih (f q)⟩

end Runs

/-! ### Processes -/

/-- Calls of a process, each with an input and its part of the transcript, as long as the state is live. -/
inductive Steps (live : σ → Prop) (step : ι → σ → Probe Q A σ) : σ → List (ι × Transcript Q A) → σ → Prop
  | nil (s : σ) : Steps live step s [] s
  | cons {s m t : σ} {i : ι} {log : Transcript Q A} {calls : List (ι × Transcript Q A)} (hlive : live s)
      (h : Runs (step i s) log m) (hrest : Steps live step m calls t) : Steps live step s ((i, log) :: calls) t

/-- The whole transcript of the calls. -/
def transcript (calls : List (ι × Transcript Q A)) : Transcript Q A := calls.flatMap Prod.snd

@[simp] theorem transcript_nil : transcript ([] : List (ι × Transcript Q A)) = [] := rfl

@[simp] theorem transcript_cons (call : ι × Transcript Q A) (calls : List (ι × Transcript Q A)) :
    transcript (call :: calls) = call.2 ++ transcript calls := rfl

theorem transcript_append (calls calls' : List (ι × Transcript Q A)) :
    transcript (calls ++ calls') = transcript calls ++ transcript calls' := List.flatMap_append

section Steps
variable {live : σ → Prop} {step : ι → σ → Probe Q A σ} {s m t : σ} {calls calls' : List (ι × Transcript Q A)}

theorem Steps.append (h : Steps live step s calls m) (h' : Steps live step m calls' t) :
    Steps live step s (calls ++ calls') t := by
  induction h with
  | nil => exact h'
  | cons hlive h _ ih => exact .cons hlive h (ih h')

theorem Steps.of_append (h : Steps live step s (calls ++ calls') t) :
    ∃ m, Steps live step s calls m ∧ Steps live step m calls' t := by
  induction calls generalizing s with
  | nil => exact ⟨s, .nil s, h⟩
  | cons call calls ih =>
    cases h with
    | cons hlive h hrest =>
      obtain ⟨m, hcalls, hcalls'⟩ := ih hrest
      exact ⟨m, .cons hlive h hcalls, hcalls'⟩

/-- A state that is not live stays. -/
theorem Steps.eq_of_not_live (h : Steps live step s calls t) (hs : ¬live s) : t = s ∧ calls = [] := by
  cases h with
  | nil => exact ⟨rfl, rfl⟩
  | cons hlive => exact absurd hlive hs

/-- What every call keeps, along with the transcript so far, every run keeps. -/
theorem Steps.invariant {P : Transcript Q A → σ → Prop} (hstep : ∀ log s i log' m, P log s → live s →
    Runs (step i s) log' m → P (log ++ log') m) (h : Steps live step s calls t) (log : Transcript Q A) (hs : P log s) :
    P (log ++ transcript calls) t := by
  induction h generalizing log with
  | nil => simpa using hs
  | cons hlive h _ ih =>
    rw [transcript_cons, ← List.append_assoc]
    exact ih _ (hstep _ _ _ _ _ hs hlive h)

/-- What every call keeps, every run keeps. -/
theorem Steps.keeps {P : σ → Prop} (hstep : ∀ s i log m, P s → live s → Runs (step i s) log m → P m)
    (h : Steps live step s calls t) (hs : P s) : P t :=
  h.invariant (P := fun _ => P) (fun _ s i log m hs => hstep s i log m hs) [] hs

/-- A run that spends what it has: every call takes one from the budget of a state. -/
theorem Steps.length_le {P : σ → Prop} {C : ι → Prop} (budget : σ → ℕ) (hstep : ∀ s i log m, P s → C i → live s →
    Runs (step i s) log m → P m ∧ (live m → budget m < budget s)) (h : Steps live step s calls t) (hs : P s)
    (hcalls : ∀ call ∈ calls, C call.1) : calls.length ≤ budget s + 1 := by
  induction h with
  | nil => simp
  | @cons s m t i log calls hlive h hrest ih =>
    obtain ⟨hi, hcalls⟩ := List.forall_mem_cons.mp hcalls
    obtain ⟨hm, hless⟩ := hstep _ _ _ _ hs hi hlive h
    by_cases hlivem : live m
    · have hlength := ih hm hcalls
      have hlt := hless hlivem
      rw [List.length_cons]
      omega
    · rw [(hrest.eq_of_not_live hlivem).2]
      simp

/-- A process whose calls are made of the steps of another. -/
theorem Steps.refine {κ : Type} {tick : κ → σ → Probe Q A σ} {P : σ → Prop}
    (hstep : ∀ s i log m, P s → live s → Runs (step i s) log m →
      P m ∧ ∃ ticks, Steps live tick s ticks m ∧ transcript ticks = log)
    (h : Steps live step s calls t) (hs : P s) :
    ∃ ticks, Steps live tick s ticks t ∧ transcript ticks = transcript calls := by
  induction h with
  | nil s => exact ⟨[], .nil s, rfl⟩
  | cons hlive h _ ih =>
    obtain ⟨hm, ticks, hticks, hlog⟩ := hstep _ _ _ _ hs hlive h
    obtain ⟨rest, hrest, hlogs⟩ := ih hm
    exact ⟨ticks ++ rest, hticks.append hrest, by rw [transcript_append, transcript_cons, hlog, hlogs]⟩

/-- Without a choice of inputs, the answers determine where a process ends. -/
theorem Steps.unique {tick : Unit → σ → Probe Q A σ} {ticks ticks' : List (Unit × Transcript Q A)} {t' : σ}
    {f : ∀ q, A q} (h : Steps live tick s ticks t) (h' : Steps live tick s ticks' t') (ht : ¬live t) (ht' : ¬live t')
    (hf : AnsweredBy f (transcript ticks)) (hf' : AnsweredBy f (transcript ticks')) :
    transcript ticks = transcript ticks' ∧ t = t' := by
  induction h generalizing ticks' with
  | nil s =>
    obtain ⟨rfl, rfl⟩ := h'.eq_of_not_live ht
    exact ⟨rfl, rfl⟩
  | cons hlive h _ ih =>
    cases h' with
    | nil => exact absurd hlive ht'
    | cons _ h' hrest =>
      rw [transcript_cons, AnsweredBy.append] at hf hf'
      obtain ⟨rfl, rfl⟩ := h.unique h' hf.1 hf'.1
      obtain ⟨hlogs, rfl⟩ := ih hrest ht hf.2 hf'.2
      exact ⟨by rw [transcript_cons, transcript_cons, hlogs], rfl⟩

end Steps

/-- Calls with the answers of a function, as long as the state is live. -/
def exec (f : ∀ q, A q) (live : σ → Prop) [DecidablePred live] (step : ι → σ → Probe Q A σ) :
    List ι → σ → List (ι × Transcript Q A) × σ
  | [], s => ([], s)
  | i :: is, s =>
    if live s then
      let answered := eval f (step i s)
      let rest := exec f live step is answered.2
      ((i, answered.1) :: rest.1, rest.2)
    else ([], s)

section Exec
variable (f : ∀ q, A q) (live : σ → Prop) [DecidablePred live] (step : ι → σ → Probe Q A σ) (inputs : List ι) (s : σ)

theorem steps_exec : Steps live step s (exec f live step inputs s).1 (exec f live step inputs s).2 := by
  induction inputs generalizing s with
  | nil => exact .nil s
  | cons i inputs ih =>
    rw [exec]
    split_ifs with hlive
    · exact .cons hlive (runs_eval f _) (ih _)
    · exact .nil s

theorem answeredBy_exec : AnsweredBy f (transcript (exec f live step inputs s).1) := by
  induction inputs generalizing s with
  | nil => simp [AnsweredBy, exec]
  | cons i inputs ih =>
    rw [exec]
    split_ifs with hlive
    · exact AnsweredBy.append.mpr ⟨answeredBy_eval f _, ih _⟩
    · simp [AnsweredBy]

end Exec

end Probe

end Lib
