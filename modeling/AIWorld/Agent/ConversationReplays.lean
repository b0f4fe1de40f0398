import AIWorld.Agent.ConversationLimits

/-! Whether a line can be admitted twice. Its utterance is kept in the record of its conversation, which
lives for sixty seconds from when it was opened; the line itself is accepted for sixty seconds from its own
time. A line that is younger than the record outlives it, and can be admitted again once the record is gone. -/

namespace AIWorld.Agent

open Lib
open Lib.Json (ascii)

namespace NpcAgentConversationGuard

variable {s s' : NpcAgentConversationGuard} {speech : NpcAgentSpeech} {now now' : UInt64}
  {tr : List (Event NpcAgentConversationGuard GuardOp Bool)}

/-- When the record was opened that an admitted line is kept in. -/
def openedAt (e : Event NpcAgentConversationGuard GuardOp Bool) (speech : NpcAgentSpeech) (now : UInt64) : UInt64 :=
  (((e.pre.expire now).conversations[speech.conversationId]?).getD ⟨now, ∅⟩).startedAtMs

/-- A line is offered again although its record has had its sixty seconds, while the line itself is younger,
and its speaker has rested. -/
def Replays (e e' : Event NpcAgentConversationGuard GuardOp Bool) : Prop :=
  ∃ speech now now', Admits e speech now ∧ e'.input = .admitSpeech speech now' ∧
    (openedAt e speech now).toNat + 60000 ≤ now'.toNat ∧ now.toNat + 2000 ≤ now'.toNat ∧
    now'.toNat < speech.atMs.toNat + 60000

theorem acceptable_age (h : acceptable speech now = true) :
    speech.atMs ≤ now ∧ now.toNat < speech.atMs.toNat + 60000 := by
  simp only [acceptable, Bool.not_eq_true', Bool.or_eq_false_iff, decide_eq_false_iff_not, gt_iff_lt, ge_iff_le,
    UInt64.not_lt, UInt64.not_le] at h
  obtain ⟨⟨_, hle⟩, hage⟩ := h
  exact ⟨hle, (not_elapsed_iff hle).mp hage⟩

/-- Where an admitted line is kept. -/
theorem Admits.holds {e : Event NpcAgentConversationGuard GuardOp Bool} (h : Admits e speech now)
    (hstep : machine.IsStep e) : e.post.Holds speech.conversationId (openedAt e speech now) {speech.utteranceId} := by
  obtain ⟨_, _, hpost⟩ := h.cases hstep
  rw [hpost]
  exact .inr ⟨_, conversations_enter_self _ speech now, rfl, by simp⟩

/-- A line that is admitted again is a replay. -/
theorem admitted_again (hr : machine.Run s tr s') : tr.Pairwise fun e e' => ∀ speech now now',
    Admits e speech now → Admits e' speech now' → Replays e e' := by
  have hkept : tr.Pairwise fun e e' => ∀ speech now now', Admits e speech now → Admits e' speech now' →
      (openedAt e speech now).toNat + 60000 ≤ now'.toNat := by
    refine hr.pairwise (P := fun _ => True) (fun _ _ _ _ _ _ => trivial)
      (Q := fun e t => ∀ speech now, Admits e speech now →
        t.Holds speech.conversationId (openedAt e speech now) {speech.utteranceId}) ?_ ?_ ?_ trivial
    · intro e _ hstep speech now hadmits
      exact hadmits.holds hstep
    · intro e t i o t' _ hholds hstep speech now hadmits
      exact (hholds speech now hadmits).step hstep
    · intro e e' _ hstep hholds speech now now' hadmits hadmits'
      obtain ⟨hclock, hadmissible, _⟩ := hadmits'.cases hstep
      obtain hover | ⟨c, hc, _, hmem⟩ := (hholds speech now hadmits).swept (swept_expire e'.pre now')
      · rwa [lastObservedMs_expire hclock] at hover
      · exact absurd (Finset.singleton_subset_iff.mp hmem) (hadmissible.utterance c hc).2
  have hfresh : ∀ e ∈ tr, ∀ speech now, Admits e speech now → now.toNat < speech.atMs.toNat + 60000 := by
    intro e he speech now hadmits
    obtain ⟨_, _, _, _, hstep, _⟩ := hr.at_mem he
    exact (acceptable_age (hadmits.cases hstep).2.1.acceptable).2
  refine ((hkept.and (speakers_spaced hr)).imp_of_mem ?_)
  intro e e' _ he' ⟨hover, hspaced⟩ speech now now' hadmits hadmits'
  exact ⟨speech, now, now', hadmits, hadmits'.1, hover speech now now' hadmits hadmits',
    hspaced speech now speech now' hadmits hadmits' rfl, hfresh e' he' speech now' hadmits'⟩

/-- No line is admitted twice in a run that offers no replay. -/
theorem admitted_once (hr : machine.Run {} tr s) (hreplays : tr.Pairwise fun e e' => ¬Replays e e') :
    tr.Pairwise fun e e' => ∀ speech now now', Admits e speech now → ¬Admits e' speech now' :=
  ((admitted_again hr).and hreplays).imp fun ⟨hagain, hnot⟩ speech now now' hadmits hadmits' =>
    hnot (hagain speech now now' hadmits hadmits')

/-- The second line is younger than the record. Two seconds later the record is gone, and the line is offered
again. -/
def outlived : List GuardOp :=
  [.admitSpeech (line 1 1 10 1000) 1000, .admitSpeech (line 1 2 20 60000) 60000, .admitSpeech (line 1 2 20 60000) 62000]

theorem outlived_run : ∃ e₁ e₂ e₃ s, machine.Run {} [e₁, e₂, e₃] s ∧ Admits e₂ (line 1 2 20 60000) 60000 ∧
    Admits e₃ (line 1 2 20 60000) 62000 := by
  have h : (machine.exec {} outlived).map (fun p => p.1.map Event.output) = some [true, true, true] := by
    decide +kernel
  obtain ⟨⟨tr, s⟩, hexec, houtputs⟩ := Option.map_eq_some_iff.mp h
  have hrun := Machine.run_of_exec hexec
  have hinputs := Machine.inputs_of_exec hexec
  obtain ⟨e₁, e₂, e₃, rfl⟩ : ∃ e₁ e₂ e₃, tr = [e₁, e₂, e₃] :=
    List.length_eq_three.mp (by rw [← List.length_map (f := Event.input), hinputs]; rfl)
  simp only [outlived, List.map_cons, List.map_nil, List.cons.injEq] at hinputs houtputs
  exact ⟨e₁, e₂, e₃, s, hrun, ⟨hinputs.2.1, houtputs.2.1⟩, hinputs.2.2.1, houtputs.2.2.1⟩

/-- A line can be admitted twice. -/
theorem not_admitted_once : ¬∀ tr s, machine.Run {} tr s → tr.Pairwise fun e e' =>
    ∀ speech now now', Admits e speech now → ¬Admits e' speech now' := by
  intro hall
  obtain ⟨e₁, e₂, e₃, s, hrun, hsecond, hthird⟩ := outlived_run
  have hpairs := hall _ s hrun
  simp only [List.pairwise_cons, List.mem_cons, List.not_mem_nil, or_false, forall_eq] at hpairs
  exact hpairs.2.1 _ _ _ hsecond hthird

/-- The same line again, three seconds later. -/
def repeated : List GuardOp := [.admitSpeech (line 1 1 10 1000) 1000, .admitSpeech (line 1 1 10 1000) 4000]

theorem admitted_once_repeated : ∃ tr s, machine.Run {} tr s ∧ tr.map Event.output = [true, false] ∧
    tr.Pairwise fun e e' => ∀ speech now now', Admits e speech now → ¬Admits e' speech now' := by
  have h : (machine.exec {} repeated).map (fun p => p.1.map Event.output) = some [true, false] := by decide +kernel
  obtain ⟨⟨tr, s⟩, hexec, houtputs⟩ := Option.map_eq_some_iff.mp h
  have hrun := Machine.run_of_exec hexec
  have hinputs := Machine.inputs_of_exec hexec
  refine ⟨tr, s, hrun, houtputs, admitted_once hrun ?_⟩
  have hearly : ∀ e ∈ tr, ∀ speech now, e.input = .admitSpeech speech now → now.toNat < 60000 := by
    intro e he speech now hinput
    have hmem : e.input ∈ repeated := hinputs ▸ List.mem_map_of_mem he
    rw [hinput] at hmem
    simp only [repeated, List.mem_cons, List.not_mem_nil, or_false, GuardOp.admitSpeech.injEq] at hmem
    obtain ⟨-, rfl⟩ | ⟨-, rfl⟩ := hmem <;> decide
  refine List.pairwise_of_forall_mem_list ?_
  rintro e _ e' he' ⟨speech, now, now', _, hinput, hover, _⟩
  have hlt := hearly e' he' speech now' hinput
  omega

end NpcAgentConversationGuard

end AIWorld.Agent
