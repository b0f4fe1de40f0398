import AIWorld.Agent.NpcAgentDialogue
import AIWorld.Lib.Checked

/-! The limits that the guard keeps over a whole run, whatever the clock does. A record lives for sixty
seconds from the admission that opens it, and a cooldown row for two; the sweep that removes them and
the check of an admission use the same clock, which never goes back. -/

namespace AIWorld.Agent

open Lib
open Lib.Json (ascii)
open Std (ExtTreeMap)

namespace NpcAgentConversationGuard

variable {s s' : NpcAgentConversationGuard} {speech : NpcAgentSpeech} {now last : UInt64} {i : GuardOp} {o : Bool}
  {c : Conversation} {id : UInt64} {tr : List (Event NpcAgentConversationGuard GuardOp Bool)}

/-! ### Lifetimes -/

theorem isOver_iff : c.isOver now = true ↔ c.startedAtMs.toNat + 60000 ≤ now.toNat := by
  simp only [Conversation.isOver, Bool.and_eq_true, decide_eq_true_eq, ge_iff_le]
  exact elapsed_iff

theorem cooled_iff : cooled last now = true ↔ last.toNat + 2000 ≤ now.toNat := by
  simp only [cooled, Bool.and_eq_true, decide_eq_true_eq, ge_iff_le]
  exact elapsed_iff

/-! ### A sweep -/

/-- Nothing is added, and what is removed has had its time by the clock of the second state. -/
structure Swept (s s' : NpcAgentConversationGuard) : Prop where
  clock : s.lastObservedMs ≤ s'.lastObservedMs
  conversations : ∀ (id : UInt64) (c : Conversation), s'.conversations[id]? = some c → s.conversations[id]? = some c
  rows : ∀ (id last : UInt64), s'.lastNpcSpeech[id]? = some last → s.lastNpcSpeech[id]? = some last
  size_conversations : s'.conversations.size ≤ s.conversations.size
  size_rows : s'.lastNpcSpeech.size ≤ s.lastNpcSpeech.size
  lifetime : ∀ (id : UInt64) (c : Conversation), s.conversations[id]? = some c →
    s'.conversations[id]? = some c ∨ c.startedAtMs.toNat + 60000 ≤ s'.lastObservedMs.toNat
  cooldown : ∀ (id last : UInt64), s.lastNpcSpeech[id]? = some last →
    s'.lastNpcSpeech[id]? = some last ∨ last.toNat + 2000 ≤ s'.lastObservedMs.toNat

theorem Swept.refl (s : NpcAgentConversationGuard) : Swept s s :=
  ⟨UInt64.le_refl _, fun _ _ h => h, fun _ _ h => h, le_rfl, le_rfl, fun _ _ h => .inl h, fun _ _ h => .inl h⟩

theorem expire_of_lt (h : now < s.lastObservedMs) : s.expire now = s := if_pos h

theorem lastObservedMs_expire (h : s.lastObservedMs ≤ now) : (s.expire now).lastObservedMs = now := by
  rw [expire, if_neg (UInt64.not_lt.mpr h)]

theorem conversations_expire (h : s.lastObservedMs ≤ now) :
    (s.expire now).conversations[id]? = some c ↔
      s.conversations[id]? = some c ∧ now.toNat < c.startedAtMs.toNat + 60000 := by
  rw [expire, if_neg (UInt64.not_lt.mpr h), ExtTreeMap.getElem?_filter', Option.filter_eq_some_iff,
    Bool.not_eq_true', ← Bool.not_eq_true, isOver_iff, not_le]

theorem rows_expire (h : s.lastObservedMs ≤ now) :
    (s.expire now).lastNpcSpeech[id]? = some last ↔
      s.lastNpcSpeech[id]? = some last ∧ now.toNat < last.toNat + 2000 := by
  rw [expire, if_neg (UInt64.not_lt.mpr h), ExtTreeMap.getElem?_filter', Option.filter_eq_some_iff,
    Bool.not_eq_true', ← Bool.not_eq_true, cooled_iff, not_le]

theorem swept_expire (s : NpcAgentConversationGuard) (now : UInt64) : Swept s (s.expire now) := by
  by_cases hback : now < s.lastObservedMs
  · rw [expire_of_lt hback]
    exact Swept.refl s
  · have h : s.lastObservedMs ≤ now := UInt64.not_lt.mp hback
    have hclock := lastObservedMs_expire h
    refine ⟨by rwa [hclock], fun id c hc => ((conversations_expire h).mp hc).1,
      fun id last hlast => ((rows_expire h).mp hlast).1, ?_, ?_, fun id c hc => ?_, fun id last hlast => ?_⟩
    · rw [expire, if_neg hback]
      exact ExtTreeMap.size_filter_le_size
    · rw [expire, if_neg hback]
      exact ExtTreeMap.size_filter_le_size
    · rw [conversations_expire h, hclock, ← not_lt]
      tauto
    · rw [rows_expire h, hclock, ← not_lt]
      tauto

/-! ### An admission -/

/-- What an admission finds after the sweep. -/
structure Admissible (s : NpcAgentConversationGuard) (speech : NpcAgentSpeech) (now : UInt64) : Prop where
  acceptable : acceptable speech now = true
  utterance : ∀ c : Conversation, s.conversations[speech.conversationId]? = some c →
    c.utterances.card < 8 ∧ speech.utteranceId ∉ c.utterances
  room : s.conversations[speech.conversationId]? = none → s.conversations.size < 128
  cooldown : ∀ last : UInt64, s.lastNpcSpeech[speech.speaker]? = some last → last.toNat + 2000 ≤ now.toNat
  rows : s.lastNpcSpeech[speech.speaker]? = none → s.lastNpcSpeech.size < 1024

theorem admit_cases (h : s.admitSpeech speech now = (o, s')) :
    (o = false ∧ Swept s s') ∨ (o = true ∧ s.lastObservedMs ≤ now ∧ Admissible (s.expire now) speech now ∧
      s' = (s.expire now).enter speech now) := by
  unfold admitSpeech at h
  dsimp only at h
  split_ifs at h with hback hacceptable hutterance hroom hcooldown hrows
  · cases h
    exact .inl ⟨rfl, Swept.refl s⟩
  all_goals
    simp only [Prod.mk.injEq] at h
    obtain ⟨rfl, rfl⟩ := h
  iterate 5 exact .inl ⟨rfl, swept_expire s now⟩
  refine .inr ⟨rfl, UInt64.not_lt.mp hback, ⟨by simpa using hacceptable, fun c hc => ?_, fun hnone => ?_, fun last hlast => ?_,
    fun hnone => ?_⟩, rfl⟩
  · simpa [hc] using hutterance
  · simpa [hnone] using hroom
  · simp only [hlast, Option.any_some, Bool.or_eq_true, decide_eq_true_eq, not_or, UInt64.not_lt] at hcooldown
    exact elapsed_iff.mp hcooldown
  · simpa [hnone] using hrows

@[simp] theorem lastObservedMs_enter (s : NpcAgentConversationGuard) (speech : NpcAgentSpeech) (now : UInt64) :
    (s.enter speech now).lastObservedMs = s.lastObservedMs := rfl

theorem rows_enter (s : NpcAgentConversationGuard) (speech : NpcAgentSpeech) (now id : UInt64) :
    (s.enter speech now).lastNpcSpeech[id]? = if speech.speaker = id then some now else s.lastNpcSpeech[id]? :=
  OrdMap.getElem?_insert _ _ _ _

theorem conversations_enter_of_ne (s : NpcAgentConversationGuard) (h : speech.conversationId ≠ id) :
    (s.enter speech now).conversations[id]? = s.conversations[id]? :=
  OrdMap.getElem?_insert_ne _ _ h

/-- The record of the conversation after an utterance. -/
theorem conversations_enter_self (s : NpcAgentConversationGuard) (speech : NpcAgentSpeech) (now : UInt64) :
    (s.enter speech now).conversations[speech.conversationId]? =
      some { (s.conversations[speech.conversationId]?).getD ⟨now, ∅⟩ with
        utterances := insert speech.utteranceId ((s.conversations[speech.conversationId]?).getD ⟨now, ∅⟩).utterances } := by
  simp [enter]

/-- Every step sweeps, and an admission is entered after the sweep. -/
theorem step_cases (hstep : machine.step s i = some (o, s')) :
    (Swept s s' ∧ ∀ speech now, i = .admitSpeech speech now → o = false) ∨
    ∃ speech now, i = .admitSpeech speech now ∧ o = true ∧ s.lastObservedMs ≤ now ∧
      Admissible (s.expire now) speech now ∧ s' = (s.expire now).enter speech now := by
  cases i with
  | admitSpeech speech now =>
    obtain ⟨rfl, hswept⟩ | ⟨rfl, hclock, hadmissible, rfl⟩ := admit_cases (Option.some.inj hstep)
    · exact .inl ⟨hswept, fun _ _ _ => rfl⟩
    · exact .inr ⟨speech, now, rfl, rfl, hclock, hadmissible, rfl⟩
  | expire now =>
    cases hstep
    exact .inl ⟨swept_expire s now, by simp⟩

/-! ### The clock -/

/-- The event admits a line. -/
def Admits (e : Event NpcAgentConversationGuard GuardOp Bool) (speech : NpcAgentSpeech) (now : UInt64) : Prop :=
  e.input = .admitSpeech speech now ∧ e.output = true

theorem Admits.cases {e : Event NpcAgentConversationGuard GuardOp Bool} (h : Admits e speech now)
    (hstep : machine.IsStep e) : e.pre.lastObservedMs ≤ now ∧ Admissible (e.pre.expire now) speech now ∧
      e.post = (e.pre.expire now).enter speech now := by
  obtain ⟨hinput, houtput⟩ := h
  obtain ⟨_, hrefused⟩ | ⟨speech', now', hinput', _, hclock, hadmissible, hpost⟩ := step_cases hstep
  · simp [hrefused speech now hinput] at houtput
  · rw [hinput] at hinput'
    cases hinput'
    exact ⟨hclock, hadmissible, hpost⟩

theorem step_clock (hstep : machine.step s i = some (o, s')) : s.lastObservedMs ≤ s'.lastObservedMs := by
  obtain ⟨hswept, _⟩ | ⟨speech, now, rfl, rfl, hclock, _, rfl⟩ := step_cases hstep
  · exact hswept.clock
  · rwa [lastObservedMs_enter, lastObservedMs_expire hclock]

theorem Admits.clock {e : Event NpcAgentConversationGuard GuardOp Bool} (h : Admits e speech now)
    (hstep : machine.IsStep e) : e.pre.lastObservedMs ≤ now ∧ e.post.lastObservedMs = now := by
  obtain ⟨hclock, _, hpost⟩ := h.cases hstep
  exact ⟨hclock, by rw [hpost, lastObservedMs_enter, lastObservedMs_expire hclock]⟩

/-- Later admissions are not earlier. -/
theorem admissions_ordered (hr : machine.Run s tr s') : tr.Pairwise fun e e' =>
    ∀ speech now speech' now', Admits e speech now → Admits e' speech' now' → now ≤ now' := by
  refine hr.pairwise (P := fun _ => True) (fun _ _ _ _ _ _ => trivial)
    (Q := fun e t => ∀ speech now, Admits e speech now → now ≤ t.lastObservedMs) ?_ ?_ ?_ trivial
  · intro e _ hstep speech now hadmits
    exact (hadmits.clock hstep).2.ge
  · intro e t i o t' _ hle hstep speech now hadmits
    exact (hle speech now hadmits).trans (step_clock hstep)
  · intro e e' _ hstep hle speech now speech' now' hadmits hadmits'
    exact (hle speech now hadmits).trans (hadmits'.clock hstep).1

/-! ### Speakers -/

/-- The speaker has rested for two seconds since a time, or its row is at least as new. -/
def Rests (s : NpcAgentConversationGuard) (speaker now : UInt64) : Prop :=
  now.toNat + 2000 ≤ s.lastObservedMs.toNat ∨ ∃ last, s.lastNpcSpeech[speaker]? = some last ∧ now ≤ last

theorem Rests.swept {speaker : UInt64} (h : s.Rests speaker now) (hswept : Swept s s') : s'.Rests speaker now := by
  have hclock := UInt64.le_iff_toNat_le.mp hswept.clock
  obtain hover | ⟨last, hlast, hle⟩ := h
  · exact .inl (by omega)
  · obtain hkept | hover := hswept.cooldown speaker last hlast
    · exact .inr ⟨last, hkept, hle⟩
    · have hnat := UInt64.le_iff_toNat_le.mp hle
      exact .inl (by omega)

theorem Rests.step {speaker : UInt64} (h : s.Rests speaker now) (hstep : machine.step s i = some (o, s')) :
    s'.Rests speaker now := by
  obtain ⟨hswept, _⟩ | ⟨speech, now', rfl, rfl, hclock, hadmissible, rfl⟩ := step_cases hstep
  · exact h.swept hswept
  · have hexpired := h.swept (swept_expire s now')
    rw [Rests, lastObservedMs_enter, rows_enter]
    split_ifs with hspeaker
    · subst hspeaker
      obtain hover | ⟨last, hlast, hle⟩ := hexpired
      · exact .inl hover
      · have hspaced := hadmissible.cooldown last hlast
        have hnat := UInt64.le_iff_toNat_le.mp hle
        exact .inr ⟨now', rfl, UInt64.le_iff_toNat_le.mpr (by omega)⟩
    · exact hexpired

/-- A speaker is not admitted again within two seconds. -/
theorem speakers_spaced (hr : machine.Run s tr s') : tr.Pairwise fun e e' => ∀ speech now speech' now',
    Admits e speech now → Admits e' speech' now' → speech.speaker = speech'.speaker → now.toNat + 2000 ≤ now'.toNat := by
  refine hr.pairwise (P := fun _ => True) (fun _ _ _ _ _ _ => trivial)
    (Q := fun e t => ∀ speech now, Admits e speech now → t.Rests speech.speaker now) ?_ ?_ ?_ trivial
  · intro e _ hstep speech now hadmits
    obtain ⟨_, _, hpost⟩ := hadmits.cases hstep
    rw [hpost]
    exact .inr ⟨now, by rw [rows_enter, if_pos rfl], UInt64.le_refl _⟩
  · intro e t i o t' _ hrests hstep speech now hadmits
    exact (hrests speech now hadmits).step hstep
  · intro e e' _ hstep hrests speech now speech' now' hadmits hadmits' hspeaker
    obtain ⟨hclock, hadmissible, _⟩ := hadmits'.cases hstep
    obtain hover | ⟨last, hlast, hle⟩ := (hrests speech now hadmits).swept (swept_expire e'.pre now')
    · rwa [lastObservedMs_expire hclock] at hover
    · rw [hspeaker] at hlast
      have hspaced := hadmissible.cooldown last hlast
      have hnat := UInt64.le_iff_toNat_le.mp hle
      omega

/-! ### Conversations -/

/-- The record of a conversation that was opened at a time holds some utterances, or its lifetime is over. -/
def Holds (s : NpcAgentConversationGuard) (conversation start : UInt64) (ids : Finset UInt64) : Prop :=
  start.toNat + 60000 ≤ s.lastObservedMs.toNat ∨
    ∃ c, s.conversations[conversation]? = some c ∧ c.startedAtMs = start ∧ ids ⊆ c.utterances

section Holds
variable {conversation start : UInt64} {ids : Finset UInt64}

theorem Holds.swept (h : s.Holds conversation start ids) (hswept : Swept s s') : s'.Holds conversation start ids := by
  have hclock := UInt64.le_iff_toNat_le.mp hswept.clock
  obtain hover | ⟨c, hc, rfl, hids⟩ := h
  · exact .inl (by omega)
  · obtain hkept | hover := hswept.lifetime conversation c hc
    · exact .inr ⟨c, hkept, rfl, hids⟩
    · exact .inl hover

/-- While the record lives, an admitted utterance is a new one, and joins it. -/
theorem Holds.enter (h : s.Holds conversation start ids) (hadmissible : Admissible s speech now)
    (hid : speech.conversationId = conversation) (hlive : s.lastObservedMs.toNat < start.toNat + 60000) :
    speech.utteranceId ∉ ids ∧ ids.card < 8 ∧
      (s.enter speech now).Holds conversation start (insert speech.utteranceId ids) := by
  subst hid
  obtain hover | ⟨c, hc, hstart, hids⟩ := h
  · omega
  · obtain ⟨hcard, hfresh⟩ := hadmissible.utterance c hc
    refine ⟨fun hmem => hfresh (hids hmem), (Finset.card_le_card hids).trans_lt hcard, .inr ⟨_, conversations_enter_self s speech now, ?_⟩⟩
    rw [hc]
    exact ⟨hstart, Finset.insert_subset_insert _ hids⟩

theorem Holds.step (h : s.Holds conversation start ids) (hstep : machine.step s i = some (o, s')) :
    s'.Holds conversation start ids := by
  obtain ⟨hswept, _⟩ | ⟨speech, now', rfl, rfl, hclock, hadmissible, rfl⟩ := step_cases hstep
  · exact h.swept hswept
  · have hexpired := h.swept (swept_expire s now')
    by_cases hid : speech.conversationId = conversation
    · by_cases hlive : (s.expire now').lastObservedMs.toNat < start.toNat + 60000
      · obtain ⟨_, _, hover | ⟨c, hc, hstart, hids⟩⟩ := hexpired.enter hadmissible hid hlive
        · exact .inl hover
        · exact .inr ⟨c, hc, hstart, (Finset.subset_insert _ _).trans hids⟩
      · exact .inl (by rw [lastObservedMs_enter]; omega)
    · rw [Holds, lastObservedMs_enter, conversations_enter_of_ne _ hid]
      exact hexpired

end Holds

/-- The utterances of a conversation that are admitted within sixty seconds from a time. -/
def admitted (conversation start : UInt64) (tr : List (Event NpcAgentConversationGuard GuardOp Bool)) : List UInt64 :=
  tr.filterMap fun e =>
    match e.input with
    | .admitSpeech speech now =>
      if e.output && speech.conversationId = conversation && now.toNat < start.toNat + 60000 then some speech.utteranceId
      else none
    | .expire _ => none

theorem admitted_cons_of_admits {e : Event NpcAgentConversationGuard GuardOp Bool} {start : UInt64}
    (h : Admits e speech now) (hlive : now.toNat < start.toNat + 60000) :
    admitted speech.conversationId start (e :: tr) = speech.utteranceId :: admitted speech.conversationId start tr := by
  rw [admitted, List.filterMap_cons_some (b := speech.utteranceId)]
  · rfl
  · simp [h.1, h.2, hlive]

theorem admitted_cons (conversation start : UInt64) (e : Event NpcAgentConversationGuard GuardOp Bool)
    (tr : List (Event NpcAgentConversationGuard GuardOp Bool)) :
    admitted conversation start (e :: tr) = admitted conversation start tr ∨
      ∃ speech now, Admits e speech now ∧ speech.conversationId = conversation ∧ now.toNat < start.toNat + 60000 ∧
        admitted conversation start (e :: tr) = speech.utteranceId :: admitted conversation start tr := by
  obtain ⟨pre, input, output, post⟩ := e
  cases input with
  | expire now => exact .inl rfl
  | admitSpeech speech now =>
    by_cases h : output = true ∧ speech.conversationId = conversation ∧ now.toNat < start.toNat + 60000
    · obtain ⟨houtput, rfl, hlive⟩ := h
      have hadmits : Admits ⟨pre, .admitSpeech speech now, output, post⟩ speech now := ⟨rfl, houtput⟩
      exact .inr ⟨speech, now, hadmits, rfl, hlive, admitted_cons_of_admits hadmits hlive⟩
    · refine .inl (List.filterMap_cons_none ?_)
      simpa [and_assoc] using h

/-- From a record on, the utterances admitted in its lifetime are new to it and to each other, and few. -/
theorem admitted_run {conversation start : UInt64} {ids : Finset UInt64} (hr : machine.Run s tr s')
    (h : s.Holds conversation start ids) (hcard : ids.card ≤ 8) :
    (admitted conversation start tr).Nodup ∧ (∀ id ∈ admitted conversation start tr, id ∉ ids) ∧
      ids.card + (admitted conversation start tr).length ≤ 8 := by
  induction hr generalizing ids with
  | nil => exact ⟨List.nodup_nil, by simp [admitted], hcard⟩
  | @cons s m s' i o tr hstep _ ih =>
    obtain hnone | ⟨speech, now, hadmits, hid, hlive, hsome⟩ := admitted_cons conversation start ⟨s, i, o, m⟩ tr
    · rw [hnone]
      exact ih (h.step hstep) hcard
    · obtain ⟨hclock, hadmissible, hm⟩ := hadmits.cases hstep
      have hnow : (s.expire now).lastObservedMs.toNat < start.toNat + 60000 := by
        rwa [lastObservedMs_expire hclock]
      obtain ⟨hnew, hfew, hholds⟩ := (h.swept (swept_expire s now)).enter hadmissible hid hnow
      have hcard' := Finset.card_insert_of_notMem hnew
      obtain ⟨hnodup, hdisjoint, hlength⟩ := ih (hm ▸ hholds) (by omega)
      rw [hsome, List.length_cons]
      refine ⟨List.nodup_cons.mpr ⟨fun hmem => ?_, hnodup⟩, List.forall_mem_cons.mpr ⟨hnew, fun id hid' => ?_⟩, by omega⟩
      · exact hdisjoint _ hmem (Finset.mem_insert_self _ _)
      · exact fun hmem => hdisjoint id hid' (Finset.mem_insert_of_mem hmem)

/-! ### Capacity -/

def Bounded (s : NpcAgentConversationGuard) : Prop := s.conversations.size ≤ 128 ∧ s.lastNpcSpeech.size ≤ 1024

theorem Bounded.swept (h : s.Bounded) (hswept : Swept s s') : s'.Bounded :=
  ⟨hswept.size_conversations.trans h.1, hswept.size_rows.trans h.2⟩

theorem size_insert_le {β : Type} (m : ExtTreeMap UInt64 β) (k : UInt64) (v : β) {n : ℕ} (h : m.size ≤ n)
    (hroom : m[k]? = none → m.size < n) : (m.insert k v).size ≤ n := by
  rw [ExtTreeMap.size_insert]
  split_ifs with hmem
  · exact h
  · exact hroom (ExtTreeMap.getElem?_eq_none hmem)

theorem Bounded.step (h : s.Bounded) (hstep : machine.step s i = some (o, s')) : s'.Bounded := by
  obtain ⟨hswept, _⟩ | ⟨speech, now, rfl, rfl, hclock, hadmissible, rfl⟩ := step_cases hstep
  · exact h.swept hswept
  · obtain ⟨hconversations, hrows⟩ := h.swept (swept_expire s now)
    exact ⟨size_insert_le _ _ _ hconversations hadmissible.room, size_insert_le _ _ _ hrows hadmissible.rows⟩

/-! ### The limits -/

/-- The event admits a line whose conversation has no record. -/
def Opens (e : Event NpcAgentConversationGuard GuardOp Bool) (speech : NpcAgentSpeech) (now : UInt64) : Prop :=
  Admits e speech now ∧ (e.pre.expire now).conversations[speech.conversationId]? = none

theorem opens_admitted {e : Event NpcAgentConversationGuard GuardOp Bool} (hstep : machine.IsStep e)
    (hrun : machine.Run e.post tr s') (hopens : Opens e speech now) : (admitted speech.conversationId now (e :: tr)).Nodup ∧
      (admitted speech.conversationId now (e :: tr)).length ≤ 8 := by
  obtain ⟨hadmits, hnone⟩ := hopens
  obtain ⟨_, _, hpost⟩ := hadmits.cases hstep
  have hholds : Holds e.post speech.conversationId now {speech.utteranceId} := by
    rw [hpost]
    refine .inr ⟨_, conversations_enter_self _ speech now, ?_⟩
    rw [hnone]
    exact ⟨rfl, by simp⟩
  obtain ⟨hnodup, hnew, hlength⟩ := admitted_run hrun hholds (by simp)
  rw [Finset.card_singleton] at hlength
  rw [admitted_cons_of_admits hadmits (by omega), List.length_cons]
  exact ⟨List.nodup_cons.mpr ⟨fun hmem => hnew _ hmem (Finset.mem_singleton_self _), hnodup⟩, by omega⟩

/-- What the guard keeps under any calls and any clock. -/
theorem guard_limits (hr : machine.Run {} tr s) :
    (tr.Pairwise fun e e' => ∀ speech now speech' now', Admits e speech now → Admits e' speech' now' →
      now ≤ now' ∧ (speech.speaker = speech'.speaker → now.toNat + 2000 ≤ now'.toNat)) ∧
    (∀ tr₁ e tr₂ speech now, tr = tr₁ ++ e :: tr₂ → Opens e speech now →
      (admitted speech.conversationId now (e :: tr₂)).Nodup ∧
        (admitted speech.conversationId now (e :: tr₂)).length ≤ 8) ∧
    (s.conversations.size ≤ 128 ∧ s.lastNpcSpeech.size ≤ 1024) ∧
    ∀ e ∈ tr, ∀ speech now, e.input = .admitSpeech speech now → e.output = false → Swept e.pre e.post := by
  refine ⟨?_, ?_, ?_, ?_⟩
  · refine ((admissions_ordered hr).and (speakers_spaced hr)).imp fun ⟨hordered, hspaced⟩ speech now speech' now' h h' => ?_
    exact ⟨hordered speech now speech' now' h h', hspaced speech now speech' now' h h'⟩
  · rintro tr₁ e tr₂ speech now rfl hopens
    obtain ⟨_, hstep, hrun⟩ := hr.split_cons
    exact opens_admitted hstep hrun hopens
  · exact hr.invariant (fun _ _ _ _ h hstep => Bounded.step h hstep) ⟨by simp, by simp⟩
  · intro e he speech now hinput houtput
    obtain ⟨_, _, _, _, hstep, _⟩ := hr.at_mem he
    obtain ⟨hswept, _⟩ | ⟨_, _, _, ho, _⟩ := step_cases hstep
    · exact hswept
    · simp [houtput] at ho

def line (conversationId utteranceId speaker atMs : UInt64) : NpcAgentSpeech :=
  ⟨conversationId, utteranceId, speaker, ascii "NPC", ascii "Mira", ascii "Good day.", atMs, 0⟩

/-- Two speakers in a conversation, one of them too soon; then the clock goes back, and forth past the lifetime. -/
def exchange : List GuardOp :=
  [.admitSpeech (line 1 1 10 1000) 1000, .admitSpeech (line 1 2 20 1500) 1500, .admitSpeech (line 1 3 10 2000) 2000,
    .admitSpeech (line 1 3 10 1000) 1400, .expire 3000, .admitSpeech (line 1 3 10 3000) 3000, .expire 61000,
    .admitSpeech (line 1 4 10 61000) 61000]

theorem guard_limits_exchange : ∃ tr s, machine.Run {} tr s ∧
    tr.map Event.output = [true, true, false, false, true, true, true, true] ∧ s.conversations.size ≤ 128 := by
  have h : (machine.exec {} exchange).map (fun p => p.1.map Event.output) =
      some [true, true, false, false, true, true, true, true] := by decide +kernel
  obtain ⟨⟨tr, s⟩, hexec, houtputs⟩ := Option.map_eq_some_iff.mp h
  have hrun := Machine.run_of_exec hexec
  exact ⟨tr, s, hrun, houtputs, (guard_limits hrun).2.2.1.1⟩

end NpcAgentConversationGuard

end AIWorld.Agent
