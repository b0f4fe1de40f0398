import AIWorld.Agent.NpcAgentSpeechState
import AIWorld.Lib.Checked

/-! When public lines may follow other lines. A line that was sent keeps public lines away for sixty
seconds, and its own text for as long as it is in the list of sent lines. It leaves the list after two
minutes, or before when eight younger lines push it out, private replies among them. -/

namespace AIWorld.Agent

open Lib
open Lib.Json (Bytes ascii)
open Quest (ObjectGuid)

namespace NpcAgentSpeechState

variable {s s' : NpcAgentSpeechState} {turn : NpcAgentPendingTurn} {now : UInt64} {mode text : Bytes}
  {turnId : UInt64} {partner : ObjectGuid} {line : NpcAgentSpeech} {i : SpeechOp} {o : Bool}
  {tr : List (Event NpcAgentSpeechState SpeechOp Bool)}

/-! ### What calls leave alone -/

/-- Nothing was sent. -/
structure Silent (s s' : NpcAgentSpeechState) : Prop where
  recentAmbient : s'.recentAmbient = s.recentAmbient
  hasSpoken : s'.hasSpoken = s.hasSpoken
  lastSpeechAtMs : s'.lastSpeechAtMs = s.lastSpeechAtMs
  clock : s.observedAtMs ≤ s'.observedAtMs

theorem Silent.refl (s : NpcAgentSpeechState) : Silent s s := ⟨rfl, rfl, rfl, UInt64.le_refl _⟩

/-- At most the clock was moved. -/
def Looks (s s' : NpcAgentSpeechState) : Prop := ∃ at', s.observedAtMs ≤ at' ∧ s' = { s with observedAtMs := at' }

theorem Looks.refl (s : NpcAgentSpeechState) : Looks s s := ⟨s.observedAtMs, UInt64.le_refl _, rfl⟩

theorem Looks.silent (h : Looks s s') : Silent s s' := by
  obtain ⟨at', hle, rfl⟩ := h
  exact ⟨rfl, rfl, rfl, hle⟩

/-! ### Public lines -/

/-- The pause after the last line is over, and the text is not one of the lines that are held. -/
structure Ambient (s : NpcAgentSpeechState) (now : UInt64) (text : Bytes) : Prop where
  pause : s.hasSpoken = true → 60000 ≤ now - s.lastSpeechAtMs
  fresh : text ≠ [] → ∀ sent ∈ s.recentAmbient, sent.text = normalizeNpcAgentSpeech text → sent.atMs ≤ now →
    120000 ≤ now - sent.atMs

theorem observe_cases (h : s.observe now = (o, s')) :
    (o = false ∧ s' = s) ∨ (o = true ∧ s.observedAtMs ≤ now ∧ s' = { s with observedAtMs := now }) := by
  unfold observe at h
  split_ifs at h with hback
  · cases h
    exact .inl ⟨rfl, rfl⟩
  · cases h
    exact .inr ⟨rfl, UInt64.not_lt.mp hback, rfl⟩

theorem canAmbient_cases (h : s.canAmbient now text = (o, s')) :
    (o = false ∧ Looks s s') ∨
      (o = true ∧ s.observedAtMs ≤ now ∧ s' = { s with observedAtMs := now } ∧ Ambient s now text) := by
  unfold canAmbient at h
  rcases hobserve : s.observe now with ⟨seen, t⟩
  rw [hobserve] at h
  obtain ⟨rfl, rfl⟩ | ⟨rfl, hclock, rfl⟩ := observe_cases hobserve
  · cases h
    exact .inl ⟨rfl, Looks.refl _⟩
  · have hlooks : Looks s { s with observedAtMs := now } := ⟨now, hclock, rfl⟩
    simp only [Bool.not_true, Bool.false_or] at h
    split_ifs at h with hpause htext hnormal
    · cases h
      exact .inl ⟨rfl, hlooks⟩
    · cases h
      refine .inr ⟨rfl, hclock, rfl, fun hspoken => ?_, fun hne => absurd (List.isEmpty_iff.mp htext) hne⟩
      simpa [hspoken] using hpause
    · cases h
      exact .inl ⟨rfl, hlooks⟩
    · simp only [Prod.mk.injEq, Bool.not_eq_eq_eq_not] at h
      obtain ⟨hheld, rfl⟩ := h
      cases o with
      | false => exact .inl ⟨rfl, hlooks⟩
      | true =>
        refine .inr ⟨rfl, hclock, rfl, fun hspoken => ?_, fun _ sent hsent hsame hle => ?_⟩
        · simpa [hspoken] using hpause
        · simp only [Bool.not_true, List.any_eq_false, Bool.and_eq_true, decide_eq_true_eq, not_and] at hheld
          exact UInt64.not_lt.mp fun hlt => hheld sent hsent ⟨hle, hlt⟩ hsame

/-- A valid text is one that shows something. -/
theorem ne_nil_of_valid (h : validateNpcAgentSpeechText text = true) : text ≠ [] := by
  obtain ⟨scalars, hplain⟩ := validateNpcAgentPlainText_iff.mp h
  exact hplain.ne_nil

theorem canAmbient_observed (h : s.observedAtMs ≤ now)
    (hambient : ({ s with observedAtMs := now } : NpcAgentSpeechState).canAmbient now text = (o, s')) :
    (o = false ∧ Looks s s') ∨ (o = true ∧ s' = { s with observedAtMs := now } ∧ Ambient s now text) := by
  obtain ⟨rfl, at', hle, rfl⟩ | ⟨rfl, _, rfl, hpause, hfresh⟩ := canAmbient_cases hambient
  · exact .inl ⟨rfl, at', UInt64.le_trans h hle, rfl⟩
  · exact .inr ⟨rfl, rfl, hpause, hfresh⟩

/-- What may be sent, and under which conditions a public line is. -/
theorem canSend_cases (h : s.canSend mode turnId partner text now = (o, s')) :
    (o = false ∧ Looks s s') ∨ (o = true ∧ s.observedAtMs ≤ now ∧ s' = { s with observedAtMs := now } ∧
      (mode ≠ ascii "PLAYER_REPLY" → text ≠ [] ∧ Ambient s now text)) := by
  unfold canSend at h
  rcases hobserve : s.observe now with ⟨seen, t⟩
  rw [hobserve] at h
  obtain ⟨rfl, rfl⟩ | ⟨rfl, hclock, rfl⟩ := observe_cases hobserve
  · cases h
    exact .inl ⟨rfl, Looks.refl _⟩
  · have hlooks : Looks s { s with observedAtMs := now } := ⟨now, hclock, rfl⟩
    simp only [Bool.not_true, Bool.false_or, Bool.not_eq_true'] at h
    split_ifs at h with hvalid hplayer hnpc hturn hinitiate
    · cases h
      exact .inl ⟨rfl, hlooks⟩
    · simp only [Prod.mk.injEq] at h
      obtain ⟨rfl, rfl⟩ := h
      cases hmatches : NpcAgentPendingTurn.matches s.playerTurn turnId partner now 60000 with
      | false => exact .inl ⟨rfl, hlooks⟩
      | true => exact .inr ⟨rfl, hclock, rfl, fun hne => absurd hplayer hne⟩
    all_goals first
      | (cases h; exact .inl ⟨rfl, hlooks⟩)
      | skip
    all_goals
      have hne : text ≠ [] := ne_nil_of_valid (by simpa using hvalid)
      obtain ⟨rfl, hlooks'⟩ | ⟨rfl, rfl, hambient⟩ := canAmbient_observed hclock h
      · exact .inl ⟨rfl, hlooks'⟩
      · exact .inr ⟨rfl, hclock, rfl, fun _ => ⟨hne, hambient⟩⟩

/-! ### Steps -/

/-- A line was sent. -/
structure Committed (s s' : NpcAgentSpeechState) (mode : Bytes) (line : NpcAgentSpeech) (now : UInt64) : Prop where
  clock : s.observedAtMs ≤ now
  observedAtMs : s'.observedAtMs = now
  recentAmbient : s'.recentAmbient = forget s.recentAmbient now ++ [⟨normalizeNpcAgentSpeech line.text, now⟩]
  hasSpoken : s'.hasSpoken = true
  lastSpeechAtMs : s'.lastSpeechAtMs = now
  ambient : mode ≠ ascii "PLAYER_REPLY" → line.text ≠ [] ∧ Ambient s now line.text

theorem commitSent_cases (h : s.commitSent mode turnId partner line now = (o, s')) :
    (o = false ∧ Looks s s') ∨ (o = true ∧ (s.canSend mode turnId partner line.text now).1 = true ∧
      Committed s s' mode line now) := by
  unfold commitSent at h
  rcases hsend : s.canSend mode turnId partner line.text now with ⟨sendable, t⟩
  rw [hsend] at h
  obtain ⟨rfl, hlooks⟩ | ⟨rfl, hclock, rfl, hambient⟩ := canSend_cases hsend
  · cases h
    exact .inl ⟨rfl, hlooks⟩
  · simp only [Bool.not_true, Bool.false_eq_true, if_false, Prod.mk.injEq] at h
    obtain ⟨rfl, rfl⟩ := h
    have hframe : (answer { s with observedAtMs := now } mode partner line now).recentAmbient = s.recentAmbient ∧
        (answer { s with observedAtMs := now } mode partner line now).observedAtMs = now := by
      unfold answer
      split_ifs <;> exact ⟨rfl, rfl⟩
    exact .inr ⟨rfl, rfl, hclock, hframe.2, by rw [hframe.1], rfl, rfl, hambient⟩

theorem canAmbient_looks (h : s.canAmbient now text = (o, s')) : Looks s s' := by
  obtain ⟨_, hlooks⟩ | ⟨_, hclock, rfl, _⟩ := canAmbient_cases h
  · exact hlooks
  · exact ⟨now, hclock, rfl⟩

theorem canSend_looks (h : s.canSend mode turnId partner text now = (o, s')) : Looks s s' := by
  obtain ⟨_, hlooks⟩ | ⟨_, hclock, rfl, _⟩ := canSend_cases h
  · exact hlooks
  · exact ⟨now, hclock, rfl⟩

theorem pinPlayer_silent (h : s.pinPlayer turn = (o, s')) : Silent s s' := by
  unfold pinPlayer at h
  split_ifs at h
  · cases h
    exact Silent.refl s
  · cases h
    exact Silent.refl s
  · dsimp only at h
    split at h
    · cases h
      exact ⟨rfl, rfl, rfl, UInt64.le_refl _⟩
    · split_ifs at h <;> cases h <;> exact ⟨rfl, rfl, rfl, UInt64.le_refl _⟩

theorem pinNpc_silent (h : s.pinNpc turn now = (o, s')) : Silent s s' := by
  unfold pinNpc at h
  rcases hambient : s.canAmbient now [] with ⟨ambient, t⟩
  have hsilent := (canAmbient_looks hambient).silent
  simp only [hambient] at h
  split_ifs at h <;> cases h
  · exact Silent.refl s
  · exact hsilent
  · exact ⟨hsilent.1, hsilent.2, hsilent.3, hsilent.4⟩

theorem expire_silent {playerConnected : Bool} (h : s.expire now playerConnected = (o, s')) : Silent s s' := by
  unfold expire at h
  rcases hobserve : s.observe now with ⟨seen, t⟩
  rw [hobserve] at h
  obtain ⟨rfl, rfl⟩ | ⟨rfl, hclock, rfl⟩ := observe_cases hobserve
  · cases h
    exact Silent.refl _
  · cases h
    exact ⟨rfl, rfl, rfl, hclock⟩

theorem canInitiate_silent {scene : UInt64} {audience : Bool} (h : s.canInitiate scene audience now = (o, s')) :
    Silent s s' := by
  unfold canInitiate at h
  rcases hambient : s.canAmbient now [] with ⟨ambient, t⟩
  simp only [hambient] at h
  split_ifs at h <;> cases h
  · exact (canAmbient_looks hambient).silent
  · exact Silent.refl s

/-- The event sends a line. -/
def Commits (e : Event NpcAgentSpeechState SpeechOp Bool) (mode : Bytes) (line : NpcAgentSpeech) (now : UInt64) : Prop :=
  (∃ turnId partner, e.input = .commitSent mode turnId partner line now) ∧ e.output = true

/-- Only a line that is sent changes what later lines are compared with. -/
theorem step_cases (hstep : machine.step s i = some (o, s')) :
    (Silent s s' ∧ ∀ mode turnId partner line now, i = .commitSent mode turnId partner line now → o = false) ∨
    ∃ mode turnId partner line now, i = .commitSent mode turnId partner line now ∧ o = true ∧
      (s.canSend mode turnId partner line.text now).1 = true ∧ Committed s s' mode line now := by
  cases i with
  | pinPlayer turn => exact .inl ⟨pinPlayer_silent (Option.some.inj hstep), by simp⟩
  | pinNpc turn now => exact .inl ⟨pinNpc_silent (Option.some.inj hstep), by simp⟩
  | expire now playerConnected => exact .inl ⟨expire_silent (Option.some.inj hstep), by simp⟩
  | canAmbient now text => exact .inl ⟨(canAmbient_looks (Option.some.inj hstep)).silent, by simp⟩
  | canSend mode turnId partner text now => exact .inl ⟨(canSend_looks (Option.some.inj hstep)).silent, by simp⟩
  | canInitiate scene audience now => exact .inl ⟨canInitiate_silent (Option.some.inj hstep), by simp⟩
  | submittedInitiation scene =>
    cases hstep
    exact .inl ⟨⟨rfl, rfl, rfl, UInt64.le_refl _⟩, by simp⟩
  | commitSent mode turnId partner line now =>
    obtain ⟨rfl, hlooks⟩ | ⟨rfl, hsend, hcommitted⟩ := commitSent_cases (Option.some.inj hstep)
    · exact .inl ⟨hlooks.silent, fun _ _ _ _ _ _ => rfl⟩
    · exact .inr ⟨mode, turnId, partner, line, now, rfl, rfl, hsend, hcommitted⟩

theorem Commits.committed {e : Event NpcAgentSpeechState SpeechOp Bool} (h : Commits e mode line now)
    (hstep : machine.IsStep e) : Committed e.pre e.post mode line now := by
  obtain ⟨⟨turnId, partner, hinput⟩, houtput⟩ := h
  obtain ⟨_, hfalse⟩ | ⟨mode', turnId', partner', line', now', hinput', _, _, hcommitted⟩ := step_cases hstep
  · simp [hfalse mode turnId partner line now hinput] at houtput
  · rw [hinput] at hinput'
    cases hinput'
    exact hcommitted

/-! ### The pause -/

/-- A line was sent, and not before some time. -/
structure Spoken (s : NpcAgentSpeechState) (now : UInt64) : Prop where
  hasSpoken : s.hasSpoken = true
  lastSpeech : now ≤ s.lastSpeechAtMs
  observed : s.lastSpeechAtMs ≤ s.observedAtMs

theorem Spoken.step (h : Spoken s now) (hstep : machine.step s i = some (o, s')) : Spoken s' now := by
  obtain ⟨hsilent, _⟩ | ⟨_, _, _, _, now', _, _, _, hcommitted⟩ := step_cases hstep
  · exact ⟨hsilent.hasSpoken.trans h.hasSpoken, by rw [hsilent.lastSpeechAtMs]; exact h.lastSpeech,
      by rw [hsilent.lastSpeechAtMs]; exact UInt64.le_trans h.observed hsilent.clock⟩
  · refine ⟨hcommitted.hasSpoken, ?_, ?_⟩
    · rw [hcommitted.lastSpeechAtMs]
      exact UInt64.le_trans h.lastSpeech (UInt64.le_trans h.observed hcommitted.clock)
    · exact (hcommitted.lastSpeechAtMs.trans hcommitted.observedAtMs.symm).le

/-- A public line comes sixty seconds after every line before it. -/
theorem public_spaced (hr : machine.Run s tr s') : tr.Pairwise fun e e' => ∀ mode line now mode' line' now',
    Commits e mode line now → Commits e' mode' line' now' → mode' ≠ ascii "PLAYER_REPLY" →
      now.toNat + 60000 ≤ now'.toNat := by
  refine hr.pairwise (P := fun _ => True) (fun _ _ _ _ _ _ => trivial)
    (Q := fun e t => ∀ mode line now, Commits e mode line now → Spoken t now) ?_ ?_ ?_ trivial
  · intro e _ hstep mode line now hcommits
    have hcommitted := hcommits.committed hstep
    exact ⟨hcommitted.hasSpoken, hcommitted.lastSpeechAtMs.ge,
      (hcommitted.lastSpeechAtMs.trans hcommitted.observedAtMs.symm).le⟩
  · intro e t i o t' _ hspoken hstep mode line now hcommits
    exact (hspoken mode line now hcommits).step hstep
  · intro e e' _ hstep hspoken mode line now mode' line' now' hcommits hcommits' hpublic
    obtain ⟨hhas, hlast, hobserved⟩ := hspoken mode line now hcommits
    have hcommitted := hcommits'.committed hstep
    obtain ⟨_, hpause, _⟩ := hcommitted.ambient hpublic
    have helapsed := elapsed_iff.mp ⟨UInt64.le_trans hobserved hcommitted.clock, hpause hhas⟩
    have hnat := UInt64.le_iff_toNat_le.mp hlast
    change _ + 60000 ≤ _ at helapsed
    omega

/-! ### Repetitions -/

/-- A line that is sent finds room among the lines of the last two minutes. -/
def Roomy (e : Event NpcAgentSpeechState SpeechOp Bool) : Prop :=
  ∀ mode turnId partner line now, e.input = .commitSent mode turnId partner line now →
    (e.pre.canSend mode turnId partner line.text now).1 = true →
      (e.pre.recentAmbient.dropWhile fun sent => now - sent.atMs ≥ 120000).length < 8

/-- A sent line is in the list, or two minutes have passed. -/
structure Kept (s : NpcAgentSpeechState) (sent : SentLine) : Prop where
  observed : sent.atMs ≤ s.observedAtMs
  kept : sent.atMs.toNat + 120000 ≤ s.observedAtMs.toNat ∨ sent ∈ s.recentAmbient

theorem mem_forget {recent : List SentLine} {sent : SentLine} (hsent : sent ∈ recent) (hle : sent.atMs ≤ now)
    (hroom : (recent.dropWhile fun sent => now - sent.atMs ≥ 120000).length < 8) :
    sent.atMs.toNat + 120000 ≤ now.toNat ∨ sent ∈ forget recent now := by
  rw [← recent.takeWhile_append_dropWhile (p := fun sent => now - sent.atMs ≥ 120000), List.mem_append] at hsent
  obtain hdropped | hkept := hsent
  · have hold := List.mem_takeWhile_imp hdropped
    have helapsed : sent.atMs.toNat + (120000 : UInt64).toNat ≤ now.toNat :=
      elapsed_iff.mp ⟨hle, by simpa using hold⟩
    exact .inl helapsed
  · refine .inr ?_
    unfold forget
    rw [if_neg (by omega)]
    exact hkept

theorem Kept.step {sent : SentLine} (h : Kept s sent) (hstep : machine.step s i = some (o, s'))
    (hroomy : Roomy ⟨s, i, o, s'⟩) : Kept s' sent := by
  obtain ⟨hsilent, _⟩ | ⟨mode, turnId, partner, line, now, rfl, _, hsend, hcommitted⟩ := step_cases hstep
  · have hclock := UInt64.le_iff_toNat_le.mp hsilent.clock
    refine ⟨UInt64.le_trans h.observed hsilent.clock, ?_⟩
    rw [hsilent.recentAmbient]
    exact h.kept.imp_left fun hold => by omega
  · have hclock := UInt64.le_iff_toNat_le.mp hcommitted.clock
    have hle := UInt64.le_trans h.observed hcommitted.clock
    refine ⟨by rwa [hcommitted.observedAtMs], ?_⟩
    rw [hcommitted.observedAtMs, hcommitted.recentAmbient]
    obtain hold | hmem := h.kept
    · exact .inl (by omega)
    · refine (mem_forget hmem hle (hroomy mode turnId partner line now rfl hsend)).imp_right fun hforget => ?_
      exact List.mem_append_left _ hforget

/-- A public line repeats no line of the last two minutes. -/
theorem public_fresh (hr : machine.Run s tr s') (hroomy : ∀ e ∈ tr, Roomy e) : tr.Pairwise fun e e' =>
    ∀ mode line now mode' line' now', Commits e mode line now → Commits e' mode' line' now' →
      mode' ≠ ascii "PLAYER_REPLY" → normalizeNpcAgentSpeech line.text = normalizeNpcAgentSpeech line'.text →
        now.toNat + 120000 ≤ now'.toNat := by
  refine hr.pairwise_of_forall (C := Roomy)
    (Q := fun e t => ∀ mode line now, Commits e mode line now → Kept t ⟨normalizeNpcAgentSpeech line.text, now⟩)
    ?_ ?_ ?_ hroomy
  · intro e _ hstep mode line now hcommits
    have hcommitted := hcommits.committed hstep
    exact ⟨hcommitted.observedAtMs.ge, .inr (by rw [hcommitted.recentAmbient]; simp)⟩
  · intro e t i o t' hkept hroom hstep mode line now hcommits
    exact (hkept mode line now hcommits).step hstep hroom
  · intro e e' _ hstep hkept mode line now mode' line' now' hcommits hcommits' hpublic hsame
    obtain ⟨hobserved, hold | hmem⟩ := hkept mode line now hcommits
    · have hclock := UInt64.le_iff_toNat_le.mp (hcommits'.committed hstep).clock
      exact hold.trans hclock
    · have hcommitted := hcommits'.committed hstep
      obtain ⟨hne, _, hfresh⟩ := hcommitted.ambient hpublic
      have hle := UInt64.le_trans hobserved hcommitted.clock
      have helapsed := elapsed_iff.mp ⟨hle, hfresh hne _ hmem hsame hle⟩
      exact helapsed

/-! ### A failed pin -/

theorem find?_partner_append {l : List PrivateConversation} {c : PrivateConversation}
    (hl : (l.any fun c => c.partner = partner) = false) (hc : c.partner = partner) :
    (l ++ [c]).find? (fun c => c.partner = partner) = some c := by
  rw [List.find?_append, List.find?_eq_none.mpr (by simpa [List.any_eq_false] using hl)]
  simp [hc]

theorem any_eraseSilent {l : List PrivateConversation} (hl : (l.any fun c => c.partner = partner) = false) :
    ((eraseSilent l).any fun c => c.partner = partner) = false := by
  unfold eraseSilent
  split
  · exact hl
  · rw [List.any_eq_false] at hl ⊢
    exact fun c hc => hl c (List.mem_of_mem_eraseP hc)

/-- The partner's conversation is an old one, and nothing was changed, or a new one without lines. -/
theorem find?_withPartner (conversations : List PrivateConversation) (turn : NpcAgentPendingTurn) :
    ∃ c, (withPartner conversations turn).find? (fun c => c.partner = turn.partner) = some c ∧
      (withPartner conversations turn = conversations ∨ c.history = []) := by
  unfold withPartner
  split_ifs with hknown hfull
  · obtain ⟨c, hc, hpartner⟩ := List.any_eq_true.mp hknown
    have hsome : (conversations.find? fun c => c.partner = turn.partner).isSome = true :=
      List.find?_isSome.mpr ⟨c, hc, hpartner⟩
    obtain ⟨c', hc'⟩ := Option.isSome_iff_exists.mp hsome
    exact ⟨c', hc', .inl rfl⟩
  · exact ⟨_, find?_partner_append (any_eraseSilent (by simpa using hknown)) rfl, .inr rfl⟩
  · exact ⟨_, find?_partner_append (by simpa using hknown) rfl, .inr rfl⟩

/-- The line of a valid turn is a valid line. -/
theorem valid_line (h : turn.valid = true) : validateNpcAgentSpeech turn.line = true := by
  simp only [NpcAgentPendingTurn.valid, Bool.and_eq_true, decide_eq_true_eq, ne_eq] at h
  obtain ⟨⟨⟨hid, _⟩, hname⟩, htext⟩ := h
  simp [validateNpcAgentSpeech, NpcAgentPendingTurn.line, hid, hname, htext]

/-- A turn that is not pinned leaves everything as it was: a new history takes every valid line. -/
theorem pinPlayer_false (h : s.pinPlayer turn = (false, s')) : s' = s := by
  unfold pinPlayer at h
  split_ifs at h with hinvalid hpinned
  · cases h
    rfl
  · cases h
    rfl
  · obtain ⟨c, hfind, hsame⟩ := find?_withPartner s.conversations turn
    rcases hremember : c.history.remember turn.line with ⟨remembered, history⟩
    simp only [hfind, hremember] at h
    cases remembered with
    | true => cases h
    | false =>
      cases h
      obtain hsame | hnew := hsame
      · rw [hsame]
      · have hvalid : turn.valid = true := by
          by_contra hnot
          simp [hnot] at hinvalid
        have htrue := NpcAgentDialogueHistory.remember_nil (valid_line hvalid)
        rw [← hnew, hremember] at htrue
        contradiction

/-! ### Repetition windows -/

/-- Public lines keep their distances whatever the clock does, and a failed pin changes nothing. The distance
to a line of the same text needs that no line is pushed out of the list before its two minutes are over. -/
theorem speech_windows (hr : machine.Run {} tr s) :
    ((∀ e ∈ tr, Roomy e) → tr.Pairwise fun e e' => ∀ mode line now mode' line' now',
      Commits e mode line now → Commits e' mode' line' now' → mode' ≠ ascii "PLAYER_REPLY" →
        normalizeNpcAgentSpeech line.text = normalizeNpcAgentSpeech line'.text → now.toNat + 120000 ≤ now'.toNat) ∧
    (tr.Pairwise fun e e' => ∀ mode line now mode' line' now', Commits e mode line now →
      Commits e' mode' line' now' → mode' ≠ ascii "PLAYER_REPLY" → now.toNat + 60000 ≤ now'.toNat) ∧
    ∀ e ∈ tr, ∀ turn, e.input = .pinPlayer turn → e.output = false → e.post = e.pre := by
  refine ⟨public_fresh hr, public_spaced hr, fun e he turn hinput houtput => ?_⟩
  obtain ⟨_, _, _, _, hstep, _⟩ := hr.at_mem he
  have hpin : machine.step e.pre (.pinPlayer turn) = some (false, e.post) := by
    rw [← hinput, ← houtput]
    exact hstep
  exact pinPlayer_false (Option.some.inj hpin)

def spoken (id : UInt64) (text : Bytes) (at' : UInt64) : NpcAgentSpeech :=
  ⟨id, id, 7, ascii "NPC", ascii "Mira", text, at', 1⟩

/-- A player asks, and gets its answer half a second later. -/
def asked (id at' : UInt64) : List SpeechOp :=
  [.pinPlayer ⟨id, ⟨5⟩, ascii "Ada", ascii "Who are you?", at'⟩,
    .commitSent (ascii "PLAYER_REPLY") id ⟨5⟩ (spoken id (ascii "I am Mira.") (at' + 500)) (at' + 500)]

/-- A public line, eight private replies, and the line again. -/
def pushedOut : List SpeechOp :=
  .commitSent (ascii "INITIATE") 0 {} (spoken 100 (ascii "Good day.") 1000) 1000 ::
    ((List.range 8).flatMap fun k => asked (k + 1).toUInt64 (2000 + 1000 * k.toUInt64)) ++
    [.commitSent (ascii "INITIATE") 0 {} (spoken 101 (ascii "Good day!") 75000) 75000]

theorem pushedOut_run : ∃ tr s, machine.Run {} tr s ∧ tr.map Event.input = pushedOut ∧
    ∀ e ∈ tr, e.output = true := by
  have h : (machine.exec {} pushedOut).map (fun p => p.1.all Event.output) = some true := by decide +kernel
  obtain ⟨⟨tr, s⟩, hexec, houtputs⟩ := Option.map_eq_some_iff.mp h
  exact ⟨tr, s, Machine.run_of_exec hexec, Machine.inputs_of_exec hexec, List.all_eq_true.mp houtputs⟩

/-- Private replies can push a line out of the list, and it is repeated within two minutes. -/
theorem not_public_fresh : ¬∀ tr s, machine.Run {} tr s →
    (tr.filterMap fun e => e.input.now).Pairwise (· ≤ ·) → tr.Pairwise fun e e' =>
      ∀ mode line now mode' line' now', Commits e mode line now → Commits e' mode' line' now' →
        mode' ≠ ascii "PLAYER_REPLY" → normalizeNpcAgentSpeech line.text = normalizeNpcAgentSpeech line'.text →
          now.toNat + 120000 ≤ now'.toNat := by
  intro hall
  obtain ⟨tr, s, hrun, hinputs, houtputs⟩ := pushedOut_run
  have hclock : (tr.filterMap fun e => e.input.now).Pairwise (· ≤ ·) := by
    have hmap : (tr.filterMap fun e => e.input.now) = pushedOut.filterMap SpeechOp.now := by
      rw [← hinputs, List.filterMap_map]
      rfl
    rw [hmap]
    decide +kernel
  have hpairs := hall tr s hrun hclock
  obtain ⟨tr₁, tr₂, rfl, hfront, hback⟩ := List.map_eq_append_iff.mp hinputs
  obtain ⟨e, _, rfl, hfirst, _⟩ := List.map_eq_cons_iff.mp hfront
  obtain ⟨e', _, rfl, hlast, _⟩ := List.map_eq_cons_iff.mp hback
  have he : Commits e _ _ _ := ⟨⟨_, _, hfirst⟩, houtputs e (by simp)⟩
  have he' : Commits e' _ _ _ := ⟨⟨_, _, hlast⟩, houtputs e' (by simp)⟩
  have hwindow := (List.pairwise_append.mp hpairs).2.2 e List.mem_cons_self e' List.mem_cons_self
    _ _ _ _ _ _ he he' (by decide) (by decide +kernel)
  revert hwindow
  decide

/-- The line is offered again too soon, and once more after its two minutes. -/
def waited : List SpeechOp :=
  .commitSent (ascii "INITIATE") 0 {} (spoken 100 (ascii "Good day.") 1000) 1000 :: asked 1 2000 ++
    [.commitSent (ascii "INITIATE") 0 {} (spoken 101 (ascii "Good day!") 75000) 75000,
      .pinPlayer ⟨1, ⟨5⟩, ascii "Ada", ascii "Who are you?", 80000⟩,
      .commitSent (ascii "INITIATE") 0 {} (spoken 102 (ascii "Good day!") 121000) 121000]

theorem speech_windows_waited : ∃ tr s, machine.Run {} tr s ∧
    tr.map Event.output = [true, true, true, false, false, true] ∧ tr.Pairwise fun e e' =>
      ∀ mode line now mode' line' now', Commits e mode line now → Commits e' mode' line' now' →
        mode' ≠ ascii "PLAYER_REPLY" → normalizeNpcAgentSpeech line.text = normalizeNpcAgentSpeech line'.text →
          now.toNat + 120000 ≤ now'.toNat := by
  have h : (machine.exec {} waited).map (fun p =>
      (p.1.map Event.output, p.1.map fun e => e.pre.recentAmbient.length)) =
      some ([true, true, true, false, false, true], [0, 1, 1, 2, 2, 2]) := by decide +kernel
  obtain ⟨⟨tr, s⟩, hexec, hboth⟩ := Option.map_eq_some_iff.mp h
  obtain ⟨houtputs, hlengths⟩ := Prod.mk.inj hboth
  have hrun := Machine.run_of_exec hexec
  refine ⟨tr, s, hrun, houtputs, (speech_windows hrun).1 fun e he mode turnId partner line now _ _ => ?_⟩
  have hlength : e.pre.recentAmbient.length ∈ [0, 1, 1, 2, 2, 2] := hlengths ▸ List.mem_map_of_mem he
  have hfew : e.pre.recentAmbient.length < 8 := by
    revert hlength
    generalize e.pre.recentAmbient.length = n
    intro hn
    simp only [List.mem_cons, List.not_mem_nil, or_false] at hn
    omega
  exact (List.dropWhile_sublist _).length_le.trans_lt hfew

end NpcAgentSpeechState

end AIWorld.Agent
