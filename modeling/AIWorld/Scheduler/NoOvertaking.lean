import AIWorld.Scheduler.PlanningWorkScheduler

/-! The order of the sequence numbers is the order in which ready agents are served. A
number is given out by a request or after work, and only these two change it; so an agent
that has had its turn stays behind each one that was waiting then. The numbers are 64 bits
wide: all this holds until the counter comes round. -/

namespace AIWorld.Scheduler

open Std (ExtTreeMap)
open Lib

namespace PlanningWorkScheduler

variable {s s' : PlanningWorkScheduler} {i : PlanningOp} {o : Bool} {id a b nowMs : UInt64}
  {w w' : Waiting} {e : Event PlanningWorkScheduler PlanningOp Bool}
  {tr tr₁ tr₂ tr₃ : List (Event PlanningWorkScheduler PlanningOp Bool)}

/-! ### One call -/

/-- The call gives an agent a new number. -/
inductive Renews (s : PlanningWorkScheduler) (id : UInt64) : PlanningOp → Prop
  | requested (nowMs : UInt64) (h : s.waiting[id]? = none) : Renews s id (.request id nowMs)
  | behind (nowMs : UInt64) (w : Waiting) (h : s.waiting[id]? = some w) (hlt : nowMs < w.seenAt) :
      Renews s id (.request id nowMs)
  | worked (w : Waiting) (h : s.waiting[id]? = some w) : Renews s id (.endActor id true)

theorem Renews.unique (ha : Renews s a i) (hb : Renews s b i) : a = b := by
  cases ha <;> cases hb <;> rfl

/-- No agent gets a new number. -/
def KeepsNumbers (s s' : PlanningWorkScheduler) : Prop :=
  s'.sequence = s.sequence ∧ ∀ (id : UInt64) (w' : Waiting), s'.waiting[id]? = some w' →
    ∃ w : Waiting, s.waiting[id]? = some w ∧ w'.sequence = w.sequence

/-- One agent gets the next number. -/
def Numbers (s s' : PlanningWorkScheduler) (id : UInt64) : Prop :=
  s'.sequence = s.sequence + 1 ∧ ∀ (a : UInt64) (w' : Waiting), s'.waiting[a]? = some w' →
    if id = a then w'.sequence = s'.sequence else s.waiting[a]? = some w'

theorem KeepsNumbers.of_waiting_eq (hsequence : s'.sequence = s.sequence) (h : s'.waiting = s.waiting) :
    KeepsNumbers s s' := ⟨hsequence, fun _ w' hw' => ⟨w', h ▸ hw', rfl⟩⟩

theorem numbers_enqueue (s : PlanningWorkScheduler) (id nowMs : UInt64) :
    Numbers s (s.enqueue id nowMs) id := by
  refine ⟨rfl, fun a w' hw' => ?_⟩
  simp only [enqueue, OrdMap.getElem?_insert] at hw' ⊢
  split_ifs at hw' ⊢
  · cases hw'
    rfl
  · exact hw'

theorem request_numbers (s : PlanningWorkScheduler) (id nowMs : UInt64) :
    KeepsNumbers s (s.request id nowMs) ∨
      Renews s id (.request id nowMs) ∧ Numbers s (s.request id nowMs) id := by
  rw [request]
  split_ifs
  · exact .inl (.of_waiting_eq rfl rfl)
  · cases hw : s.waiting[id]? with
    | none => exact .inr ⟨.requested nowMs hw, numbers_enqueue s id nowMs⟩
    | some w =>
      simp only
      split_ifs with hlt
      · exact .inr ⟨.behind nowMs w hw hlt, numbers_enqueue s id nowMs⟩
      · refine .inl ⟨rfl, fun a w' hw' => ?_⟩
        simp only [OrdMap.getElem?_insert] at hw'
        split_ifs at hw' with hid
        · cases hw'
          exact ⟨w, hid ▸ hw, rfl⟩
        · exact ⟨w', hw', rfl⟩

theorem endActor_numbers (s : PlanningWorkScheduler) (id : UInt64) (didWork : Bool) :
    KeepsNumbers s (s.endActor id didWork) ∨
      Renews s id (.endActor id didWork) ∧ Numbers s (s.endActor id didWork) id := by
  simp only [endActor]
  by_cases h : didWork = true ∧ id ∈ s.waiting
  · rw [if_pos h]
    obtain ⟨rfl, hmem⟩ := h
    exact .inr ⟨.worked _ (ExtTreeMap.getElem?_eq_some_getElem hmem), numbers_enqueue s id s.nowMs⟩
  · rw [if_neg h]
    exact .inl (.of_waiting_eq rfl rfl)

theorem tryAdmit_cases (h : s.tryAdmit id = (o, s')) :
    o = true ∧ s.canAdmit id = true ∧ s' = { s with active := id } ∨ o = false ∧ s' = s := by
  rw [tryAdmit] at h
  split_ifs at h with hcan
  · exact .inl ⟨(congrArg Prod.fst h).symm, hcan, (congrArg Prod.snd h).symm⟩
  · exact .inr ⟨(congrArg Prod.fst h).symm, (congrArg Prod.snd h).symm⟩

/-- What a call does to the numbers. -/
theorem step_numbers (hstep : machine.step s i = some (o, s')) :
    KeepsNumbers s s' ∨ ∃ id, Renews s id i ∧ Numbers s s' id := by
  cases i with
  | beginFrame nowMs ready =>
    cases hstep
    exact .inl (.of_waiting_eq rfl rfl)
  | request id nowMs =>
    cases hstep
    exact (request_numbers s id nowMs).imp_right fun h => ⟨id, h⟩
  | cancel id =>
    cases hstep
    refine .inl ⟨rfl, fun a w' hw' => ?_⟩
    simp only [cancel, OrdMap.getElem?_erase] at hw'
    split_ifs at hw'
    exact ⟨w', hw', rfl⟩
  | syncMembership members =>
    cases hstep
    refine .inl ⟨rfl, fun a w' hw' => ⟨w', ?_, rfl⟩⟩
    simp only [syncMembership, ExtTreeMap.getElem?_filter', Option.filter_eq_some_iff] at hw'
    exact hw'.1
  | expireUnseen nowMs ttlMs =>
    cases hstep
    refine .inl ⟨rfl, fun a w' hw' => ⟨w', ?_, rfl⟩⟩
    simp only [expireUnseen, ExtTreeMap.getElem?_filter', Option.filter_eq_some_iff] at hw'
    exact hw'.1
  | canAdmit id =>
    cases hstep
    exact .inl (.of_waiting_eq rfl rfl)
  | tryAdmit id =>
    obtain ⟨-, -, rfl⟩ | ⟨-, rfl⟩ := tryAdmit_cases (Option.some.inj hstep)
    · exact .inl (.of_waiting_eq rfl rfl)
    · exact .inl (.of_waiting_eq rfl rfl)
  | endActor id didWork =>
    cases hstep
    exact (endActor_numbers s id didWork).imp_right fun h => ⟨id, h⟩

/-! ### Distinct numbers -/

/-- The numbers in use have been given out, and each one once. -/
structure Numbered (s : PlanningWorkScheduler) : Prop where
  given : ∀ (id : UInt64) (w : Waiting), s.waiting[id]? = some w → w.sequence ≤ s.sequence
  distinct : ∀ (a b : UInt64) (w w' : Waiting), s.waiting[a]? = some w → s.waiting[b]? = some w' →
    w.sequence = w'.sequence → a = b

/-- The counter has not come round in a step. -/
def Rises (e : Event PlanningWorkScheduler PlanningOp Bool) : Prop := e.pre.sequence ≤ e.post.sequence

theorem lt_of_rises (h : s.sequence ≤ s'.sequence) (hsucc : s'.sequence = s.sequence + 1) :
    s.sequence < s'.sequence := by
  rw [hsucc, UInt64.le_iff_toNat_le, UInt64.toNat_add, UInt64.toNat_one] at h
  rw [hsucc, UInt64.lt_iff_toNat_lt, UInt64.toNat_add, UInt64.toNat_one]
  have := s.sequence.toNat_lt
  omega

theorem add_one_ne (n : UInt64) : n + 1 ≠ n := by
  intro h
  have h := congrArg UInt64.toNat h
  rw [UInt64.toNat_add, UInt64.toNat_one] at h
  have := n.toNat_lt
  omega

theorem Numbered.step (h : Numbered s) (hrises : Rises ⟨s, i, o, s'⟩)
    (hstep : machine.step s i = some (o, s')) : Numbered s' := by
  rcases step_numbers hstep with ⟨hsame, hentries⟩ | ⟨id, -, hsucc, hentries⟩
  · constructor
    · intro a w' hw'
      obtain ⟨w, hw, hwseq⟩ := hentries a w' hw'
      rw [hwseq, hsame]
      exact h.given a w hw
    · intro a b w v hw hv heq
      obtain ⟨w₀, hw₀, hwseq⟩ := hentries a w hw
      obtain ⟨v₀, hv₀, hvseq⟩ := hentries b v hv
      exact h.distinct a b w₀ v₀ hw₀ hv₀ (hwseq.symm.trans (heq.trans hvseq))
  · have hlt : s.sequence < s'.sequence := lt_of_rises hrises hsucc
    have hold (a) (w' : Waiting) (hne : id ≠ a) (hw' : s'.waiting[a]? = some w') : w'.sequence < s'.sequence := by
      have hentry := hentries a w' hw'
      rw [if_neg hne] at hentry
      exact lt_of_le_of_lt (h.given a w' hentry) hlt
    have hnew (a) (w' : Waiting) (heq : id = a) (hw' : s'.waiting[a]? = some w') : w'.sequence = s'.sequence := by
      have hentry := hentries a w' hw'
      rwa [if_pos heq] at hentry
    constructor
    · intro a w' hw'
      by_cases hid : id = a
      · exact (hnew a w' hid hw').le
      · exact (hold a w' hid hw').le
    · intro a b w v hw hv heq
      by_cases ha : id = a <;> by_cases hb : id = b
      · exact ha.symm.trans hb
      · have := hold b v hb hv
        rw [← heq, hnew a w ha hw] at this
        exact absurd this (lt_irrefl _)
      · have := hold a w ha hw
        rw [heq, hnew b v hb hv] at this
        exact absurd this (lt_irrefl _)
      · have hwold := hentries a w hw
        have hvold := hentries b v hv
        rw [if_neg ha] at hwold
        rw [if_neg hb] at hvold
        exact h.distinct a b w v hwold hvold heq

/-! ### Who loses a place -/

/-- The agent has done work in its turn, has asked again with a clock behind, or is removed. -/
def Resequenced (id : UInt64) (e : Event PlanningWorkScheduler PlanningOp Bool) : Prop :=
  e.input = .endActor id true ∨
    (∃ (nowMs : UInt64) (w : Waiting), e.input = .request id nowMs ∧ e.pre.waiting[id]? = some w ∧ nowMs < w.seenAt) ∨
    e.post.waiting[id]? = none

/-- A call that is none of these keeps the number of a waiting agent. -/
theorem step_keeps (hstep : machine.IsStep e) (hw : e.pre.waiting[id]? = some w)
    (hnot : ¬ Resequenced id e) : ∃ w' : Waiting, e.post.waiting[id]? = some w' ∧ w'.sequence = w.sequence := by
  obtain ⟨s, i, o, s'⟩ := e
  simp only [Resequenced, not_or] at hnot
  obtain ⟨hwork, hbehind, hthere⟩ := hnot
  obtain ⟨w', hw'⟩ := Option.ne_none_iff_exists'.mp hthere
  refine ⟨w', hw', ?_⟩
  have hw : s.waiting[id]? = some w := hw
  rcases step_numbers hstep with ⟨-, hentries⟩ | ⟨k, hrenews, -, hentries⟩
  · obtain ⟨v, hv, hseq⟩ := hentries id w' hw'
    rwa [← Option.some.inj (hw.symm.trans hv)] at hseq
  · have hk : k ≠ id := by
      rintro rfl
      cases hrenews with
      | requested nowMs h => exact absurd (hw.symm.trans h) (Option.some_ne_none w)
      | behind nowMs v h hlt => exact hbehind ⟨nowMs, v, rfl, h, hlt⟩
      | worked v h => exact hwork rfl
    have hentry := hentries id w' hw'
    rw [if_neg hk] at hentry
    rw [Option.some.inj (hentry.symm.trans hw)]

/-- So does a run of such calls. -/
theorem run_keeps (hr : machine.Run s tr s') (hw : s.waiting[id]? = some w)
    (hnot : ∀ e ∈ tr, ¬ Resequenced id e) : ∃ w' : Waiting, s'.waiting[id]? = some w' ∧ w'.sequence = w.sequence := by
  induction hr generalizing w with
  | nil => exact ⟨w, hw, rfl⟩
  | cons hstep _ ih =>
    obtain ⟨hfirst, hrest⟩ := List.forall_mem_cons.mp hnot
    obtain ⟨v, hv, hseq⟩ := step_keeps (e := ⟨_, _, _, _⟩) hstep hw hfirst
    obtain ⟨w', hw', hseq'⟩ := ih hv hrest
    exact ⟨w', hw', hseq'.trans hseq⟩

/-! ### Admissions -/

/-- An admission of an agent that is not active yet passes no ready agent with a lower number. -/
theorem canAdmit_spec (h : s.canAdmit a = true) : a ≠ 0 ∧ (s.active = a ∨ s.active = 0 ∧
    ∃ w : Waiting, s.waiting[a]? = some w ∧ ∀ other ∈ s.ready, ∀ v : Waiting,
      s.waiting[other]? = some v → w.sequence ≤ v.sequence) := by
  unfold canAdmit at h
  by_cases hactive : s.active = 0
  · rw [if_neg (not_not.mpr hactive)] at h
    cases hw : s.waiting[a]? with
    | none =>
      rw [hw] at h
      contradiction
    | some w =>
      simp only [hw] at h
      by_cases hready : a = 0 ∨ a ∉ s.ready
      · rw [if_pos hready] at h
        contradiction
      · rw [if_neg hready, decide_eq_true_eq] at h
        refine ⟨fun ha => hready (.inl ha), .inr ⟨hactive, w, rfl, fun other hother v hv => ?_⟩⟩
        have hle := h other hother
        rw [hv] at hle
        simpa using hle
  · rw [if_pos hactive] at h
    have hactive' : s.active = a := of_decide_eq_true h
    exact ⟨hactive' ▸ hactive, .inl hactive'⟩

/-- An agent becomes or stays active in a call only by its admission, and no agent becomes
ready in such a call. -/
theorem step_active (hstep : machine.step s i = some (o, s')) (ha : a ≠ 0) (hactive : s'.active = a) :
    s'.ready ⊆ s.ready ∧ (s.active = a ∨ s.canAdmit a = true) := by
  have hreset {p : Prop} [Decidable p] {k : UInt64} (h : (if p then 0 else k) = a) : k = a := by
    split_ifs at h
    · exact absurd h.symm ha
    · exact h
  cases i with
  | beginFrame nowMs ready =>
    cases hstep
    exact absurd hactive.symm ha
  | request id nowMs =>
    cases hstep
    have hframe : (s.request id nowMs).ready = s.ready ∧ (s.request id nowMs).active = s.active := by
      unfold request
      split_ifs
      · exact ⟨rfl, rfl⟩
      · cases s.waiting[id]? with
        | none => exact ⟨rfl, rfl⟩
        | some w =>
          simp only
          split_ifs <;> exact ⟨rfl, rfl⟩
    exact ⟨hframe.1.subset, .inl (hframe.2 ▸ hactive)⟩
  | cancel id =>
    cases hstep
    exact ⟨Finset.erase_subset id s.ready, .inl (hreset hactive)⟩
  | syncMembership members =>
    cases hstep
    exact ⟨Finset.filter_subset _ s.ready, .inl (hreset hactive)⟩
  | expireUnseen nowMs ttlMs =>
    cases hstep
    exact ⟨subset_rfl, .inl (hreset hactive)⟩
  | canAdmit id =>
    cases hstep
    exact ⟨subset_rfl, .inl hactive⟩
  | tryAdmit id =>
    obtain ⟨-, hcan, rfl⟩ | ⟨-, rfl⟩ := tryAdmit_cases (Option.some.inj hstep)
    · exact ⟨subset_rfl, .inr (hactive ▸ hcan)⟩
    · exact ⟨subset_rfl, .inl hactive⟩
  | endActor id didWork =>
    cases hstep
    simp only [endActor] at hactive ⊢
    by_cases h : didWork = true ∧ id ∈ s.waiting
    · simp only [if_pos h] at hactive ⊢
      exact ⟨Finset.erase_subset id s.ready, .inl (hreset hactive)⟩
    · simp only [if_neg h] at hactive ⊢
      exact ⟨Finset.erase_subset id s.ready, .inl (hreset hactive)⟩

/-! ### No overtaking -/

/-- An agent that has had its turn is behind another one, which has kept its number. -/
structure Behind (number a b : UInt64) (s : PlanningWorkScheduler) : Prop where
  place : ∃ w : Waiting, s.waiting[b]? = some w ∧ w.sequence = number
  later : ∀ w : Waiting, s.waiting[a]? = some w → number < w.sequence
  active : s.active = a → b ∉ s.ready

variable {number : UInt64}

theorem Behind.not_ready (h : Behind number a b s) (hcan : s.canAdmit a = true) : b ∉ s.ready := by
  intro hb
  obtain ⟨-, hactive | ⟨-, w, hw, hfirst⟩⟩ := canAdmit_spec hcan
  · exact h.active hactive hb
  · obtain ⟨v, hv, rfl⟩ := h.place
    exact absurd (h.later w hw) (not_lt.mpr (hfirst b hb v hv))

theorem Behind.step (h : Behind number a b e.pre) (ha : a ≠ 0) (hnumbered : Numbered e.pre) (hrises : Rises e)
    (hstep : machine.IsStep e) (hnot : ¬ Resequenced b e) : Behind number a b e.post := by
  obtain ⟨w, hw, hwseq⟩ := h.place
  obtain ⟨w', hw', hseq⟩ := step_keeps hstep hw hnot
  refine ⟨⟨w', hw', hseq.trans hwseq⟩, fun v hv => ?_, fun hactive => ?_⟩
  · rcases step_numbers hstep with ⟨-, hentries⟩ | ⟨k, -, hsucc, hentries⟩
    · obtain ⟨v₀, hv₀, hvseq⟩ := hentries a v hv
      rw [hvseq]
      exact h.later v₀ hv₀
    · have hentry := hentries a v hv
      split_ifs at hentry
      · rw [hentry, ← hwseq]
        exact lt_of_le_of_lt (hnumbered.given b w hw) (lt_of_rises hrises hsucc)
      · exact h.later v hentry
  · obtain ⟨hready, hold | hcan⟩ := step_active hstep ha hactive
    · exact fun hb => h.active hold (hready hb)
    · exact fun hb => h.not_ready hcan (hready hb)

theorem getElem?_endActor_of_ne (s : PlanningWorkScheduler) {didWork : Bool} (hab : a ≠ b) :
    (s.endActor a didWork).waiting[b]? = s.waiting[b]? := by
  simp only [endActor]
  by_cases h : didWork = true ∧ a ∈ s.waiting
  · rw [if_pos h]
    exact OrdMap.getElem?_insert_ne _ _ hab
  · rw [if_neg h]

/-- The end of a turn with work done puts the agent behind all that wait. -/
theorem behind_of_endActor (hnumbered : Numbered e.pre) (hrises : Rises e) (hstep : machine.IsStep e)
    (hi : e.input = .endActor a true) (ha : a ≠ 0) (hab : b ≠ a) (hw : e.pre.waiting[b]? = some w) :
    Behind w.sequence a b e.post := by
  have hpost : e.post = e.pre.endActor a true := by
    rw [Machine.IsStep, hi] at hstep
    exact (congrArg Prod.snd (Option.some.inj hstep)).symm
  have hactive : e.post.active ≠ a := by
    rw [hpost]
    simp only [endActor]
    split_ifs with _ hold
    · exact ha.symm
    · exact hold
    · exact ha.symm
    · assumption
  have hthere : e.post.waiting[b]? = some w := by
    rw [hpost, getElem?_endActor_of_ne e.pre hab.symm, hw]
  refine ⟨⟨w, hthere, rfl⟩, fun v hv => ?_, fun h => absurd h hactive⟩
  rcases step_numbers hstep with ⟨hsame, -⟩ | ⟨k, hrenews, hsucc, hentries⟩
  · -- the agent itself did not wait, so it does not wait now
    rw [hpost] at hv hsame
    simp only [endActor, true_and] at hv hsame
    by_cases hmem : a ∈ e.pre.waiting
    · rw [if_pos hmem] at hsame
      exact absurd hsame (add_one_ne e.pre.sequence)
    · rw [if_neg hmem] at hv
      exact absurd (ExtTreeMap.mem_iff_isSome_getElem?.mpr (Option.isSome_iff_exists.mpr ⟨v, hv⟩)) hmem
  · have hk : k = a := by
      rw [hi] at hrenews
      cases hrenews
      rfl
    have hentry := hentries a v hv
    rw [if_pos hk] at hentry
    rw [hentry]
    exact lt_of_le_of_lt (hnumbered.given b w hw) (lt_of_rises hrises hsucc)

/-- The numbers that a run gives out. -/
def handedOut (tr : List (Event PlanningWorkScheduler PlanningOp Bool)) : ℕ :=
  tr.countP fun e => e.post.sequence ≠ e.pre.sequence

theorem rises_of_handedOut (hr : machine.Run s tr s') (h : s.sequence.toNat + handedOut tr < 2 ^ 64) :
    ∀ e ∈ tr, Rises e := by
  induction hr with
  | nil => simp
  | @cons s m s' i o tr hstep _ ih =>
    rw [handedOut, List.countP_cons, ← handedOut] at h
    have hrise : s.sequence ≤ m.sequence ∧ m.sequence.toNat + handedOut tr < 2 ^ 64 := by
      have hsucc : m.sequence = s.sequence ∨ m.sequence = s.sequence + 1 :=
        (step_numbers hstep).imp (fun h => h.1) fun ⟨_, _, h, _⟩ => h
      rcases hsucc with hsame | hsucc
      · rw [hsame] at h ⊢
        exact ⟨le_rfl, by omega⟩
      · have hne : m.sequence ≠ s.sequence := hsucc ▸ add_one_ne s.sequence
        simp only [ne_eq, hne, not_false_eq_true, decide_true, if_true] at h
        rw [UInt64.le_iff_toNat_le, hsucc, UInt64.toNat_add, UInt64.toNat_one]
        omega
    exact List.forall_mem_cons.mpr ⟨hrise.1, ih hrise.2⟩

theorem run_numbered (hr : machine.Run {} tr s) (hfew : handedOut tr < 2 ^ 64) :
    Numbered s ∧ ∀ e ∈ tr, Numbered e.pre ∧ Rises e := by
  have hrises := rises_of_handedOut hr (by rw [UInt64.toNat_zero]; omega)
  have hstart : Numbered {} := ⟨fun _ _ h => by simp at h, fun _ _ _ _ h => by simp at h⟩
  have hrun {tr : List _} {s} (hr : machine.Run {} tr s) (hrises : ∀ e ∈ tr, Rises e) : Numbered s :=
    hr.invariant_of_forall (fun _ _ _ _ hs hrises hstep => hs.step hrises hstep) hrises hstart
  refine ⟨hrun hr hrises, fun e he => ⟨?_, hrises e he⟩⟩
  obtain ⟨tr₁, tr₂, rfl, hpre, -⟩ := hr.at_mem he
  exact hrun hpre fun e he => hrises e (List.mem_append_left _ he)

theorem Behind.run (hr : machine.Run s tr s') (h : Behind number a b s) (ha : a ≠ 0)
    (hnumbered : ∀ e ∈ tr, Numbered e.pre ∧ Rises e) (hnot : ∀ e ∈ tr, ¬ Resequenced b e) :
    Behind number a b s' := by
  induction hr with
  | nil => exact h
  | cons hstep _ ih =>
    obtain ⟨hfirst, hrest⟩ := List.forall_mem_cons.mp hnumbered
    obtain ⟨hkeeps, hlater⟩ := List.forall_mem_cons.mp hnot
    exact ih (h.step (e := ⟨_, _, _, _⟩) ha hfirst.1 hfirst.2 hstep hkeeps) hrest hlater

/-- Until the counter comes round: the numbers of waiting agents are distinct, one agent at a
time is active, only work done, a clock behind or a removal costs an agent its number, and
an agent that has had its turn is not admitted before a ready one that waited then. -/
theorem no_overtaking (hr : machine.Run {} tr s) (hfew : handedOut tr < 2 ^ 64) :
    (∀ (a b : UInt64) (w w' : Waiting), s.waiting[a]? = some w → s.waiting[b]? = some w' →
      w.sequence = w'.sequence → a = b) ∧
    (∀ e ∈ tr, ∀ id, e.input = .tryAdmit id → e.output = true →
      (e.pre.active = 0 ∨ e.pre.active = id) ∧ e.post.active = id) ∧
    (∀ tr₁ e tr₂, tr = tr₁ ++ e :: tr₂ → ∀ (id : UInt64) (w w' : Waiting),
      e.pre.waiting[id]? = some w → s.waiting[id]? = some w' → w'.sequence ≠ w.sequence →
      ∃ e' ∈ e :: tr₂, Resequenced id e') ∧
    ∀ tr₁ e₁ tr₂ e₂ tr₃, tr = tr₁ ++ e₁ :: (tr₂ ++ e₂ :: tr₃) → ∀ a b : UInt64, ∀ w : Waiting,
      e₁.input = .endActor a true → e₂.input = .tryAdmit a → e₂.output = true → b ≠ a →
      e₁.pre.waiting[b]? = some w → (∃ e ∈ tr₂, Resequenced b e) ∨ b ∉ e₂.pre.ready := by
  obtain ⟨hend, hevents⟩ := run_numbered hr hfew
  have hadmits {e : Event PlanningWorkScheduler PlanningOp Bool} {id} (hstep : machine.IsStep e)
      (hi : e.input = .tryAdmit id) (ho : e.output = true) :
      e.pre.canAdmit id = true ∧ e.post.active = id := by
    rw [Machine.IsStep, hi] at hstep
    obtain ⟨-, hcan, hpost⟩ | ⟨hfalse, -⟩ := tryAdmit_cases (Option.some.inj hstep)
    · exact ⟨hcan, hpost ▸ rfl⟩
    · exact absurd (ho.symm.trans hfalse) Bool.false_ne_true.symm
  refine ⟨hend.distinct, fun e he id hi ho => ?_, ?_, ?_⟩
  · obtain ⟨_, _, _, _, hstep, _⟩ := hr.at_mem he
    obtain ⟨hcan, hpost⟩ := hadmits hstep hi ho
    exact ⟨(canAdmit_spec hcan).2.symm.imp_left fun h => h.1, hpost⟩
  · rintro tr₁ e tr₂ rfl id w w' hw hw' hne
    by_contra hnone
    obtain ⟨-, hstep, hrun⟩ := hr.split_cons
    have hrun : machine.Run e.pre (e :: tr₂) s := Machine.Run.cons hstep hrun
    obtain ⟨v, hv, hseq⟩ := run_keeps hrun hw fun e' he' h => hnone ⟨e', he', h⟩
    exact hne (Option.some.inj (hw'.symm.trans hv) ▸ hseq)
  · rintro tr₁ e₁ tr₂ e₂ tr₃ rfl a b w hi₁ hi₂ ho₂ hab hw
    by_contra hnone
    rw [not_or, not_not] at hnone
    obtain ⟨-, hstep₁, hrun⟩ := hr.split_cons
    obtain ⟨hrun, hstep₂, -⟩ := hrun.split_cons
    obtain ⟨hcan, -⟩ := hadmits hstep₂ hi₂ ho₂
    have ha := (canAdmit_spec hcan).1
    obtain ⟨hnumbered₁, hrises₁⟩ := hevents e₁ (by simp)
    have hbehind := behind_of_endActor hnumbered₁ hrises₁ hstep₁ hi₁ ha hab hw
    have hlater := hbehind.run hrun ha (fun e he => hevents e (by simp [he]))
      fun e he h => hnone.1 ⟨e, he, h⟩
    exact hlater.not_ready hcan hnone.2

/-- The first agent has its turn, then has to let the second one pass unless that is not due. -/
def twoAgents : List PlanningOp :=
  [.request 1 0, .request 2 0, .beginFrame 5 [1, 2], .tryAdmit 1, .endActor 1 true,
    .beginFrame 6 [1, 2], .tryAdmit 1, .beginFrame 7 [1], .tryAdmit 1]

theorem no_overtaking_twoAgents : ∃ tr s, machine.Run {} tr s ∧
    tr.map Event.output = [false, false, false, true, false, false, false, false, true] ∧
    (∀ (a b : UInt64) (w w' : Waiting), s.waiting[a]? = some w → s.waiting[b]? = some w' →
      w.sequence = w'.sequence → a = b) ∧ s.active = 1 := by
  have h : (machine.exec {} twoAgents).map (fun p => (p.1.map Event.output, handedOut p.1, p.2.active)) =
      some ([false, false, false, true, false, false, false, false, true], 3, 1) := by decide +kernel
  obtain ⟨⟨tr, s⟩, hexec, h⟩ := Option.map_eq_some_iff.mp h
  simp only [Prod.mk.injEq] at h
  obtain ⟨houtputs, hcount, hactive⟩ := h
  have hrun := Machine.run_of_exec hexec
  exact ⟨tr, s, hrun, houtputs, (no_overtaking hrun (hcount ▸ by decide)).1, hactive⟩

/-! ### When the counter comes round -/

/-- An agent waits while another one leaves and asks again. -/
def churn (number : UInt64) : PlanningWorkScheduler where
  waiting := ((∅ : ExtTreeMap UInt64 Waiting).insert 1 ⟨0, 0, 1⟩).insert 2 ⟨0, 0, number⟩
  sequence := number

theorem churn_succ (number : UInt64) :
    ((churn number).cancel 2).request 2 0 = churn (number + 1) := by
  have hgone : ((churn number).cancel 2).waiting[(2 : UInt64)]? = none := by
    simp [cancel]
  have hentries : ((churn number).waiting.erase 2).insert 2 ⟨0, 0, number + 1⟩ = (churn (number + 1)).waiting := by
    apply ExtTreeMap.ext_getElem?
    intro a
    simp only [churn, OrdMap.getElem?_insert, OrdMap.getElem?_erase]
    split_ifs <;> rfl
  rw [request, if_neg (by decide), hgone]
  change (⟨_, _, _, _, _⟩ : PlanningWorkScheduler) = ⟨_, _, _, _, _⟩
  rw [PlanningWorkScheduler.mk.injEq]
  exact ⟨hentries, rfl, rfl, rfl, rfl⟩

theorem churn_reachable (n : ℕ) : machine.Reachable {} (churn (UInt64.ofNat (n + 2))) := by
  induction n with
  | zero =>
    have hfirst := (Machine.Reachable.refl (M := machine) {}).step (i := .request 1 0) rfl
    have hsecond := hfirst.step (i := .request 2 0) rfl
    have hnew : (({} : PlanningWorkScheduler).request 1 0).waiting[(2 : UInt64)]? = none := by
      simp [request, enqueue]
    have heq : ((({} : PlanningWorkScheduler).request 1 0).request 2 0) = churn 2 := by
      rw [request, if_neg (by decide), hnew]
      simp only [request, if_neg (show ¬ (1 : UInt64) = 0 by decide), ExtTreeMap.getElem?_empty]
      rfl
    exact heq ▸ hsecond
  | succ n ih =>
    have hnext := (ih.step (i := .cancel 2) rfl).step (i := .request 2 0) rfl
    rw [churn_succ] at hnext
    have hnumber : UInt64.ofNat (n + 2) + 1 = UInt64.ofNat (n + 1 + 2) :=
      (UInt64.ofNat_add (n + 2) 1).symm
    exact hnumber ▸ hnext

/-- After as many requests as the counter can tell apart, two agents have the same number. -/
theorem numbers_not_distinct : ¬ ∀ tr s, machine.Run {} tr s →
    ∀ (a b : UInt64) (w w' : Waiting), s.waiting[a]? = some w → s.waiting[b]? = some w' →
      w.sequence = w'.sequence → a = b := by
  intro h
  obtain ⟨tr, hr⟩ := churn_reachable (2 ^ 64 - 1)
  have hround : UInt64.ofNat (2 ^ 64 - 1 + 2) = 1 := by decide
  rw [hround] at hr
  have h₁ : (churn 1).waiting[(1 : UInt64)]? = some ⟨0, 0, 1⟩ := by
    simp only [churn, OrdMap.getElem?_insert]
    rfl
  have h₂ : (churn 1).waiting[(2 : UInt64)]? = some ⟨0, 0, 1⟩ := by
    simp only [churn, OrdMap.getElem?_insert]
    rfl
  exact absurd (h tr _ hr 1 2 _ _ h₁ h₂ rfl) (by decide)

end PlanningWorkScheduler

end AIWorld.Scheduler
