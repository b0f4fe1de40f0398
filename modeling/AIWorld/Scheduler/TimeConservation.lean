import AIWorld.Scheduler.Refinement

/-! Passes of one agent over a run. What the passes charge adds up to the time between
the registration and the last pass, whatever early wakes came between them, and as long
as the interval stays the same, each pass leaves the first time of the agent's phase
that is still to come. -/

namespace AIWorld.Scheduler

open Std (ExtTreeMap)
open Lib

/-- The pass of an agent that an answer reports. -/
def Outcome.passOf (id : UInt64) : Outcome → Option Update
  | .popped (some update) => if update.agent = id then some update else none
  | _ => none

/-- A refresh that keeps the interval. -/
def Op.KeepsInterval (current : UInt32) : Op → Prop
  | .sync _ _ intervalMs _ => max 1 intervalMs = current
  | _ => True

/-! ### The times of one agent -/

theorem Slot.due_of_advance {slot : Slot} {intervalMs : UInt32} {nowMs : UInt64}
    {r : UInt32 × UInt64 × Slot} (h : slot.advance intervalMs nowMs = some r) :
    slot.nextMs ≤ nowMs := by
  obtain ⟨_, _, h⟩ := Option.bind_eq_some_iff.mp h
  obtain ⟨_, hlate, _⟩ := Option.bind_eq_some_iff.mp h
  exact (checkedSub_eq_some.mp hlate).1

/-- What a step does to the times of an agent that is registered before and after it. -/
structure SlotStep (id : UInt64) (current : UInt32) (slot : Slot) (i : Op) (o : Outcome)
    (slot' : Slot) : Prop where
  last : o.passOf id = none → slot'.lastMs = slot.lastMs
  periodic : o.passOf id = none → i.KeepsInterval current →
    slot'.periodicNextMs = slot.periodicNextMs
  pass : ∀ u, o.passOf id = some u → slot.advance current i.nowMs = some (u.elapsedMs, u.lateMs, slot')

namespace PlainSchedule

variable {p p' : PlainSchedule} {i : Op} {o : Outcome} {id : UInt64} {slot slot' : Slot}

theorem slotStep_same (hslot : p.slots[id]? = some slot) (hslot' : p.slots[id]? = some slot')
    (ho : o.passOf id = none) : SlotStep id p.intervalMs slot i o slot' := by
  rw [hslot] at hslot'
  cases hslot'
  exact ⟨fun _ => rfl, fun _ _ => rfl, fun u hu => by rw [ho] at hu; contradiction⟩

theorem slotStep_advance {k nowMs : UInt64} {u : Update} (hi : i.nowMs = nowMs)
    (h : p.advance k nowMs = some (u, p')) (hslot : p.slots[id]? = some slot)
    (hslot' : p'.slots[id]? = some slot') :
    SlotStep id p.intervalMs slot i (.popped (some u)) slot' := by
  obtain ⟨old, next, hold, hadvance, hu, rfl⟩ := advance_spec h
  rw [OrdMap.getElem?_insert] at hslot'
  split_ifs at hslot' with hk
  · subst hk hi
    cases hslot'
    cases hslot.symm.trans hold
    have hpass : (Outcome.popped (some u)).passOf k = some u := if_pos hu
    refine ⟨fun hn => ?_, fun hn => ?_, fun u' hu' => ?_⟩
    · rw [hpass] at hn
      contradiction
    · rw [hpass] at hn
      contradiction
    · rw [hpass] at hu'
      cases hu'
      exact hadvance
  · refine slotStep_same hslot hslot' (if_neg ?_)
    rw [hu]
    exact hk

/-- One step, seen by one agent that stays registered. -/
theorem slotStep (hstep : machine.step p i = some (o, p')) (hslot : p.slots[id]? = some slot)
    (hslot' : p'.slots[id]? = some slot') (hlast : slot.lastMs ≤ i.nowMs) :
    SlotStep id p.intervalMs slot i o slot' := by
  cases i with
  | sync agents nowMs intervalMs salt =>
    cases hstep
    rw [sync_slot] at hslot'
    split_ifs at hslot'
    rw [hslot] at hslot'
    have hlast : nowMs ≥ slot.lastMs := hlast
    simp only [Slot.sync, if_pos hlast, Option.some.injEq] at hslot'
    refine ⟨fun _ => ?_, fun _ hkeep => ?_, fun u hu => by contradiction⟩
    · split_ifs at hslot' <;> cases hslot' <;> rfl
    · have hkeep : max 1 intervalMs = p.intervalMs := hkeep
      rw [if_pos hkeep] at hslot'
      rw [hslot']
  | wake k nowMs =>
    simp only [machine, step, Option.some.injEq, Prod.mk.injEq] at hstep
    obtain ⟨rfl, rfl⟩ := hstep
    refine ⟨fun _ => ?_, fun _ _ => ?_, fun u hu => by contradiction⟩
    all_goals
      unfold wake at hslot'
      cases hk : p.slots[k]? with
      | none =>
        simp only [hk] at hslot'
        cases hslot.symm.trans hslot'
        rfl
      | some old =>
        simp only [hk] at hslot'
        split_ifs at hslot' with hearly
        · rw [OrdMap.getElem?_insert] at hslot'
          split_ifs at hslot' with hid
          · subst hid
            cases hk.symm.trans hslot
            cases hslot'
            rfl
          · cases hslot.symm.trans hslot'
            rfl
        · cases hslot.symm.trans hslot'
          rfl
  | popDue nowMs =>
    obtain ⟨⟨update, q⟩, hpop, heq⟩ := Option.map_eq_some_iff.mp hstep
    cases heq
    unfold popDue at hpop
    split at hpop
    · cases hpop
      exact slotStep_same hslot hslot' rfl
    · obtain ⟨⟨u, q⟩, hadvance, heq⟩ := Option.map_eq_some_iff.mp hpop
      cases heq
      exact slotStep_advance rfl hadvance hslot hslot'
  | dueAgents nowMs limit =>
    cases hstep
    exact slotStep_same hslot hslot' rfl
  | popDueAgent k nowMs =>
    obtain ⟨⟨update, q⟩, hpop, heq⟩ := Option.map_eq_some_iff.mp hstep
    cases heq
    unfold popDueAgent at hpop
    split at hpop
    · cases hpop
      exact slotStep_same hslot hslot' rfl
    · split_ifs at hpop
      · obtain ⟨⟨u, q⟩, hadvance, heq⟩ := Option.map_eq_some_iff.mp hpop
        cases heq
        exact slotStep_advance rfl hadvance hslot hslot'
      · cases hpop
        exact slotStep_same hslot hslot' rfl
  | oldestLateMs nowMs =>
    cases hstep
    exact slotStep_same hslot hslot' rfl

theorem intervalMs_step (hstep : machine.step p i = some (o, p')) (hi : i.KeepsInterval p.intervalMs) :
    p'.intervalMs = p.intervalMs := by
  cases i with
  | sync =>
    cases hstep
    exact hi
  | wake k nowMs =>
    simp only [machine, step, Option.some.injEq, Prod.mk.injEq] at hstep
    rw [← hstep.2, wake]
    split
    · rfl
    · split_ifs <;> rfl
  | popDue nowMs =>
    obtain ⟨⟨update, q⟩, hpop, heq⟩ := Option.map_eq_some_iff.mp hstep
    cases heq
    unfold popDue at hpop
    split at hpop
    · cases hpop
      rfl
    · obtain ⟨⟨u, q⟩, hadvance, heq⟩ := Option.map_eq_some_iff.mp hpop
      cases heq
      obtain ⟨_, _, _, _, _, rfl⟩ := advance_spec hadvance
      rfl
  | popDueAgent k nowMs =>
    obtain ⟨⟨update, q⟩, hpop, heq⟩ := Option.map_eq_some_iff.mp hstep
    cases heq
    unfold popDueAgent at hpop
    split at hpop
    · cases hpop
      rfl
    · split_ifs at hpop
      · obtain ⟨⟨u, q⟩, hadvance, heq⟩ := Option.map_eq_some_iff.mp hpop
        cases heq
        obtain ⟨_, _, _, _, _, rfl⟩ := advance_spec hadvance
        rfl
      · cases hpop
        rfl
  | dueAgents | oldestLateMs =>
    cases hstep
    rfl

end PlainSchedule

/-! ### Runs -/

namespace AgentUpdateScheduler

variable {P : PriorityQueue Entry later} {s s' : AgentUpdateScheduler P} {clock id : UInt64}
  {tr : List (Event (AgentUpdateScheduler P) Op Outcome)}

/-- The passes of an agent in a run, with their times. -/
def passes (id : UInt64) (tr : List (Event (AgentUpdateScheduler P) Op Outcome)) :
    List (UInt64 × Update) :=
  tr.filterMap fun e => (e.output.passOf id).map fun u => (e.input.nowMs, u)

theorem passes_cons (e : Event (AgentUpdateScheduler P) Op Outcome) :
    passes id (e :: tr) =
      ((e.output.passOf id).map fun u => (e.input.nowMs, u)).toList ++ passes id tr := by
  unfold passes
  cases he : e.output.passOf id <;> simp [he]

/-- One step of the scheduler, seen by one agent that stays registered. -/
theorem slotStep {i : Op} {o : Outcome} {state state' : State} (h : Inv clock s)
    (hclock : clock ≤ i.nowMs) (hbelow : i.Below s.intervalMs)
    (hstep : (machine P).step s i = some (o, s')) (hstate : s.states[id]? = some state)
    (hstate' : s'.states[id]? = some state') :
    SlotStep id s.intervalMs state.toSlot i o state'.toSlot := by
  have hplain := (step_inv h hclock hbelow hstep).1
  refine PlainSchedule.slotStep (p := s.plain) hplain ?_ ?_
    ((h.good id state hstate).2.last_le.trans hclock)
  · rw [plain_slot, hstate]
    rfl
  · rw [plain_slot, hstate']
    rfl

/-- What a pass is told and leaves. -/
theorem pass_advanced {i : Op} {o : Outcome} {u : Update} {state state' : State} (h : Inv clock s)
    (hclock : clock ≤ i.nowMs) (hbelow : i.Below s.intervalMs) (hu : o.passOf id = some u)
    (hstep : (machine P).step s i = some (o, s')) (hstate : s.states[id]? = some state)
    (hstate' : s'.states[id]? = some state') :
    state.toSlot.Advanced s.intervalMs i.nowMs u.elapsedMs u.lateMs state'.toSlot := by
  have hadvance := (slotStep h hclock hbelow hstep hstate hstate').pass u hu
  have hbelow : i.nowMs.toNat + s.intervalMs.toNat < 2 ^ 64 := by
    cases i with
    | popDue | popDueAgent => exact hbelow
    | sync | wake =>
      cases hstep
      contradiction
    | dueAgents =>
      cases hstep
      contradiction
    | oldestLateMs =>
      obtain ⟨_, _, heq⟩ := Option.map_eq_some_iff.mp hstep
      cases heq
      contradiction
  obtain ⟨elapsedMs, lateMs, next, hadvance', hadvanced⟩ := (h.good id state hstate).2.advance hclock
    (Slot.due_of_advance hadvance) h.interval_pos hbelow
  cases hadvance.symm.trans hadvance'
  exact hadvanced

/-- The charges of the passes add up to the time up to the last of them. -/
theorem run_charges {state : State} (hr : (machine P).Run s tr s') (h : Inv clock s)
    (hclock : (clock :: tr.map fun e => e.input.nowMs).Pairwise (· ≤ ·))
    (hbelow : ∀ e ∈ tr, e.input.Below e.pre.intervalMs) (hstate : s.states[id]? = some state)
    (hstays : ∀ e ∈ tr, ∃ state : State, e.post.states[id]? = some state)
    (hgaps : (state.lastMs :: (passes id tr).map Prod.fst).IsChain
      fun a b => b.toNat ≤ a.toNat + (2 ^ 32 - 1)) :
    ((passes id tr).map fun p => p.2.elapsedMs.toNat).sum + state.lastMs.toNat =
      (((passes id tr).getLast?.map Prod.fst).getD state.lastMs).toNat := by
  induction hr generalizing clock state with
  | nil => simp [passes]
  | @cons s m s' i o tr hstep _ ih =>
    rw [List.map_cons, List.pairwise_cons] at hclock
    obtain ⟨hfirst, hrest⟩ := List.forall_mem_cons.mp hbelow
    obtain ⟨⟨state', hstate'⟩, hlater⟩ := List.forall_mem_cons.mp hstays
    have hle : clock ≤ i.nowMs := hclock.1 _ List.mem_cons_self
    have hinv := (step_inv h hle hfirst hstep).2
    have hih := ih hinv hclock.2 hrest hstate' hlater
    rw [passes_cons] at hgaps ⊢
    cases hu : o.passOf id with
    | none =>
      have hlast := (slotStep h hle hfirst hstep hstate hstate').last hu
      simp only [hu, Option.map_none, Option.toList_none, List.nil_append] at hgaps ⊢
      rw [hlast] at hih
      exact hih hgaps
    | some u =>
      have hadvanced := pass_advanced h hle hfirst hu hstep hstate hstate'
      simp only [hu, Option.map_some, Option.toList_some, List.singleton_append, List.map_cons,
        List.isChain_cons_cons, List.sum_cons] at hgaps ⊢
      have hnow := UInt64.le_iff_toNat_le.mp ((h.good id state hstate).2.last_le.trans hle)
      rw [hadvanced.last] at hih
      have hsum := hih hgaps.2
      have helapsed := hadvanced.elapsed
      have hlast : ((((i.nowMs, u) :: passes id tr).getLast?.map Prod.fst).getD state.lastMs) =
          ((passes id tr).getLast?.map Prod.fst).getD i.nowMs := by
        rw [List.getLast?_cons]
        cases (passes id tr).getLast? <;> rfl
      rw [hlast]
      omega

/-- With one interval, each pass leaves the next time of the phase. -/
theorem run_phase {state : State} {phase : ℕ} (hr : (machine P).Run s tr s') (h : Inv clock s)
    (hclock : (clock :: tr.map fun e => e.input.nowMs).Pairwise (· ≤ ·))
    (hbelow : ∀ e ∈ tr, e.input.Below e.pre.intervalMs) (hstate : s.states[id]? = some state)
    (hstays : ∀ e ∈ tr, ∃ state : State, e.post.states[id]? = some state)
    (hkeep : ∀ e ∈ tr, e.input.KeepsInterval s.intervalMs)
    (hphase : state.periodicNextMs.toNat ≡ phase [MOD s.intervalMs.toNat]) :
    ∀ e ∈ tr, ∀ u, e.output.passOf id = some u → ∃ state : State,
      e.post.states[id]? = some state ∧ IsNextPeriod phase s.intervalMs.toNat
        e.input.nowMs.toNat state.periodicNextMs.toNat := by
  induction hr generalizing clock state with
  | nil => simp
  | @cons s m s' i o tr hstep _ ih =>
    rw [List.map_cons, List.pairwise_cons] at hclock
    obtain ⟨hfirst, hrest⟩ := List.forall_mem_cons.mp hbelow
    obtain ⟨⟨state', hstate'⟩, hlater⟩ := List.forall_mem_cons.mp hstays
    obtain ⟨hkeeps, hkeep⟩ := List.forall_mem_cons.mp hkeep
    have hle : clock ≤ i.nowMs := hclock.1 _ List.mem_cons_self
    obtain ⟨hplain, hinv⟩ := step_inv h hle hfirst hstep
    have hinterval : m.intervalMs = s.intervalMs := PlainSchedule.intervalMs_step hplain hkeeps
    have hnext (hphase' : state'.periodicNextMs.toNat ≡ phase [MOD s.intervalMs.toNat]) :=
      ih hinv hclock.2 hrest hstate' hlater (hinterval ▸ hkeep) (hinterval ▸ hphase')
    rw [hinterval] at hnext
    cases hu : o.passOf id with
    | none =>
      have hperiodic := (slotStep h hle hfirst hstep hstate hstate').periodic hu hkeeps
      refine List.forall_mem_cons.mpr ⟨fun u hu' => ?_, hnext (hperiodic ▸ hphase)⟩
      rw [hu] at hu'
      contradiction
    | some u =>
      have hperiod := (pass_advanced h hle hfirst hu hstep hstate hstate').phase
      refine List.forall_mem_cons.mpr ⟨fun _ _ => ⟨state', hstate', hperiod.after,
        hperiod.inPhase.trans hphase, fun t ht hmod => ?_⟩, hnext (hperiod.inPhase.trans hphase)⟩
      exact hperiod.least t ht (hmod.trans hphase.symm)

/-- Time is neither lost nor charged twice, and the phase is kept: from its registration
on, what an agent's passes charge adds up to the time of the last of them; a wake changes
neither the last pass nor the periodic deadline; and with one interval, each pass leaves
the first time after it in the phase the agent was registered with. -/
theorem time_conserved {tr₁ tr₂ : List (Event (AgentUpdateScheduler P) Op Outcome)}
    {e₀ : Event (AgentUpdateScheduler P) Op Outcome} {agents : List UInt64} {t₀ : UInt64}
    {intervalMs : UInt32} {salt : UInt64} (hr : (machine P).Run {} (tr₁ ++ e₀ :: tr₂) s)
    (hclocked : Clocked (tr₁ ++ e₀ :: tr₂)) (hsync : e₀.input = .sync agents t₀ intervalMs salt)
    (hnew : e₀.pre.states[id]? = none) (hid : id ≠ 0 ∧ id ∈ agents)
    (hstays : ∀ e ∈ tr₂, ∃ state : State, e.post.states[id]? = some state) :
    ((t₀ :: (passes id tr₂).map Prod.fst).IsChain (fun a b => b.toNat ≤ a.toNat + (2 ^ 32 - 1)) →
      ((passes id tr₂).map fun p => p.2.elapsedMs.toNat).sum + t₀.toNat =
        (((passes id tr₂).getLast?.map Prod.fst).getD t₀).toNat) ∧
    (∀ e ∈ tr₂, ∀ k nowMs, e.input = .wake k nowMs → ∀ state state' : State,
      e.pre.states[id]? = some state → e.post.states[id]? = some state' →
      state'.lastMs = state.lastMs ∧ state'.periodicNextMs = state.periodicNextMs) ∧
    ((∀ e ∈ tr₂, e.input.KeepsInterval (max 1 intervalMs)) →
      ∀ e ∈ tr₂, ∀ u, e.output.passOf id = some u → ∃ state : State,
        e.post.states[id]? = some state ∧
        IsNextPeriod (firstTime id t₀ (max 1 intervalMs) salt).toNat (max 1 intervalMs).toNat
          e.input.nowMs.toNat state.periodicNextMs.toNat) := by
  have hmem (e) (he : e ∈ tr₂) : e ∈ tr₁ ++ e₀ :: tr₂ :=
    List.mem_append_right _ (List.mem_cons_of_mem _ he)
  have hevents := (run_inv hr hclocked inv_empty).1
  obtain ⟨clock, hle₀, hpre, hpost⟩ := hevents e₀ (List.mem_append_right _ List.mem_cons_self)
  obtain ⟨-, hstep, hrun⟩ := hr.split_cons
  have hnow : e₀.input.nowMs = t₀ := by rw [hsync]; rfl
  have hchain : (t₀ :: tr₂.map fun e => e.input.nowMs).Pairwise (· ≤ ·) := by
    have hall := hclocked.nondecreasing
    rw [List.map_append, List.map_cons, hnow] at hall
    exact (List.pairwise_append.mp hall).2.1
  have hbelow (e) (he : e ∈ tr₂) := hclocked.below e (hmem e he)
  -- the registration sets all times of the agent
  have hpost_eq : e₀.post = e₀.pre.sync agents t₀ intervalMs salt := by
    rw [Machine.IsStep, hsync] at hstep
    exact (congrArg Prod.snd (Option.some.inj hstep)).symm
  have hinterval : e₀.post.intervalMs = max 1 intervalMs := by rw [hpost_eq]; rfl
  obtain ⟨state, hstate, hslot⟩ : ∃ state : State, e₀.post.states[id]? = some state ∧
      state.toSlot = ⟨t₀, firstTime id t₀ (max 1 intervalMs) salt,
        firstTime id t₀ (max 1 intervalMs) salt⟩ := by
    have hb := hclocked.below e₀ (List.mem_append_right _ List.mem_cons_self)
    rw [hsync] at hb
    have hle : clock ≤ t₀ := hnow ▸ hle₀
    have hplain := congrArg (fun p => p.slots[id]?) (sync_refines hpre hle agents intervalMs salt hb).1
    simp only [PlainSchedule.sync_slot, if_pos hid, plain_slot, hnew, ← hpost_eq] at hplain
    exact Option.map_eq_some_iff.mp hplain
  have hlast : state.lastMs = t₀ := congrArg Slot.lastMs hslot
  refine ⟨fun hgaps => ?_, fun e he k nowMs hi state state' hs hs' => ?_, fun hkeep => ?_⟩
  · have hcharges := run_charges hrun (hnow ▸ hpost) hchain hbelow hstate hstays (hlast.symm ▸ hgaps)
    rw [hlast] at hcharges
    exact hcharges
  · obtain ⟨clock, hle, hpre, -⟩ := hevents e (hmem e he)
    obtain ⟨_, _, _, _, hstep, _⟩ := hr.at_mem (hmem e he)
    have hslots := slotStep hpre hle (hbelow e he) hstep hs hs'
    rw [Machine.IsStep, hi] at hstep
    have hpass : e.output.passOf id = none := by
      have ho : Outcome.woken (e.pre.wake k nowMs).1 = e.output :=
        congrArg Prod.fst (Option.some.inj hstep)
      rw [← ho]
      rfl
    exact ⟨hslots.last hpass, hslots.periodic hpass (hi ▸ trivial)⟩
  · have hat : state.periodicNextMs.toNat ≡ (firstTime id t₀ (max 1 intervalMs) salt).toNat
        [MOD e₀.post.intervalMs.toNat] :=
      congrArg (fun slot : Slot => slot.periodicNextMs.toNat) hslot ▸ rfl
    have hphase := run_phase hrun (hnow ▸ hpost) hchain hbelow hstate hstays (hinterval ▸ hkeep) hat
    rw [hinterval] at hphase
    exact hphase

/-- One agent with a wake, two refreshes and a late pop between its passes. -/
def wokenDay : List Op :=
  [.sync [3] 100 1000 7, .wake 3 150, .popDue 160, .sync [3, 5] 700 1000 7, .popDueAgent 3 3500,
    .popDue 4100, .popDue 4500]

theorem time_conserved_wokenDay : ∃ e₀ tr s, (machine sortedEntries).Run {} (e₀ :: tr) s ∧
    (passes 3 tr).map (fun p => p.2.elapsedMs) = [60, 3340, 1000] ∧
      ((passes 3 tr).map fun p => p.2.elapsedMs.toNat).sum + 100 = 4500 := by
  have h : ((machine sortedEntries).exec {} wokenDay).map (fun p =>
      (decide (Clocked p.1), (p.1.head?.map fun e => e.pre.states.contains 3),
        p.1.tail.all fun e => e.post.states.contains 3, (passes 3 p.1.tail).map Prod.fst,
        (passes 3 p.1.tail).map fun p => p.2.elapsedMs)) =
      some (true, some false, true, [160, 3500, 4500], [60, 3340, 1000]) := by decide +kernel
  obtain ⟨⟨tr, s⟩, hexec, h⟩ := Option.map_eq_some_iff.mp h
  simp only [Prod.mk.injEq] at h
  obtain ⟨hclocked, hnew, hstays, htimes, helapsed⟩ := h
  have hinputs := Machine.inputs_of_exec hexec
  have hrun := Machine.run_of_exec hexec
  obtain ⟨e₀, tr₂, rfl⟩ : ∃ e₀ tr₂, tr = e₀ :: tr₂ := by
    cases tr with
    | nil => simp at hnew
    | cons e₀ tr₂ => exact ⟨e₀, tr₂, rfl⟩
  have hsync : e₀.input = .sync [3] 100 1000 7 := (List.cons.inj hinputs).1
  have hfresh : e₀.pre.states[(3 : UInt64)]? = none := by
    have hnot : e₀.pre.states.contains 3 = false := Option.some.inj hnew
    exact ExtTreeMap.getElem?_eq_none_of_contains_eq_false hnot
  have hthroughout : ∀ e ∈ tr₂, ∃ state : State, e.post.states[(3 : UInt64)]? = some state :=
    fun e he => ⟨_, ExtTreeMap.getElem?_eq_some_getElem
      (ExtTreeMap.mem_iff_contains.mpr (List.all_eq_true.mp hstays e he))⟩
  have hrun : (machine sortedEntries).Run {} ([] ++ e₀ :: tr₂) s := hrun
  have hclocked : decide (Clocked ([] ++ e₀ :: tr₂)) = true := hclocked
  have hsum := (time_conserved hrun (of_decide_eq_true hclocked) hsync hfresh
    (by decide) hthroughout).1
  have htimes : (passes 3 tr₂).map Prod.fst = [160, 3500, 4500] := htimes
  have hlast : ((passes 3 tr₂).getLast?.map Prod.fst) = some 4500 := by
    rw [← List.getLast?_map, htimes]
    rfl
  rw [htimes, hlast] at hsum
  exact ⟨e₀, tr₂, s, hrun, helapsed, hsum (by decide)⟩

end AgentUpdateScheduler

end AIWorld.Scheduler
