import AIWorld.Scheduler.PlainSchedule

/-! What the queue holds. For each registered agent there is exactly one entry that fits
its state. Every other entry is left behind: its time has passed, or it is of an older
generation. The generation is a wrapping counter, so it has to be shown that no entry
whose time is still to come is old enough for the counter to come round. -/

namespace AIWorld.Scheduler

open Std (ExtTreeMap)
open Lib

namespace State

/-- The entry that fits a state. -/
def entry (state : State) (id : UInt64) : Entry := ⟨state.nextMs, id, state.generation⟩

/-- How many generations old an entry is. -/
def age (state : State) (e : Entry) : ℕ := (state.generation - e.generation).toNat

/-- One while an early pass is asked for. -/
def woken (state : State) : ℕ := if state.nextMs = state.periodicNextMs then 0 else 1

/-- An entry that no longer fits. A pass and at most one early wake before it make an
entry older by two, and a pass takes at least a millisecond. -/
def Outlived (state : State) (e : Entry) : Prop :=
  e.atMs ≤ state.lastMs ∨ 1 ≤ state.age e ∧
    state.age e ≤ 2 + state.woken + 2 * (state.lastMs.toNat + 2 ^ 32 - e.atMs.toNat)

variable {state state' : State} {e : Entry} {id nowMs : UInt64}

theorem entry_matches (h : state.lastMs < state.nextMs) : entryMatches state (state.entry id) = true := by
  simp [entryMatches, entry, h]

theorem Outlived.not_matches (h : state.Outlived e) : entryMatches state e = false := by
  rw [Bool.eq_false_iff]
  intro hm
  simp only [entryMatches, decide_eq_true_eq] at hm
  obtain ⟨hat, hgen, hlast⟩ := hm
  rcases h with hpast | ⟨hage, -⟩
  · rw [← hat] at hpast
    exact absurd hlast (not_lt.mpr hpast)
  · rw [age, hgen, UInt64.sub_self] at hage
    exact absurd hage (by decide)

theorem eq_entry_of_matches (h : entryMatches state e = true) : e = state.entry e.id := by
  simp only [entryMatches, decide_eq_true_eq] at h
  obtain ⟨hat, hgen, -⟩ := h
  rw [entry, hat, hgen]

/-- The counter does not come round: one generation later an entry is one older. -/
theorem age_succ (h : state.age e + 1 < 2 ^ 64) (hgen : state'.generation = state.generation + 1) :
    state'.age e = state.age e + 1 := by
  have hlt := state.generation.toNat_lt
  have hle := e.generation.toNat_lt
  simp only [age, UInt64.toNat_sub] at h
  simp only [age, hgen, UInt64.toNat_sub, UInt64.toNat_add, UInt64.toNat_one]
  omega

theorem woken_le_one (state : State) : state.woken ≤ 1 := by
  unfold woken
  split_ifs <;> omega

/-- A wake leaves the old entries behind. -/
theorem Outlived.wake (hwoken : state.woken = 0) (hlast : state'.lastMs = state.lastMs)
    (hgen : state'.generation = state.generation + 1) (hwoken' : state'.woken = 1)
    (h : e = state.entry id ∨ state.Outlived e) : state'.Outlived e := by
  rcases h with rfl | h
  · have hold : state.age (state.entry id) = 0 := by
      rw [age, entry, UInt64.sub_self]
      rfl
    have hage := age_succ (e := state.entry id) (by omega) hgen
    right
    omega
  · rw [Outlived, hlast]
    rcases h with hpast | ⟨hage, hbound⟩
    · exact .inl hpast
    · by_cases hat : e.atMs ≤ state.lastMs
      · exact .inl hat
      · rw [UInt64.not_le, UInt64.lt_iff_toNat_lt] at hat
        have hsucc := age_succ (e := e) (by omega) hgen
        right
        omega

/-- A pass leaves the old entries behind. -/
theorem Outlived.advance (hlast : state'.lastMs = nowMs) (hgen : state'.generation = state.generation + 1)
    (hdue : state.nextMs ≤ nowMs) (hbefore : state.lastMs < nowMs)
    (hreach : e.atMs.toNat < nowMs.toNat + 2 ^ 32)
    (h : e = state.entry id ∨ state.Outlived e) : state'.Outlived e := by
  rw [Outlived, hlast]
  rcases h with rfl | h
  · exact .inl hdue
  · by_cases hat : e.atMs ≤ nowMs
    · exact .inl hat
    · rcases h with hpast | ⟨hage, hbound⟩
      · exact .inl (hpast.trans hbefore.le)
      · rw [UInt64.not_le, UInt64.lt_iff_toNat_lt] at hat
        have hwoken := woken_le_one state
        have hbefore := UInt64.lt_iff_toNat_lt.mp hbefore
        have hsucc := age_succ (e := e) (by omega) hgen
        right
        omega

end State

namespace AgentUpdateScheduler

variable {P : PriorityQueue Entry later} {s s' : AgentUpdateScheduler P} {clock nowMs id : UInt64}
  {state state' : State} {e : Entry}

/-- The schedule without its queue. -/
def plain (s : AgentUpdateScheduler P) : PlainSchedule where
  slots := s.states.map fun _ state => state.toSlot
  intervalMs := s.intervalMs

/-- What holds of every state reached, at the time of its last call. -/
structure Inv (clock : UInt64) (s : AgentUpdateScheduler P) : Prop where
  interval_pos : 0 < s.intervalMs
  good : ∀ (id : UInt64) (state : State), s.states[id]? = some state →
    id ≠ 0 ∧ state.toSlot.Good clock s.intervalMs
  reach : ∀ e ∈ P.toList s.due, e.atMs.toNat < clock.toNat + 2 ^ 32
  fits : ∀ e ∈ P.toList s.due, ∀ state, s.states[e.id]? = some state →
    e = state.entry e.id ∨ state.Outlived e
  once : ∀ (id : UInt64) (state : State), s.states[id]? = some state → (P.toList s.due).count (state.entry id) = 1

theorem inv_empty : Inv 0 ({} : AgentUpdateScheduler P) where
  interval_pos := by
    change (0 : UInt32) < 1
    decide
  good id state h := by simp at h
  reach e h := by
    have hnil := (P.toList_ofList []).eq_nil
    change e ∈ P.toList (P.ofList []) at h
    rw [hnil] at h
    contradiction
  fits e _ state h := by simp at h
  once id state h := by simp at h

/-- Time may pass between two calls. -/
theorem Inv.mono (h : Inv clock s) (hclock : clock ≤ nowMs) : Inv nowMs s where
  interval_pos := h.interval_pos
  good id state hstate := (h.good id state hstate).imp_right fun hg => hg.later hclock
  reach e he := by
    have := h.reach e he
    have := UInt64.le_iff_toNat_le.mp hclock
    omega
  fits := h.fits
  once := h.once

theorem live_iff (h : Inv clock s) : s.live e = true ↔
    ∃ state, s.states[e.id]? = some state ∧ e = state.entry e.id := by
  unfold live
  cases hstate : s.states[e.id]? with
  | none => simp
  | some state =>
    simp only [Option.some.injEq, exists_eq_left']
    refine ⟨State.eq_entry_of_matches, fun heq => ?_⟩
    rw [heq]
    exact State.entry_matches (h.good _ _ hstate).2.last_lt

theorem live_entry (h : Inv clock s) (hstate : s.states[id]? = some state) :
    s.live (state.entry id) = true := (live_iff h).mpr ⟨state, hstate, rfl⟩

/-- New times of one agent: the old entries are left behind and one is added. -/
theorem Inv.replace (h : Inv clock s) (hclock : clock ≤ nowMs) (hstate : s.states[id]? = some state)
    (hgood : state'.toSlot.Good nowMs s.intervalMs)
    (hout : ∀ e ∈ P.toList s.due, e.id = id → (e = state.entry id ∨ state.Outlived e) →
      state'.Outlived e)
    {q : P.Q} (hsub : ∀ e ∈ P.toList q, e ∈ P.toList s.due)
    (hcount : ∀ e, e.id ≠ id → (P.toList q).count e = (P.toList s.due).count e) :
    Inv nowMs { s with states := s.states.insert id state', due := P.push q (state'.entry id) } := by
  have hpush := P.toList_push q (state'.entry id)
  have hclockN := UInt64.le_iff_toNat_le.mp hclock
  have hinterval := s.intervalMs.toNat_lt
  refine ⟨h.interval_pos, ?_, fun e he => ?_, fun e he => ?_, ?_⟩
  · refine OrdMap.forall_insert (P := fun id (state : State) => id ≠ 0 ∧
      state.toSlot.Good nowMs s.intervalMs) ⟨(h.good id state hstate).1, hgood⟩ fun k st _ hk => ?_
    exact (h.good k st hk).imp_right fun hg => hg.later hclock
  · rcases List.mem_cons.mp (hpush.mem_iff.mp he) with rfl | hq
    · have hnext := UInt64.le_iff_toNat_le.mp hgood.next_le
      have := hgood.reach
      change state'.nextMs.toNat < _
      omega
    · have := h.reach e (hsub e hq)
      omega
  · rcases List.mem_cons.mp (hpush.mem_iff.mp he) with rfl | hq
    · intro st hst
      change (s.states.insert id state')[id]? = some st at hst
      rw [OrdMap.getElem?_insert, if_pos rfl] at hst
      exact .inl (by rw [Option.some.inj hst]; rfl)
    · intro st hst
      have hfits := h.fits e (hsub e hq)
      change (s.states.insert id state')[e.id]? = some st at hst
      rw [OrdMap.getElem?_insert] at hst
      split_ifs at hst with hid
      · subst hid
        rw [← Option.some.inj hst]
        exact .inr (hout e (hsub e hq) rfl (hfits state hstate))
      · exact hfits st hst
  · refine OrdMap.forall_insert (P := fun k (st : State) =>
      (P.toList (P.push q (state'.entry id))).count (st.entry k) = 1) ?_ fun k st hne hk => ?_
    · have hnew : state'.entry id ∉ P.toList q := by
        intro hmem
        have hin := hsub _ hmem
        have hleft := hout _ hin rfl (h.fits _ hin state hstate)
        simpa using hleft.not_matches.symm.trans (State.entry_matches hgood.last_lt)
      rw [hpush.count_eq, List.count_cons_self, List.count_eq_zero_of_not_mem hnew]
    · have hother : state'.entry id ≠ st.entry k := fun heq => hne (congrArg Entry.id heq)
      rw [hpush.count_eq, List.count_cons_of_ne hother, hcount _ (Ne.symm hne), h.once k st hk]

end AgentUpdateScheduler

end AIWorld.Scheduler
