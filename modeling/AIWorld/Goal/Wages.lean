import AIWorld.Goal.AgentRuns

/-! What an agent earns. Work is paid once a shift, under a new version of what the agent owns; the row in the database
takes a newer version only. So neither the order of the saves nor their loss pays a shift twice, and the last save
that comes through is the last one that was made. -/

namespace AIWorld.Goal

open AIWorld.Action (ActionRequest ActionValidationContext SimulationScope)
open Lib (Machine)

variable {c : NeedsConfig} {t : NeedsTick} {a : Actor} {s : AgentState} {r r' : AgentRecord} {b : Body}
  {g : GroupCoordinationGoal}

/-! ### What the agent earns -/

@[simp] theorem completion_economy (completion : ActionCompletion) :
    (handleActionCompletion r completion).economyState = r.economyState := rfl

theorem event_economy (nowMs : UInt64) (event : ActionEngineEvent) :
    (processActionEngineEvent nowMs r event).economyState = r.economyState := by
  unfold processActionEngineEvent
  split_ifs
  · rfl
  · rfl
  · split
    · rfl
    · split_ifs <;> rfl

theorem events_economy (nowMs : UInt64) (events : List ActionEngineEvent) :
    (events.foldl (processActionEngineEvent nowMs) r).economyState = r.economyState := by
  induction events generalizing r with
  | nil => rfl
  | cons event events ih => exact ih.trans (event_economy nowMs event)

theorem bindCreature_economy : (bindCreature r b).economyState = r.economyState := by
  unfold bindCreature
  split_ifs <;> rfl

/-- Nothing that a group does pays or charges an agent. -/
theorem GroupMove.economy (h : GroupMove r r') : r'.economyState = r.economyState := by
  cases h with
  | same => rfl
  | bound b => exact bindCreature_economy
  | unbound => rfl
  | refused goal => rfl
  | ended stop => rfl
  | stopped stop => rfl
  | completed completion hsource => exact completion_economy completion
  | joined goal action hsource => rfl

theorem groupSteps_economy (scope : SimulationScope) (steps : List GroupStep) :
    (steps.foldl (groupStep scope) s).record.economyState = s.record.economyState := by
  induction steps generalizing s with
  | nil => rfl
  | cons step steps ih => exact ih.trans (groupStep_moves scope step).economy

theorem reconcileMovement_economy : (reconcileMovement t a).record.economyState = a.record.economyState := by
  unfold reconcileMovement
  split
  · split_ifs <;> rfl
  · rfl

theorem startMove_economy (goal : Action.GoalType) (startedAtMs : UInt64) (destination : Agent.ActionPosition Float32) :
    (startMove c t goal startedAtMs destination a).record.economyState = a.record.economyState := by
  rcases startMove_cases (c := c) (t := t) (a := a) goal startedAtMs destination with hnot | ⟨-, -, -, -, hbegun⟩
  · rw [hnot]
  · rw [hbegun]

theorem yield_economy (selection : GoalSelectionResult) :
    (preemptCoordination t (preemptRoutine (deriveRoutine c t (commitGoal selection a)))).record.economyState =
      a.record.economyState := by
  have hcommit : (commitGoal selection a).record.economyState = a.record.economyState := by
    unfold commitGoal
    dsimp only
    split_ifs <;> rfl
  have hroutine : (preemptRoutine (deriveRoutine c t (commitGoal selection a))).record.economyState =
      a.record.economyState := by
    unfold preemptRoutine
    split_ifs <;> exact hcommit
  unfold preemptCoordination preemptInFlightGroupCoordination
  dsimp only
  split
  · exact hroutine
  · split_ifs <;> exact hroutine

theorem commute_economy : (commute c t a).record.economyState = a.record.economyState := by
  have hstop : (stopOldRoutine a).record.economyState = a.record.economyState := by
    unfold stopOldRoutine
    split_ifs <;> rfl
  unfold commute
  split
  · dsimp only
    split_ifs
    · rfl
    · exact hstop
    · exact (startMove_economy _ _ _).trans hstop
    · rfl
  · rfl

theorem consumePendingEat_economy : (consumePendingEat c t a).2.record.economyState = a.record.economyState := by
  unfold consumePendingEat
  split
  · rfl
  · dsimp only
    split
    · split_ifs
      · unfold tryEat
        split_ifs <;> rfl
      · rfl
    · rfl

theorem beginFoodMove_economy (selection : GoalSelectionResult) :
    (beginFoodMove c t selection a).record.economyState = a.record.economyState := by
  unfold beginFoodMove
  split
  · split_ifs
    · exact startMove_economy _ _ _
    · rfl
  · rfl

/-- A wage is for the shift of the moment, and the agent has not been paid for that one last. -/
structure Paid (c : NeedsConfig) (nowMs : UInt64) (old new : AgentEconomyState) (window : UInt64) : Prop where
  shift : window = workWindowId c.routineScheduleConfig nowMs
  other : old.lastRewardedWorkWindowId ≠ window
  economy : new = ⟨old.money + c.workMoneyReward.toUInt64, window, old.version + 1⟩

/-- What one part of a pass does to the economy of an agent, and says of it. -/
def Accounted (c : NeedsConfig) (nowMs : UInt64) (old new : AgentEconomyState) : Option UInt64 → Prop
  | none => new = old
  | some window => Paid c nowMs old new window

theorem payWork_accounted {economy new : AgentEconomyState} {window : UInt64}
    (h : payWork c t economy = some (window, new)) : Paid c t.nowMs economy new window := by
  unfold payWork at h
  dsimp only at h
  split_ifs at h with hother
  rw [Option.some.injEq, Prod.mk.injEq] at h
  obtain ⟨rfl, rfl⟩ := h
  exact ⟨rfl, hother, rfl⟩

theorem beginActivity_accounted (activity : Action.RoutineActivityType) (routine : RoutineGoal) :
    Accounted c t.nowMs a.record.economyState (beginActivity c t activity routine a).2.record.economyState
      (beginActivity c t activity routine a).1 := by
  unfold beginActivity
  dsimp only
  split
  · split
    · rename_i window economy hpaid
      have hpay : payWork c t a.record.economyState = some (window, economy) := by
        split_ifs at hpaid
        exact hpaid
      exact payWork_accounted hpay
    · rfl
  · rfl

theorem routineActivity_accounted :
    Accounted c t.nowMs a.record.economyState (routineActivity c t a).2.record.economyState
      (routineActivity c t a).1 := by
  unfold routineActivity
  dsimp only
  split_ifs
  · rfl
  · split
    · exact beginActivity_accounted _ _
    · rfl

theorem act_accounted (selection : GoalSelectionResult) :
    Accounted c t.nowMs a.record.economyState (act c t selection a).2.record.economyState
      (act c t selection a).1.wage := by
  have hworked := routineActivity_accounted (c := c) (t := t) (a := commute c t (preemptCoordination t
    (preemptRoutine (deriveRoutine c t (commitGoal selection a)))))
  rw [commute_economy, yield_economy] at hworked
  unfold act
  dsimp only
  rw [beginFoodMove_economy, beginFlight_record, consumePendingEat_economy]
  exact hworked

theorem needsPass_accounted : Accounted c t.nowMs s.record.economyState (needsPass c t s).2.record.economyState
    (needsPass c t s).1.wage := by
  unfold needsPass
  split
  · rfl
  · rename_i b _
    dsimp only
    split_ifs
    · have hact := act_accounted (c := c) (t := t)
        (a := reconcileMovement t (updateNeeds c t ⟨bindCreature s.record b, b⟩))
        (selectGoal c t (reconcileMovement t (updateNeeds c t ⟨bindCreature s.record b, b⟩)))
      rw [reconcileMovement_economy] at hact
      rw [show (updateNeeds c t ⟨bindCreature s.record b, b⟩).record.economyState = s.record.economyState from
        bindCreature_economy] at hact
      exact hact
    · exact bindCreature_economy

/-! ### What the database keeps of it -/

/-- When the needs of the agent are looked at. -/
def ticks (tr : List (Lib.Event AgentWorld AgentInput NeedsReport)) : List UInt64 :=
  tr.filterMap fun e => match e.input with
    | .update u => u.tick.map NeedsTick.nowMs
    | _ => none

def wages (tr : List (Lib.Event AgentWorld AgentInput NeedsReport)) : List UInt64 :=
  tr.filterMap fun e => e.output.wage

/-- The economy of an agent that was paid for some shifts. -/
def ledger (c : NeedsConfig) (row : AgentEconomyState) (shifts : List UInt64) : AgentEconomyState where
  money := row.money + UInt64.ofNat shifts.length * c.workMoneyReward.toUInt64
  lastRewardedWorkWindowId := shifts.getLastD row.lastRewardedWorkWindowId
  version := row.version + UInt64.ofNat shifts.length

/-- The shifts that the money of the agent is for, in their order. What is stored, and what is to be stored, is for
the first of them, and the last state is not lost. -/
structure Books (c : NeedsConfig) (row : AgentEconomyState) (tr : List (Lib.Event AgentWorld AgentInput NeedsReport))
    (w : AgentWorld) (shifts : List UInt64) : Prop where
  ordered : shifts.Pairwise (· < ·)
  past : ∀ shift ∈ shifts, ∃ now ∈ ticks tr, shift = workWindowId c.routineScheduleConfig now
  reported : shifts.Sublist (wages tr)
  memory : w.agent.record.economyState = ledger c row shifts
  stored : ∃ k, w.stored = ledger c row (shifts.take k)
  saves : ∀ save ∈ w.saves, ∃ k, save = ledger c row (shifts.take k)
  kept : w.stored = ledger c row shifts ∨ ledger c row shifts ∈ w.saves

theorem workWindow_le {config : RoutineScheduleConfig} {old now : UInt64} (h : old ≤ now)
    (hbound : now.toNat + config.workStartMs.toNat < 2 ^ 64) : workWindowId config old ≤ workWindowId config now := by
  have hnat (x : UInt64) (hx : x.toNat + config.workStartMs.toNat < 2 ^ 64) : (workWindowId config x).toNat =
      config.dayLengthMs.toNat * (x.toNat / config.dayLengthMs.toNat) + config.workStartMs.toNat := by
    have hmod : (x % config.dayLengthMs.toUInt64).toNat = x.toNat % config.dayLengthMs.toNat := by
      rw [UInt64.toNat_mod, UInt32.toNat_toUInt64]
    have hle : x % config.dayLengthMs.toUInt64 ≤ x := by
      rw [UInt64.le_iff_toNat_le, hmod]
      exact Nat.mod_le _ _
    have hday := Nat.div_add_mod x.toNat config.dayLengthMs.toNat
    unfold workWindowId
    rw [Lib.toNat_add_of_lt, UInt64.toNat_sub_of_le _ _ hle, hmod, UInt32.toNat_toUInt64]
    · omega
    · rw [UInt64.toNat_sub_of_le _ _ hle, UInt32.toNat_toUInt64]
      omega
  have hle : old.toNat ≤ now.toNat := UInt64.le_iff_toNat_le.mp h
  rw [UInt64.le_iff_toNat_le, hnat old (by omega), hnat now hbound]
  have hdiv := Nat.mul_le_mul_left config.dayLengthMs.toNat (Nat.div_le_div_right (c := config.dayLengthMs.toNat) hle)
  omega

theorem ledger_append (row : AgentEconomyState) (shifts : List UInt64) (shift : UInt64) :
    ledger c row (shifts ++ [shift]) = ⟨(ledger c row shifts).money + c.workMoneyReward.toUInt64, shift,
      (ledger c row shifts).version + 1⟩ := by
  unfold ledger
  rw [List.length_append, List.length_singleton, List.getLastD_concat, UInt64.ofNat_add]
  congr 1
  · rw [UInt64.add_mul, UInt64.add_assoc]
    congr 2
    exact UInt64.one_mul _
  · exact (UInt64.add_assoc _ _ _).symm

theorem ledger_version {row : AgentEconomyState} {shifts : List UInt64} (h : row.version.toNat + shifts.length < 2 ^ 64) :
    (ledger c row shifts).version.toNat = row.version.toNat + shifts.length := by
  have hlength : (UInt64.ofNat shifts.length).toNat = shifts.length :=
    UInt64.toNat_ofNat_of_lt' (show shifts.length < 2 ^ 64 by omega)
  unfold ledger
  rw [Lib.toNat_add_of_lt, hlength]
  rw [hlength]
  exact h

/-- The row never goes back to an earlier state, and takes the last one whenever it comes. -/
theorem write_ledger {row : AgentEconomyState} {shifts : List UInt64} {k l : ℕ}
    (h : row.version.toNat + shifts.length < 2 ^ 64) :
    (ledger c row (shifts.take k)).write (ledger c row (shifts.take l)) = ledger c row (shifts.take (max k l)) := by
  have hversion (n : ℕ) : (ledger c row (shifts.take n)).version.toNat = row.version.toNat + min n shifts.length := by
    rw [ledger_version, List.length_take]
    rw [List.length_take]
    omega
  have htake {m n : ℕ} (hmn : min m shifts.length = min n shifts.length) : shifts.take m = shifts.take n := by
    rw [List.take_eq_take_min, hmn]
    exact List.take_eq_take_min.symm
  have hnewer : (ledger c row (shifts.take k)).version < (ledger c row (shifts.take l)).version ↔
      min k shifts.length < min l shifts.length := by
    rw [UInt64.lt_iff_toNat_lt, hversion, hversion]
    omega
  unfold AgentEconomyState.write
  simp only [hnewer]
  split_ifs with hlater
  · rw [htake (m := l) (n := max k l)]
    omega
  · rw [htake (m := k) (n := max k l)]
    omega

section Books
variable {row : AgentEconomyState} {tr : List (Lib.Event AgentWorld AgentInput NeedsReport)} {w w' : AgentWorld}
  {shifts : List UInt64} {e : Lib.Event AgentWorld AgentInput NeedsReport}

theorem mem_ticks_append {now : UInt64} (h : now ∈ ticks tr) : now ∈ ticks (tr ++ [e]) := by
  unfold ticks at h ⊢
  rw [List.filterMap_append]
  exact List.mem_append_left _ h

theorem Books.unpaid (h : Books c row tr w shifts)
    (hmemory : w'.agent.record.economyState = w.agent.record.economyState) (hstored : w'.stored = w.stored)
    (hsaves : w'.saves = w.saves) : Books c row (tr ++ [e]) w' shifts where
  ordered := h.ordered
  past := by
    intro shift hshift
    obtain ⟨now, hnow, hsame⟩ := h.past shift hshift
    exact ⟨now, mem_ticks_append hnow, hsame⟩
  reported := by
    unfold wages
    rw [List.filterMap_append]
    exact h.reported.trans (List.sublist_append_left _ _)
  memory := hmemory.trans h.memory
  stored := by
    rw [hstored]
    exact h.stored
  saves := by
    rw [hsaves]
    exact h.saves
  kept := by
    rw [hstored, hsaves]
    exact h.kept

theorem take_extended (shifts : List UInt64) (shift : UInt64) (k : ℕ) :
    ∃ l, shifts.take k = (shifts ++ [shift]).take l := by
  refine ⟨min k shifts.length, ?_⟩
  rw [List.take_append_of_le_length (Nat.min_le_right k shifts.length)]
  exact List.take_eq_take_min

/-- A payment is for a later shift than all before it. -/
theorem Books.paid {u : AgentUpdate} {t : NeedsTick} {window : UInt64} (h : Books c row tr w shifts)
    (hinput : e.input = .update u) (htick : u.tick = some t) (hwage : e.output.wage = some window)
    (hpaid : Paid c t.nowMs w.agent.record.economyState w'.agent.record.economyState window)
    (hstored : w'.stored = w.stored) (hsaves : w'.saves = w.saves ++ [w'.agent.record.economyState])
    (hclock : ∀ now ∈ ticks tr, now ≤ t.nowMs)
    (hbound : t.nowMs.toNat + c.routineScheduleConfig.workStartMs.toNat < 2 ^ 64) :
    Books c row (tr ++ [e]) w' (shifts ++ [window]) := by
  have hmemory : w'.agent.record.economyState = ledger c row (shifts ++ [window]) := by
    rw [ledger_append, ← h.memory]
    exact hpaid.economy
  have hle : ∀ shift ∈ shifts, shift ≤ window := by
    intro shift hshift
    obtain ⟨now, hnow, hsame⟩ := h.past shift hshift
    rw [hsame, hpaid.shift]
    exact workWindow_le (hclock now hnow) hbound
  have hlt : ∀ shift ∈ shifts, shift < window := by
    rcases List.eq_nil_or_concat' shifts with rfl | ⟨front, last, rfl⟩
    · intro shift hshift
      contradiction
    · have hother := hpaid.other
      rw [h.memory] at hother
      have hlast : last < window := by
        refine lt_of_le_of_ne (hle last (by simp)) ?_
        simpa [ledger] using hother
      intro shift hshift
      rcases List.mem_append.mp hshift with hfront | hsame
      · exact lt_trans ((List.pairwise_append.mp h.ordered).2.2 shift hfront last (by simp)) hlast
      · rw [List.mem_singleton.mp hsame]
        exact hlast
  refine ⟨?_, ?_, ?_, hmemory, ?_, ?_, ?_⟩
  · rw [List.pairwise_append]
    refine ⟨h.ordered, List.pairwise_singleton _ _, fun shift hshift other hother => ?_⟩
    rw [List.mem_singleton.mp hother]
    exact hlt shift hshift
  · intro shift hshift
    rcases List.mem_append.mp hshift with hshift | hshift
    · obtain ⟨now, hnow, hsame⟩ := h.past shift hshift
      exact ⟨now, mem_ticks_append hnow, hsame⟩
    · refine ⟨t.nowMs, ?_, ?_⟩
      · unfold ticks
        rw [List.filterMap_append, List.mem_append]
        exact .inr (by simp [hinput, htick])
      · rw [List.mem_singleton.mp hshift]
        exact hpaid.shift
  · unfold wages
    rw [List.filterMap_append]
    exact h.reported.append (by simp [hwage])
  · obtain ⟨k, hk⟩ := h.stored
    obtain ⟨l, hl⟩ := take_extended shifts window k
    exact ⟨l, by rw [hstored, hk, hl]⟩
  · intro save hsave
    rw [hsaves] at hsave
    rcases List.mem_append.mp hsave with hsave | hsave
    · obtain ⟨k, hk⟩ := h.saves save hsave
      obtain ⟨l, hl⟩ := take_extended shifts window k
      exact ⟨l, by rw [hk, hl]⟩
    · refine ⟨(shifts ++ [window]).length, ?_⟩
      rw [List.mem_singleton.mp hsave, hmemory, List.take_length]
  · rw [hsaves, hmemory]
    exact .inr (List.mem_append_right _ List.mem_cons_self)

theorem Books.written {i : ℕ} {save : AgentEconomyState} (h : Books c row tr w shifts)
    (hsave : w.saves[i]? = some save) (hversion : row.version.toNat + shifts.length < 2 ^ 64)
    (hw : w' = { w with stored := w.stored.write save, saves := w.saves.eraseIdx i }) :
    Books c row (tr ++ [e]) w' shifts := by
  have hunpaid : Books c row (tr ++ [e]) w shifts := h.unpaid rfl rfl rfl
  obtain ⟨k, hk⟩ := h.stored
  obtain ⟨l, hl⟩ := h.saves save (List.mem_of_getElem? hsave)
  have hwritten : w'.stored = ledger c row (shifts.take (max k l)) := by
    rw [hw]
    show w.stored.write save = _
    rw [hk, hl, write_ledger hversion]
  have hwhole {n : ℕ} (hn : ledger c row (shifts.take n) = ledger c row shifts) : shifts.length ≤ n := by
    have hnat : (ledger c row (shifts.take n)).version.toNat = (ledger c row shifts).version.toNat := by rw [hn]
    rw [ledger_version hversion, ledger_version (by rw [List.length_take]; omega), List.length_take] at hnat
    omega
  refine { hunpaid with memory := ?_, stored := ⟨_, hwritten⟩, saves := ?_, kept := ?_ }
  · rw [hw]
    exact h.memory
  · intro other hother
    rw [hw] at hother
    exact h.saves other (List.mem_of_mem_eraseIdx hother)
  · by_cases hfull : shifts.length ≤ max k l
    · exact .inl (by rw [hwritten, List.take_of_length_le hfull])
    · -- the last state is neither stored nor this save, so it still waits
      refine .inr ?_
      rcases h.kept with hlast | hlast
      · rw [hk] at hlast
        exact absurd (le_trans (hwhole hlast) (Nat.le_max_left k l)) hfull
      · obtain ⟨j, hj⟩ := List.mem_iff_getElem?.mp hlast
        rw [hw]
        refine List.mem_eraseIdx_iff_getElem?.mpr ⟨j, ?_, hj⟩
        rintro rfl
        rw [hsave, Option.some.injEq] at hj
        rw [hl] at hj
        exact hfull (le_trans (hwhole hj) (Nat.le_max_right k l))

theorem Books.restarted {k : ℕ} (h : Books c row tr w shifts) (hk : w.stored = ledger c row (shifts.take k))
    (hmemory : w'.agent.record.economyState = w.stored) (hstored : w'.stored = w.stored) (hsaves : w'.saves = []) :
    Books c row (tr ++ [e]) w' (shifts.take k) where
  ordered := h.ordered.sublist (List.take_sublist k shifts)
  past := by
    intro shift hshift
    obtain ⟨now, hnow, hsame⟩ := h.past shift (List.mem_of_mem_take hshift)
    exact ⟨now, mem_ticks_append hnow, hsame⟩
  reported := by
    unfold wages
    rw [List.filterMap_append]
    exact ((List.take_sublist k shifts).trans h.reported).trans (List.sublist_append_left _ _)
  memory := hmemory.trans hk
  stored := ⟨k, by rw [hstored, hk, List.take_take, min_self]⟩
  saves := by
    rw [hsaves]
    intro _ hno
    contradiction
  kept := .inl (hstored.trans hk)

theorem length_le_of_reported (h : shifts.Sublist (wages tr)) : shifts.length ≤ tr.length :=
  h.length_le.trans (List.length_filterMap_le _ tr)

/-- One step of the agent keeps books. -/
theorem step_books {input : AgentInput} {report : NeedsReport} (h : Books c row tr w shifts)
    (hstep : agentStep c w input = some (report, w'))
    (hclock : (ticks (tr ++ [⟨w, input, report, w'⟩])).Pairwise (· ≤ ·))
    (hbound : ∀ now ∈ ticks (tr ++ [⟨w, input, report, w'⟩]),
      now.toNat + c.routineScheduleConfig.workStartMs.toNat < 2 ^ 64)
    (hversion : row.version.toNat + tr.length < 2 ^ 64) :
    ∃ shifts', Books c row (tr ++ [⟨w, input, report, w'⟩]) w' shifts' := by
  cases input with
  | engine body =>
    simp only [agentStep, Option.ite_none_right_eq_some, Option.some.injEq, Prod.mk.injEq] at hstep
    obtain ⟨-, rfl, rfl⟩ := hstep
    exact ⟨shifts, h.unpaid rfl rfl rfl⟩
  | inform event taken =>
    simp only [agentStep, Option.map_eq_some_iff, Prod.mk.injEq] at hstep
    obtain ⟨b, -, rfl, rfl⟩ := hstep
    exact ⟨shifts, h.unpaid rfl rfl rfl⟩
  | update u =>
    simp only [agentStep, Option.some.injEq] at hstep
    have hdrained := groupSteps_economy (s := { w.agent with
      record := w.events.foldl (processActionEngineEvent u.nowMs) w.agent.record }) c.scope u.steps
    rw [show ({ w.agent with record := w.events.foldl (processActionEngineEvent u.nowMs) w.agent.record } :
      AgentState).record.economyState = w.agent.record.economyState from events_economy u.nowMs w.events] at hdrained
    cases htick : u.tick with
    | none =>
      simp only [updateAgent, htick, Prod.mk.injEq] at hstep
      obtain ⟨rfl, rfl⟩ := hstep
      exact ⟨shifts, h.unpaid hdrained rfl rfl⟩
    | some t =>
      have haccounted := needsPass_accounted (c := c) (t := t) (s := u.steps.foldl (groupStep c.scope)
        { w.agent with record := w.events.foldl (processActionEngineEvent u.nowMs) w.agent.record })
      rw [hdrained] at haccounted
      simp only [updateAgent, htick, Prod.mk.injEq] at hstep
      obtain ⟨hreport, hw⟩ := hstep
      rw [hreport] at haccounted hw
      cases hwage : report.wage with
      | none =>
        rw [hwage] at haccounted hw
        rw [← hw]
        exact ⟨shifts, h.unpaid haccounted rfl rfl⟩
      | some window =>
        rw [hwage] at haccounted hw
        have hnow : t.nowMs ∈ ticks (tr ++ [⟨w, .update u, report, w'⟩]) := by
          unfold ticks
          rw [List.filterMap_append, List.mem_append]
          exact .inr (by simp [htick])
        refine ⟨shifts ++ [window], h.paid rfl htick hwage ?_ ?_ ?_ ?_ (hbound t.nowMs hnow)⟩
        · rw [← hw]
          exact haccounted
        · rw [← hw]
        · rw [← hw]
          rfl
        · intro now hearlier
          unfold ticks at hclock hearlier
          rw [List.filterMap_append, List.pairwise_append] at hclock
          exact hclock.2.2 now hearlier t.nowMs (by simp [htick])
  | store i =>
    simp only [agentStep, Option.map_eq_some_iff, Prod.mk.injEq] at hstep
    obtain ⟨save, hsave, rfl, hw⟩ := hstep
    have hlength := length_le_of_reported h.reported
    exact ⟨shifts, h.written hsave (by omega) hw.symm⟩
  | restart =>
    simp only [agentStep, Option.some.injEq, Prod.mk.injEq] at hstep
    obtain ⟨-, rfl⟩ := hstep
    obtain ⟨k, hk⟩ := h.stored
    exact ⟨_, h.restarted hk rfl rfl rfl⟩

theorem registered_books (control : Action.AgentControlMode) (home work : Option AgentLocation) :
    Books c row [] (registered control home work row) [] := by
  have hrow : row = ledger c row [] := by
    unfold ledger
    cases row
    simp
  refine ⟨List.Pairwise.nil, fun _ hno => by contradiction, List.Sublist.slnil, hrow, ⟨0, hrow⟩,
    fun _ hno => by contradiction, .inl hrow⟩

end Books

end AIWorld.Goal
