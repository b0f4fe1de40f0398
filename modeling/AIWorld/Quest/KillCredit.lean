import AIWorld.Quest.QuestFate

/-! Kill credit. The bus numbers the kills that it takes and hands each of them over once, in
order. A quest that was accepted is credited with exactly the first of the kills handed over
since then that match it and came before its deadline, as many as it requires; and when the
bus had to drop a kill, the next reclaim leaves no quest that could have missed it. -/

namespace AIWorld.Quest

open Std Lib DynamicQuestRegistry DynamicQuestManager

variable {c : Settings} {w : World} {s s' : DynamicQuestManager} {i : ManagerInput}
  {o : ManagerOutput} {id k : UInt64} {q q' : DynamicQuestInstance} {tr : Trace}

/-! ### The bus -/

/-- The kills that the bus took, as it numbered them. -/
def kills (tr : Trace) : List DynamicQuestKillEvent :=
  tr.filterMap fun e =>
    match e.input with
    | .kill event =>
      if e.pre.killEventBus.pending.length < DynamicQuestKillEventBus.maxPendingEvents then
        some { event with eventId := e.pre.killEventBus.nextEventId } else none
    | _ => none

/-- The kills that were handed over, each with the time at which it was processed. -/
def drained (tr : Trace) : List (DynamicQuestKillEvent × UInt64) :=
  tr.flatMap fun e =>
    match e.input with
    | .drain nowMs => e.pre.killEventBus.pending.map fun event => (event, nowMs event)
    | _ => []

theorem kills_append (tr tr' : Trace) : kills (tr ++ tr') = kills tr ++ kills tr' := List.filterMap_append ..

theorem drained_append (tr tr' : Trace) : drained (tr ++ tr') = drained tr ++ drained tr' :=
  List.flatMap_append ..

/-- Only kills and drains change the bus, and only a reclaim looks at its losses. -/
theorem bus_kept (c : Settings) (s : DynamicQuestManager) (i : ManagerInput) :
    ((∀ event, i ≠ .kill event) → (∀ nowMs, i ≠ .drain nowMs) →
        (managerStep c s i).2.killEventBus = s.killEventBus) ∧
      ((∀ w nowMs, i ≠ .reclaim w nowMs) →
        (managerStep c s i).2.lastObservedKillDropCount = s.lastObservedKillDropCount) := by
  cases i with
  | submit w record creature source retrieved nowMs requestId =>
    rcases submit_cases c w s record creature source retrieved nowMs requestId with
      hr | ⟨context, provenance, -, -, -, hr⟩ <;>
    simp [managerStep, hr]
  | respond w requestId agent success response nowMs offerMs =>
    have hcases := respond_cases c w s requestId agent success response nowMs offerMs
    simp only [managerStep]
    generalize handleDynamicTaskResponse c w s requestId agent success response nowMs offerMs = res at hcases ⊢
    obtain ⟨created, s'⟩ := res
    dsimp only at hcases ⊢
    cases hcases with
    | ignored => exact ⟨fun _ _ => rfl, fun _ => rfl⟩
    | refused => exact ⟨fun _ _ => rfl, fun _ => rfl⟩
    | created _ _ _ _ _ hcreates =>
      cases hcreates with
      | offered => exact ⟨fun _ _ => rfl, fun _ => rfl⟩
  | accept w id playerGuid nowMs =>
    rcases accept_cases c w s id playerGuid nowMs with ⟨reason, -, hr⟩ | ⟨q, q', -, -, hr⟩ <;> simp [managerStep, hr]
  | complete w id playerGuid grant revert nowMs =>
    have hcases := complete_cases c w s id playerGuid grant revert nowMs
    simp only [managerStep]
    generalize completeDynamicQuestForPlayer c w s id playerGuid grant revert nowMs = turnIn at hcases ⊢
    cases hcases <;> exact ⟨fun _ _ => rfl, fun _ => rfl⟩
  | maintain w nowMs =>
    obtain ⟨-, -, -, -, hbus, hlast⟩ := discover_spec c s
    exact ⟨fun _ _ => hbus, fun _ => hlast⟩
  | kill event => exact ⟨fun h => absurd rfl (h event), fun _ => rfl⟩
  | drain nowMs => exact ⟨fun _ h => absurd rfl (h nowMs), fun _ => rfl⟩
  | reclaim w nowMs =>
    refine ⟨fun _ _ => ?_, fun h => absurd rfl (h w nowMs)⟩
    simp only [managerStep, reclaimDynamicQuestsAfterKillCreditLoss]
    split_ifs <;> rfl

/-- The books of the bus after the events of a run. -/
structure BusBooks (tr : Trace) (bus : DynamicQuestKillEventBus) : Prop where
  kept : (drained tr).map Prod.fst ++ bus.pending = kills tr
  numbered : (kills tr).map DynamicQuestKillEvent.eventId =
    (List.range' 1 (kills tr).length).map UInt64.ofNat
  next : bus.nextEventId = UInt64.ofNat ((kills tr).length + 1)

theorem BusBooks.step (h : BusBooks tr s.killEventBus) (c : Settings) (i : ManagerInput) :
    BusBooks (tr ++ [callEvent c s i]) (managerStep c s i).2.killEventBus := by
  obtain ⟨hkept, hnumbered, hnext⟩ := h
  have hother (hkill : ∀ event, i ≠ .kill event) (hdrain : ∀ nowMs, i ≠ .drain nowMs) :
      BusBooks (tr ++ [callEvent c s i]) (managerStep c s i).2.killEventBus := by
    have hk : kills (tr ++ [callEvent c s i]) = kills tr := by
      rw [kills_append]
      cases i <;> first | exact List.append_nil _ | exact absurd rfl (hkill _)
    have hd : drained (tr ++ [callEvent c s i]) = drained tr := by
      rw [drained_append]
      cases i <;> first | exact List.append_nil _ | exact absurd rfl (hdrain _)
    rw [(bus_kept c s i).1 hkill hdrain]
    exact ⟨by rw [hk, hd]; exact hkept, by rw [hk]; exact hnumbered, by rw [hk]; exact hnext⟩
  cases i with
  | kill event =>
    have hd (e : Event DynamicQuestManager ManagerInput ManagerOutput) (he : e.input = .kill event) :
        drained (tr ++ [e]) = drained tr := by
      rw [drained_append]
      simp [drained, he]
    by_cases hroom : s.killEventBus.pending.length < DynamicQuestKillEventBus.maxPendingEvents
    · have hk : kills (tr ++ [callEvent c s (.kill event)]) =
          kills tr ++ [{ event with eventId := s.killEventBus.nextEventId }] := by
        rw [kills_append]
        congr 1
        simp [kills, hroom]
      have hbus : (managerStep c s (.kill event)).2.killEventBus = { s.killEventBus with
          nextEventId := s.killEventBus.nextEventId + 1
          pending := s.killEventBus.pending ++ [{ event with eventId := s.killEventBus.nextEventId }] } := by
        simp [managerStep, DynamicQuestKillEventBus.publish, Nat.not_le.mpr hroom]
      rw [hbus]
      refine ⟨?_, ?_, ?_⟩
      · rw [hd _ rfl, hk, ← hkept, List.append_assoc]
      · have hlast : s.killEventBus.nextEventId = UInt64.ofNat (1 + 1 * (kills tr).length) := by
          rw [hnext, Nat.one_mul, Nat.add_comm]
        rw [hk, List.map_append, hnumbered, List.length_append, List.length_singleton, List.range'_concat,
          List.map_append, List.map_singleton, List.map_singleton, hlast]
      · rw [hk, List.length_append, List.length_singleton]
        show s.killEventBus.nextEventId + 1 = _
        rw [hnext, UInt64.ofNat_add ((kills tr).length + 1) 1]
        rfl
    · have hk : kills (tr ++ [callEvent c s (.kill event)]) = kills tr := by
        rw [kills_append]
        simp [kills, hroom]
      have hbus : (managerStep c s (.kill event)).2.killEventBus =
          { s.killEventBus with droppedEvents := s.killEventBus.droppedEvents + 1 } := by
        simp [managerStep, DynamicQuestKillEventBus.publish, Nat.not_lt.mp hroom]
      rw [hbus]
      exact ⟨by rw [hd _ rfl, hk]; exact hkept, by rw [hk]; exact hnumbered, by rw [hk]; exact hnext⟩
  | drain nowMs =>
    have hk : kills (tr ++ [callEvent c s (.drain nowMs)]) = kills tr := by
      rw [kills_append]
      exact List.append_nil _
    refine ⟨?_, by rw [hk]; exact hnumbered, by rw [hk]; exact hnext⟩
    rw [hk, ← hkept, drained_append]
    simp [drained, managerStep, drainKillEvents, DynamicQuestKillEventBus.drain, Function.comp_def]
  | submit | respond | accept | complete | maintain | reclaim => exact hother (by simp) (by simp)

theorem busBooks_of_run (hrun : (manager c).Run {} tr s) : BusBooks tr s.killEventBus := by
  refine hrun.history (P := fun tr s => BusBooks tr s.killEventBus) (fun tr s i o s' ih hstep => ?_)
    ⟨rfl, rfl, rfl⟩
  obtain ⟨rfl, rfl⟩ := manager_step hstep
  exact ih.step c i

/-- Below the range of the numbers no two kills share one, and none is zero. -/
theorem BusBooks.distinct {bus : DynamicQuestKillEventBus} (h : BusBooks tr bus)
    (hfew : (kills tr).length < 2 ^ 64) :
    ((kills tr).map DynamicQuestKillEvent.eventId).Nodup ∧
      ∀ event ∈ kills tr, event.eventId ≠ 0 := by
  have hsmall (n : ℕ) (hn : n ∈ List.range' 1 (kills tr).length) : (UInt64.ofNat n).toNat = n ∧ n ≠ 0 := by
    rw [List.mem_range'_1] at hn
    exact ⟨UInt64.toNat_ofNat_of_lt (show n < 18446744073709551616 by omega), by omega⟩
  constructor
  · rw [h.numbered]
    refine (List.nodup_range' ..).map_on fun n hn m hm heq => ?_
    rw [← (hsmall n hn).1, ← (hsmall m hm).1, heq]
  · intro event hevent hzero
    have hmem : event.eventId ∈ (kills tr).map DynamicQuestKillEvent.eventId := List.mem_map_of_mem hevent
    rw [h.numbered] at hmem
    obtain ⟨n, hn, heq⟩ := List.mem_map.mp hmem
    rw [hzero] at heq
    have hnat := (hsmall n hn).1
    rw [heq] at hnat
    exact (hsmall n hn).2 hnat.symm

/-! ### What one drain credits -/

/-- A kill that counts for an instance, at the time at which it is processed. -/
def DynamicQuestInstance.Credits (q : DynamicQuestInstance) (kill : DynamicQuestKillEvent × UInt64) : Prop :=
  kill.1.killerGuid = q.acceptedByPlayerGuid ∧ q.objective = .killCreature ∧ kill.1.victimEntry = q.targetEntry ∧
    kill.1.mapId = q.targetMapId ∧ kill.2 < q.expiresAtMs

instance (q : DynamicQuestInstance) : DecidablePred q.Credits := fun _ => inferInstanceAs (Decidable (_ ∧ _))

/-- The numbers of the kills that count for an instance. -/
def DynamicQuestInstance.matching (q : DynamicQuestInstance) (events : List (DynamicQuestKillEvent × UInt64)) :
    List UInt64 :=
  (events.filter fun kill => q.Credits kill).map fun kill => kill.1.eventId

theorem Evolves.matching (h : Evolves q q') (howner : q.acceptedByPlayerGuid ≠ {})
    (events : List (DynamicQuestKillEvent × UInt64)) : q'.matching events = q.matching events := by
  have hsame (kill : DynamicQuestKillEvent × UInt64) : q'.Credits kill ↔ q.Credits kill := by
    have hobjective := h.fixed DynamicQuestInstance.objective fun _ => rfl
    have hentry := h.fixed DynamicQuestInstance.targetEntry fun _ => rfl
    have hmap := h.fixed DynamicQuestInstance.targetMapId fun _ => rfl
    have hexpires := h.fixed DynamicQuestInstance.expiresAtMs fun _ => rfl
    rw [DynamicQuestInstance.Credits, DynamicQuestInstance.Credits, h.owner howner, hobjective, hentry, hmap, hexpires]
  simp only [DynamicQuestInstance.matching, hsame]

theorem countsFor_iff (hq : q.Good) (hactive : q.state = .active) (event : DynamicQuestKillEvent) (nowMs : UInt64) :
    q.Credits (event, nowMs) ↔ q.CountsFor event ∧ isDynamicQuestExpired q nowMs = false := by
  have howner := hq.owned (.inl hactive)
  have hlive : isDynamicQuestExpired q nowMs = false ↔ nowMs < q.expiresAtMs := by
    rw [isDynamicQuestExpired, decide_eq_false_iff_not, UInt64.not_le]
  rw [hlive, DynamicQuestInstance.Credits, DynamicQuestInstance.CountsFor]
  constructor
  · rintro ⟨hkiller, hobjective, hentry, hmap, ht⟩
    exact ⟨⟨by rw [hkiller]; exact howner, hactive, hkiller.symm, hobjective, hentry.symm, hmap.symm⟩, ht⟩
  · rintro ⟨⟨-, -, hkiller, hobjective, hentry, hmap⟩, ht⟩
    exact ⟨hkiller.symm, hobjective, hentry.symm, hmap.symm, ht⟩

/-- A kill that counts takes the next free place, if one is left. -/
theorem credit_one (hq : q.Good) (hactive : q.state = .active) {event : DynamicQuestKillEvent}
    (nowMs : DynamicQuestKillEvent → UInt64) (hzero : event.eventId ≠ 0)
    (hnew : event.eventId ∉ q.consumedProgressEventIds) :
    (q.credit nowMs event).consumedProgressEventIds =
      (q.consumedProgressEventIds ++ q.matching [(event, nowMs event)]).take q.requiredCount.toNat := by
  have hlength : q.consumedProgressEventIds.length ≤ q.requiredCount.toNat := by
    rw [← hq.count]
    exact hq.progress_le
  have hidle : (q.consumedProgressEventIds ++ []).take q.requiredCount.toNat = q.consumedProgressEventIds := by
    rw [List.append_nil, List.take_of_length_le hlength]
  by_cases hcounts : q.CountsFor event
  · rw [DynamicQuestInstance.credit, if_pos hcounts]
    cases hexpired : isDynamicQuestExpired q (nowMs event) with
    | true =>
      have hno : q.matching [(event, nowMs event)] = [] := by
        simp [DynamicQuestInstance.matching, countsFor_iff hq hactive, hexpired]
      rw [hno, hidle]
      simp [DynamicQuestInstance.after, Transition.attempt, applyDynamicQuestProgress, hactive, isTerminal, hexpired,
        reject]
    | false =>
      have hyes : q.matching [(event, nowMs event)] = [event.eventId] := by
        simp [DynamicQuestInstance.matching, countsFor_iff hq hactive, hexpired, hcounts]
      have howner : event.killerGuid = q.acceptedByPlayerGuid := hcounts.2.2.1.symm
      rw [hyes]
      by_cases hfull : q.requiredCount ≤ q.progress
      · have hall : q.consumedProgressEventIds.length = q.requiredCount.toNat := by
          have hle : q.requiredCount.toNat ≤ q.progress.toNat := hfull
          rw [hq.count] at hle
          exact Nat.le_antisymm hlength hle
        rw [List.take_append_of_le_length hall.ge, List.take_of_length_le hlength]
        simp [DynamicQuestInstance.after, Transition.attempt, applyDynamicQuestProgress, hactive, isTerminal, hexpired,
          hzero, howner, hnew, hfull, reject]
      · have hroom : q.consumedProgressEventIds.length < q.requiredCount.toNat := by
          rw [← hq.count]
          exact UInt32.not_le.mp hfull
        rw [List.take_of_length_le (by rw [List.length_append, List.length_singleton]; exact hroom)]
        simp [DynamicQuestInstance.after, Transition.attempt, applyDynamicQuestProgress, hactive, isTerminal, hexpired,
          hzero, howner, hnew, hfull, accepted]
  · have hno : q.matching [(event, nowMs event)] = [] := by
      simp [DynamicQuestInstance.matching, countsFor_iff hq hactive, hcounts]
    rw [DynamicQuestInstance.credit, if_neg hcounts, hno, hidle]

theorem take_take_append {α : Type*} (n : ℕ) (l m : List α) : (l.take n ++ m).take n = (l ++ m).take n := by
  rw [List.take_append, List.take_append, List.take_take, Nat.min_self, List.length_take]
  congr 2
  omega

/-- A drain credits what counts among its kills, up to the required count. -/
theorem credit_foldl (hq : q.Good) (hactive : q.state = .active) (nowMs : DynamicQuestKillEvent → UInt64)
    {events : List DynamicQuestKillEvent} (hids : (events.map DynamicQuestKillEvent.eventId).Nodup)
    (hzero : ∀ event ∈ events, event.eventId ≠ 0)
    (hnew : ∀ event ∈ events, event.eventId ∉ q.consumedProgressEventIds) :
    (events.foldl (fun q event => q.credit nowMs event) q).consumedProgressEventIds =
      (q.consumedProgressEventIds ++ q.matching (events.map fun event => (event, nowMs event))).take
        q.requiredCount.toNat := by
  induction events generalizing q with
  | nil =>
    have hlength : q.consumedProgressEventIds.length ≤ q.requiredCount.toNat := by
      rw [← hq.count]
      exact hq.progress_le
    have hno : q.matching [] = [] := rfl
    rw [List.foldl_nil, List.map_nil, hno, List.append_nil, List.take_of_length_le hlength]
  | cons event events ih =>
    obtain ⟨hid, hids⟩ := List.nodup_cons.mp hids
    obtain ⟨hzero₁, hzero⟩ := List.forall_mem_cons.mp hzero
    obtain ⟨hnew₁, hnew⟩ := List.forall_mem_cons.mp hnew
    have hone := credit_one hq hactive nowMs hzero₁ hnew₁
    obtain ⟨hgood, hev⟩ := credit_evolves hq [event] nowMs
    have hstate := credit_state q [event] nowMs
    rw [List.foldl_cons, List.foldl_nil] at hgood hev hstate
    have howner : q.acceptedByPlayerGuid ≠ {} := ObjectGuid.ne_empty_of_isPlayer (hq.owned (.inl hactive))
    have hrequired := hev.fixed DynamicQuestInstance.requiredCount fun _ => rfl
    have hfresh : ∀ e ∈ events, e.eventId ∉ (q.credit nowMs event).consumedProgressEventIds := by
      intro e he hmem
      rw [hone] at hmem
      rcases List.mem_append.mp (List.mem_of_mem_take hmem) with hmem | hmem
      · exact hnew e he hmem
      · obtain ⟨kill, hkill, heq⟩ := List.mem_map.mp hmem
        rw [List.mem_singleton.mp (List.mem_filter.mp hkill).1] at heq
        exact hid (List.mem_map.mpr ⟨e, he, heq.symm⟩)
    rw [List.foldl_cons, ih hgood (hstate.trans hactive) hids hzero hfresh, hone, hrequired, hev.matching howner,
      take_take_append, List.append_assoc]
    congr 2
    rw [List.map_cons, DynamicQuestInstance.matching, DynamicQuestInstance.matching, DynamicQuestInstance.matching,
      ← List.map_append, ← List.filter_append]
    rfl

/-! ### Quests of a run -/

/-- The call by which a quest's player accepted it. -/
def AcceptedBy (q : DynamicQuestInstance) (e : Event DynamicQuestManager ManagerInput ManagerOutput) : Prop :=
  ∃ w nowMs, e.input = .accept w q.id q.acceptedByPlayerGuid nowMs ∧ e.output.accepted = .none

/-- An accepted quest whose credit is what was handed over since. -/
def Credited (tr : Trace) (q : DynamicQuestInstance) : Prop :=
  ∃ tr₁ e tr₂, tr = tr₁ ++ e :: tr₂ ∧ AcceptedBy q e ∧
    q.consumedProgressEventIds = (q.matching (drained tr₂)).take q.requiredCount.toNat

theorem Evolves.acceptedBy (h : Evolves q q') (howner : q.acceptedByPlayerGuid ≠ {})
    {e : Event DynamicQuestManager ManagerInput ManagerOutput} (he : AcceptedBy q e) : AcceptedBy q' e := by
  rw [AcceptedBy, h.id_eq, h.owner howner]
  exact he

/-- The numbers credited to a quest are of kills that were handed over. -/
theorem mem_drained_of_matching {tr₁ tr₂ : Trace} (htr : tr = tr₁ ++ tr₂)
    {event : UInt64} (h : event ∈ q.matching (drained tr₂)) :
    event ∈ ((drained tr).map Prod.fst).map DynamicQuestKillEvent.eventId := by
  obtain ⟨kill, hkill, rfl⟩ := List.mem_map.mp h
  rw [htr, drained_append]
  exact List.mem_map_of_mem (List.mem_map_of_mem (List.mem_append_right _ (List.mem_filter.mp hkill).1))

theorem Credited.drain (h : Credited tr q) (hq : q.Good) (hactive : q.state = .active)
    (hbooks : BusBooks tr s.killEventBus) (hfew : (kills tr).length < 2 ^ 64)
    (nowMs : DynamicQuestKillEvent → UInt64) {e : Event DynamicQuestManager ManagerInput ManagerOutput}
    (he : drained [e] = s.killEventBus.pending.map fun event => (event, nowMs event)) :
    Credited (tr ++ [e]) (s.killEventBus.pending.foldl (fun q event => q.credit nowMs event) q) := by
  obtain ⟨tr₁, e₀, tr₂, htr, haccepted, hconsumed⟩ := h
  obtain ⟨hnodup, hzero⟩ := hbooks.distinct hfew
  rw [← hbooks.kept, List.map_append] at hnodup
  obtain ⟨-, hids, hdisjoint⟩ := List.nodup_append.mp hnodup
  have hpending (event : DynamicQuestKillEvent) (hevent : event ∈ s.killEventBus.pending) : event ∈ kills tr := by
    rw [← hbooks.kept]
    exact List.mem_append_right _ hevent
  have hnew : ∀ event ∈ s.killEventBus.pending, event.eventId ∉ q.consumedProgressEventIds := by
    intro event hevent hmem
    rw [hconsumed] at hmem
    have hhanded := mem_drained_of_matching (htr.trans (List.append_cons ..)) (List.mem_of_mem_take hmem)
    exact hdisjoint _ hhanded _ (List.mem_map_of_mem hevent) rfl
  have howner : q.acceptedByPlayerGuid ≠ {} := ObjectGuid.ne_empty_of_isPlayer (hq.owned (.inl hactive))
  obtain ⟨-, hev⟩ := credit_evolves hq s.killEventBus.pending nowMs
  refine ⟨tr₁, e₀, tr₂ ++ [e], by rw [htr]; simp, hev.acceptedBy howner haccepted, ?_⟩
  rw [credit_foldl hq hactive nowMs hids (fun event hevent => hzero event (hpending event hevent)) hnew, hconsumed,
    take_take_append, hev.fixed DynamicQuestInstance.requiredCount fun _ => rfl, hev.matching howner, drained_append,
    he]
  congr 1
  rw [DynamicQuestInstance.matching, DynamicQuestInstance.matching, DynamicQuestInstance.matching, ← List.map_append,
    ← List.filter_append]

theorem Credited.extend (h : Credited tr q) {e : Event DynamicQuestManager ManagerInput ManagerOutput}
    (he : drained [e] = []) : Credited (tr ++ [e]) q := by
  obtain ⟨tr₁, e₀, tr₂, htr, haccepted, hconsumed⟩ := h
  refine ⟨tr₁, e₀, tr₂ ++ [e], by rw [htr]; simp, haccepted, ?_⟩
  rw [drained_append, he, List.append_nil, hconsumed]

/-- A quest that stays active through a call, or becomes it. -/
theorem Credited.step (hr : Inv s.registry) (hbooks : BusBooks tr s.killEventBus) (hfew : (kills tr).length < 2 ^ 64)
    (ih : ∀ q, s.registry.quests[k]? = some q → q.state = .active → Credited tr q)
    (hq' : (managerStep c s i).2.registry.quests[k]? = some q') (hactive : q'.state = .active) :
    Credited (tr ++ [callEvent c s i]) q' := by
  have hdrain (nowMs : DynamicQuestKillEvent → UInt64) (hi : i = .drain nowMs) {q : DynamicQuestInstance}
      (hq : s.registry.quests[k]? = some q)
      (hfold : s.killEventBus.pending.foldl (fun q event => q.credit nowMs event) q = q') :
      Credited (tr ++ [callEvent c s i]) q' := by
    have hstate := credit_state q s.killEventBus.pending nowMs
    rw [hfold] at hstate
    have hcredited := ih q hq (hstate.symm.trans hactive)
    rw [← hfold]
    refine hcredited.drain (hr.good k q hq) (hstate.symm.trans hactive) hbooks hfew nowMs ?_
    subst hi
    simp [drained]
  by_cases hi : ∃ nowMs, i = .drain nowMs
  · obtain ⟨nowMs, rfl⟩ := hi
    have hpost : (managerStep c s (.drain nowMs)).2.registry.quests[k]? = _ := drain_getElem? s nowMs k
    rw [hpost, Option.map_eq_some_iff] at hq'
    obtain ⟨q, hq, hfold⟩ := hq'
    exact hdrain nowMs rfl hq hfold
  · have hnone : drained [callEvent c s i] = [] := by
      cases i <;> first | rfl | exact absurd ⟨_, rfl⟩ hi
    have hf := managerStep_fate c hr i k
    rw [hq'] at hf
    generalize hs : s.registry.quests[k]? = x at hf
    cases hf with
    | kept => exact (ih q' hs hactive).extend hnone
    | created _ _ hq =>
      have hoffered := congrArg DynamicQuestInstance.state (offerDynamicQuest_accepted hq).2.2
      rw [hactive] at hoffered
      contradiction
    | @accepted w playerGuid nowMs q _ hinput haccepted _ _ hmove =>
      have hgood := hr.good k q hs
      have hid := hr.id k q hs
      cases hmove with
      | accept hstate =>
        have hempty : q.consumedProgressEventIds = [] := by
          have hcount := hgood.count
          rw [(hgood.offered hstate).2] at hcount
          exact List.length_eq_zero_iff.mp hcount.symm
        refine ⟨tr, _, [], rfl, ⟨w, nowMs, ?_, haccepted⟩, ?_⟩
        · rw [hid]
          exact hinput
        · rw [hempty]
          exact List.take_nil.symm
    | credited hinput => exact absurd ⟨_, hinput⟩ hi

theorem kills_length_le (tr tr' : Trace) : (kills tr).length ≤ (kills (tr ++ tr')).length := by
  rw [kills_append, List.length_append]
  omega

theorem credited_of_run (hrun : (manager c).Run {} tr s) (hfew : (kills tr).length < 2 ^ 64) :
    ∀ (k : UInt64) (q : DynamicQuestInstance),
      s.registry.quests[k]? = some q → q.state = .active → Credited tr q := by
  have hall := hrun.history (P := fun tr s => Accounts c tr s ∧ BusBooks tr s.killEventBus ∧
    ((kills tr).length < 2 ^ 64 → ∀ (k : UInt64) (q : DynamicQuestInstance),
      s.registry.quests[k]? = some q → q.state = .active → Credited tr q)) (fun tr s i o s' ih hstep => ?_)
    ⟨accounts_empty c, ⟨rfl, rfl, rfl⟩, fun _ => by simp⟩
  · exact hall.2.2 hfew
  · obtain ⟨rfl, rfl⟩ := manager_step hstep
    obtain ⟨haccounts, hbooks, hcredited⟩ := ih
    refine ⟨haccounts.step i, hbooks.step c i, fun hfew k q hq hactive => ?_⟩
    have hbefore : (kills tr).length < 2 ^ 64 := Nat.lt_of_le_of_lt (kills_length_le tr _) hfew
    exact Credited.step haccounts.registry hbooks hbefore (hcredited hbefore k) hq hactive

/-- A published quest that had been accepted was credited until it ended. -/
theorem published_credited (hrun : (manager c).Run {} tr s) (hfew : (kills tr).length < 2 ^ 64) {p : Publication}
    (hp : p ∈ publications tr) (howner : p.quest.acceptedByPlayerGuid ≠ {}) :
    ∃ tr₁ tr₂, tr = tr₁ ++ tr₂ ∧ Credited tr₁ p.quest ∧ p.quest.Good := by
  obtain ⟨e, he, hpublished⟩ := List.mem_flatMap.mp hp
  obtain ⟨tr₁, tr₂, rfl, hrun₁, hstep, -⟩ := hrun.at_mem he
  obtain ⟨hout, -⟩ := manager_step hstep
  have hr := (accounts_of_run hrun₁).registry
  rw [← hout] at hpublished
  obtain ⟨q, t, nowMs, location, hq, hmove, hterminal, -⟩ := Fate.publishes (managerStep_fate c hr e.input)
    hpublished
  have hgood := hr.good _ q hq
  have hev := hmove.evolves hgood
  have hactive : q.state = .active ∧ p.quest.consumedProgressEventIds = q.consumedProgressEventIds ∧
      p.quest.acceptedByPlayerGuid = q.acceptedByPlayerGuid := by
    generalize p.quest = q' at hmove hterminal howner
    cases hmove with
    | accept => contradiction
    | applyProgress hstate => rw [hstate] at hterminal; contradiction
    | complete hstate => exact ⟨hstate, rfl, rfl⟩
    | fail hstate => exact ⟨hstate, rfl, rfl⟩
    | expire hopen =>
      rcases isTerminal_eq_false_iff.mp hopen with hstate | hstate
      · exact absurd (hgood.offered hstate).1 howner
      · exact ⟨hstate, rfl, rfl⟩
  obtain ⟨hstate, hconsumed, hsame⟩ := hactive
  rw [hsame] at howner
  obtain ⟨tr₀, e₀, tr₀', htr, haccepted, hcredit⟩ := credited_of_run hrun₁
    (Nat.lt_of_le_of_lt (kills_length_le tr₁ _) hfew) _ q hq hstate
  refine ⟨tr₁, e :: tr₂, rfl, ⟨tr₀, e₀, tr₀', htr, hev.acceptedBy howner haccepted, ?_⟩, hmove.good hgood⟩
  rw [hconsumed, hcredit, hev.matching howner, hev.fixed DynamicQuestInstance.requiredCount fun _ => rfl]

/-! ### Lost kills -/

/-- A kill that the bus dropped. -/
def lost (e : Event DynamicQuestManager ManagerInput ManagerOutput) : Bool :=
  match e.input with
  | .kill _ => DynamicQuestKillEventBus.maxPendingEvents ≤ e.pre.killEventBus.pending.length
  | _ => false

def losses (tr : Trace) : ℕ := tr.countP lost

theorem losses_append (tr tr' : Trace) : losses (tr ++ tr') = losses tr + losses tr' := List.countP_append

theorem losses_singleton (e : Event DynamicQuestManager ManagerInput ManagerOutput) :
    losses [e] = if lost e then 1 else 0 := List.countP_singleton ..

theorem dropped_step (c : Settings) (s : DynamicQuestManager) (i : ManagerInput) :
    (managerStep c s i).2.killEventBus.droppedEvents = s.killEventBus.droppedEvents +
      UInt64.ofNat (losses [callEvent c s i]) := by
  rw [losses_singleton]
  cases i with
  | kill event =>
    simp only [managerStep, DynamicQuestKillEventBus.publish, lost, decide_eq_true_eq]
    split_ifs
    · rfl
    · exact (UInt64.add_zero _).symm
  | drain nowMs => exact (UInt64.add_zero _).symm
  | submit | respond | accept | complete | maintain | reclaim =>
    rw [(bus_kept c s _).1 (by simp) (by simp)]
    exact (UInt64.add_zero _).symm

theorem reclaim_last (c : Settings) (s : DynamicQuestManager) (w : World) (nowMs : UInt64) :
    (managerStep c s (.reclaim w nowMs)).2.lastObservedKillDropCount =
      if s.killEventBus.droppedEvents ≤ s.lastObservedKillDropCount then s.lastObservedKillDropCount
      else s.killEventBus.droppedEvents := by
  simp only [managerStep, reclaimDynamicQuestsAfterKillCreditLoss]
  split_ifs <;> rfl

theorem losses_of_run (hrun : (manager c).Run {} tr s) (hfew : losses tr < 2 ^ 64) :
    s.killEventBus.droppedEvents.toNat = losses tr ∧
      s.lastObservedKillDropCount ≤ s.killEventBus.droppedEvents := by
  refine hrun.history (P := fun tr s => losses tr < 2 ^ 64 → s.killEventBus.droppedEvents.toNat = losses tr ∧
    s.lastObservedKillDropCount ≤ s.killEventBus.droppedEvents) (fun tr s i o s' ih hstep hfew => ?_)
    (fun _ => ⟨rfl, UInt64.le_refl _⟩) hfew
  obtain ⟨rfl, rfl⟩ := manager_step hstep
  rw [losses_append] at hfew ⊢
  obtain ⟨hcount, hlast⟩ := ih (by omega)
  change losses tr + losses [callEvent c s i] < 2 ^ 64 at hfew
  change _ = losses tr + losses [callEvent c s i] ∧ _
  have hone : losses [callEvent c s i] < 2 ^ 64 := by omega
  have hnext : (managerStep c s i).2.killEventBus.droppedEvents.toNat = losses tr + losses [callEvent c s i] := by
    rw [dropped_step, UInt64.toNat_add, hcount, UInt64.toNat_ofNat', Nat.mod_eq_of_lt hone]
    exact Nat.mod_eq_of_lt hfew
  refine ⟨hnext, ?_⟩
  rw [UInt64.le_iff_toNat_le] at hlast ⊢
  rw [hnext]
  by_cases hi : ∃ w nowMs, i = .reclaim w nowMs
  · obtain ⟨w, nowMs, rfl⟩ := hi
    rw [reclaim_last]
    split_ifs <;> omega
  · rw [(bus_kept c s i).2 fun w nowMs h => hi ⟨w, nowMs, h⟩]
    omega

theorem last_of_run {m : DynamicQuestManager} (hrun : (manager c).Run m tr s)
    (hno : ∀ e ∈ tr, ∀ w nowMs, e.input ≠ .reclaim w nowMs) :
    s.lastObservedKillDropCount = m.lastObservedKillDropCount := by
  induction hrun with
  | nil => rfl
  | cons hstep _ ih =>
    obtain ⟨hfirst, hrest⟩ := List.forall_mem_cons.mp hno
    obtain ⟨-, rfl⟩ := manager_step hstep
    rw [ih hrest, (bus_kept c _ _).2 hfirst]

/-- A reclaim that sees a loss fails every active quest that still could, and keeps none of them. -/
theorem reclaim_spec (hr : Inv s.registry) (w : World) (nowMs : UInt64)
    (hseen : s.lastObservedKillDropCount < s.killEventBus.droppedEvents) :
    (∀ (k : UInt64) (q : DynamicQuestInstance),
      (managerStep c s (.reclaim w nowMs)).2.registry.quests[k]? = some q → q.state = .active →
        q.expiresAtMs ≤ nowMs) ∧
      ∀ (k : UInt64) (q : DynamicQuestInstance), s.registry.quests[k]? = some q → q.state = .active →
        nowMs < q.expiresAtMs → ∃ p ∈ (managerStep c s (.reclaim w nowMs)).1.published,
          p.quest = { q with state := .failed } := by
  simp only [managerStep, reclaimDynamicQuestsAfterKillCreditLoss, if_neg (UInt64.not_le.mpr hseen),
    forceFailAllActiveDynamicQuests, failAll_eq]
  obtain ⟨hpublished, hquests⟩ := removeFailed_foldl w
    (s.registry.getAllActiveIds.filterMap (s.registry.failing nowMs)) ([], s.registry.failAll nowMs)
  rw [hpublished]
  constructor
  · intro k q hq hactive
    rw [hquests, reclaim_getElem? hr] at hq
    split_ifs at hq with hgone
    by_contra hlive
    refine hgone ⟨mem_getAllActiveIds.mpr ⟨q, hq, hactive⟩, ?_⟩
    have hdue : isDynamicQuestExpired q nowMs = false := decide_eq_false hlive
    rw [judged, hq, Option.bind_some, DynamicQuestInstance.failing, if_pos ⟨hactive, hdue⟩]
    rfl
  · intro k q hq hactive hlive
    have hdue : isDynamicQuestExpired q nowMs = false := decide_eq_false (UInt64.not_le.mpr hlive)
    obtain ⟨event, -, hlist⟩ := publish_terminal (q := { q with state := .failed }) rfl
      (resolveDynamicQuestOutcomeLocation w { q with state := .failed })
    refine ⟨⟨{ q with state := .failed }, event⟩, ?_, rfl⟩
    rw [List.nil_append, List.mem_flatMap]
    refine ⟨{ q with state := .failed }, List.mem_filterMap.mpr ⟨k, mem_getAllActiveIds.mpr ⟨q, hq, hactive⟩, ?_⟩, ?_⟩
    · rw [failing_eq_judged, judged, hq, Option.bind_some, DynamicQuestInstance.failing, if_pos ⟨hactive, hdue⟩]
    · rw [hlist]
      exact List.mem_singleton.mpr rfl

/-! ### The contract -/

/-- Kills fill the bus and leave the quests alone. -/
theorem fill_bus (c : Settings) (n : ℕ) (s : DynamicQuestManager)
    (hn : s.killEventBus.pending.length + n ≤ DynamicQuestKillEventBus.maxPendingEvents) :
    ∃ tr s', (manager c).Run s tr s' ∧ s'.killEventBus.pending.length = s.killEventBus.pending.length + n ∧
      s'.registry = s.registry ∧ losses tr = 0 := by
  induction n generalizing s with
  | zero => exact ⟨[], s, .nil s, rfl, rfl, rfl⟩
  | succ n ih =>
    have hroom : ¬ DynamicQuestKillEventBus.maxPendingEvents ≤ s.killEventBus.pending.length := by omega
    have hlength : (managerStep c s (.kill {})).2.killEventBus.pending.length =
        s.killEventBus.pending.length + 1 := by
      simp [managerStep, DynamicQuestKillEventBus.publish, hroom]
    obtain ⟨tr, s', hrun, hpending, hregistry, hlosses⟩ := ih (managerStep c s (.kill {})).2 (by omega)
    refine ⟨_ :: tr, s', .cons (i := .kill {}) (o := {}) rfl hrun, by omega, hregistry, ?_⟩
    rw [← List.singleton_append, losses_append, losses_singleton, hlosses, lost, decide_eq_false hroom]
    rfl

end AIWorld.Quest
