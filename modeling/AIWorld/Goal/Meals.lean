import AIWorld.Goal.AgentRuns

/-! What an agent eats. A hunger that becomes a goal begins at most one way to food, a way ends in at most one arrival,
and an arrival is used up by the next pass; so an agent never eats more often than it set out. -/

namespace AIWorld.Goal

open AIWorld.Action (ActionRequest ActionValidationContext SimulationScope)
open Lib (Machine)

variable {c : NeedsConfig} {t : NeedsTick} {a : Actor} {s : AgentState} {r r' : AgentRecord} {b : Body}
  {g : GroupCoordinationGoal} {selection : GoalSelectionResult}

/-! ### On the way to food -/

/-- The agent is on its way to food, or has just come there. -/
def fetching (r : AgentRecord) : Bool :=
  r.pendingEat.isSome || r.activeActionState.any (·.sourceGoal = .getFood)

theorem fetching_iff : fetching r = true ↔ r.pendingEat.isSome = true ∨
    ∃ action, r.activeActionState = some action ∧ action.sourceGoal = .getFood := by
  rw [fetching, Bool.or_eq_true, Option.any_eq_true]
  simp only [decide_eq_true_eq]

/-- One record fetches food only if the other does. -/
def Fetches (r r' : AgentRecord) : Prop := fetching r' = true → fetching r = true

theorem Fetches.refl (r : AgentRecord) : Fetches r r := id

theorem Fetches.trans {r'' : AgentRecord} (h : Fetches r r') (h' : Fetches r' r'') : Fetches r r'' := fun h'' => h (h' h'')

theorem fetches_of (hpending : r'.pendingEat = r.pendingEat) (haction : ∀ action, r'.activeActionState = some action →
    r.activeActionState = some action ∨ action.sourceGoal ≠ .getFood) : Fetches r r' := by
  intro h
  rw [fetching_iff] at h ⊢
  rcases h with h | ⟨action, hsome, hfood⟩
  · exact .inl (hpending ▸ h)
  · exact .inr ⟨action, (haction action hsome).resolve_right fun hno => hno hfood, hfood⟩

theorem fetches_idle (hpending : r'.pendingEat = r.pendingEat) (haction : r'.activeActionState = none) : Fetches r r' := by
  refine fetches_of hpending fun action hsome => ?_
  rw [haction] at hsome
  contradiction

theorem fetches_same (hpending : r'.pendingEat = r.pendingEat) (haction : r'.activeActionState = r.activeActionState) :
    Fetches r r' := by
  refine fetches_of hpending fun action hsome => .inl ?_
  rw [← haction]
  exact hsome

/-- Whoever arrives at food was on its way there. -/
theorem completed_fetches {completion : ActionCompletion} (hsource : completion.sourceGoal = .getFood →
    completion.type = .moveTo → fetching r = true) : Fetches r (handleActionCompletion r completion) := by
  intro h
  rw [fetching_iff] at h
  rcases h with h | ⟨action, hsome, -⟩
  · unfold handleActionCompletion at h
    dsimp only at h
    split_ifs at h with hfood
    · exact hsource hfood.2.2 hfood.1
    · exact fetching_iff.mpr (.inl h)
  · contradiction

theorem event_fetches (nowMs : UInt64) (event : ActionEngineEvent) :
    Fetches r (processActionEngineEvent nowMs r event) := by
  unfold processActionEngineEvent
  split_ifs
  · exact .refl r
  · exact .refl r
  · split
    · exact .refl r
    · rename_i action haction
      split_ifs
      · exact .refl r
      · exact completed_fetches fun hfood _ => fetching_iff.mpr (.inr ⟨action, haction, hfood⟩)

theorem events_fetches (nowMs : UInt64) (events : List ActionEngineEvent) :
    Fetches r (events.foldl (processActionEngineEvent nowMs) r) := by
  induction events generalizing r with
  | nil => exact .refl r
  | cons event events ih => exact (event_fetches nowMs event).trans ih

/-! ### No group sends an agent to food -/

theorem bindCreature_fetches : Fetches r (bindCreature r b) := by
  unfold bindCreature
  split_ifs
  · exact .refl r
  · exact fetches_same rfl rfl

theorem GroupMove.fetches (h : GroupMove r r') : Fetches r r' := by
  cases h with
  | same => exact .refl r
  | bound b => exact bindCreature_fetches
  | unbound => exact fetches_same rfl rfl
  | refused goal => exact fetches_same rfl rfl
  | ended stop => exact fetches_same rfl rfl
  | stopped stop => exact fetches_idle rfl rfl
  | completed completion hsource =>
    refine completed_fetches fun hfood _ => ?_
    rw [hfood] at hsource
    contradiction
  | joined goal action hsource =>
    refine fetches_of rfl fun action' hsome => .inr fun hfood => ?_
    rw [← Option.some.inj hsome] at hfood
    rw [hfood] at hsource
    contradiction

theorem groupSteps_fetches (scope : SimulationScope) (steps : List GroupStep) :
    Fetches s.record (steps.foldl (groupStep scope) s).record := by
  induction steps generalizing s with
  | nil => exact .refl _
  | cons step steps ih => exact (groupStep_moves scope step).fetches.trans ih

/-! ### A pass -/

theorem reconcileMovement_fetches : Fetches a.record (reconcileMovement t a).record := by
  unfold reconcileMovement
  split
  · rename_i action haction
    split_ifs
    · exact completed_fetches fun hfood _ => fetching_iff.mpr (.inr ⟨action, haction, hfood⟩)
    · exact .refl _
  · exact .refl _

theorem yield_fetches (selection : GoalSelectionResult) : Fetches a.record
    (preemptCoordination t (preemptRoutine (deriveRoutine c t (commitGoal selection a)))).record := by
  have hcommit : Fetches a.record (deriveRoutine c t (commitGoal selection a)).record := by
    unfold deriveRoutine commitGoal
    dsimp only
    split_ifs
    · exact fetches_idle rfl rfl
    · exact fetches_same rfl rfl
    · exact fetches_idle rfl rfl
    · exact fetches_same rfl rfl
  have hroutine : Fetches (deriveRoutine c t (commitGoal selection a)).record
      (preemptRoutine (deriveRoutine c t (commitGoal selection a))).record := by
    unfold preemptRoutine
    split_ifs
    · exact fetches_idle rfl rfl
    · exact .refl _
  refine (hcommit.trans hroutine).trans ?_
  unfold preemptCoordination preemptInFlightGroupCoordination
  dsimp only
  split
  · exact .refl _
  · split_ifs
    · exact (endCoordination_moves (s := ⟨_, some _⟩) _ _ t.nowMs).fetches
    · exact .refl _

theorem startMove_fetches {goal : Action.GoalType} (startedAtMs : UInt64) (destination : Agent.ActionPosition Float32)
    (hgoal : goal ≠ .getFood) : Fetches a.record (startMove c t goal startedAtMs destination a).record := by
  rcases startMove_cases (c := c) (t := t) (a := a) goal startedAtMs destination with hnot | ⟨-, -, -, -, hbegun⟩
  · rw [hnot]
    exact .refl _
  · rw [hbegun]
    refine fetches_of rfl fun action hsome => .inr ?_
    rw [← Option.some.inj hsome]
    exact hgoal

theorem commute_fetches (hroutine : ∀ goal, a.record.routineGoalState = some goal →
    isRoutineSourceGoal goal.type = true) : Fetches a.record (commute c t a).record := by
  have hstop : Fetches a.record (stopOldRoutine a).record := by
    unfold stopOldRoutine
    split_ifs
    · exact fetches_idle rfl rfl
    · exact .refl _
  unfold commute
  split
  · rename_i goal hgoal
    dsimp only
    split_ifs
    · exact .refl _
    · exact hstop
    · refine hstop.trans (startMove_fetches t.nowMs goal.target.position fun hfood => ?_)
      have hno := hroutine goal hgoal
      rw [hfood] at hno
      contradiction
    · exact .refl _
  · exact .refl _

theorem routineActivity_fetches (hroutine : ∀ goal, a.record.routineGoalState = some goal →
    isRoutineSourceGoal goal.type = true) : Fetches a.record (routineActivity c t a).2.record := by
  unfold routineActivity
  dsimp only
  split_ifs
  · exact .refl _
  · split
    · rename_i activity routine hderived hgoal
      obtain ⟨economy, hrecord⟩ := beginActivity_record (c := c) (t := t) activity routine
        (settled_of_derived t.nowMs hderived).idle (hroutine routine hgoal)
      rw [hrecord]
      exact fetches_same rfl rfl
    · exact fetches_same rfl rfl

/-- A meal needs an arrival, and a goal for it. -/
theorem consumePendingEat_meal {pending : PendingEatContinuation} (h : (consumePendingEat c t a).1 = some pending) :
    a.record.pendingEat = some pending ∧ a.record.activeGoalState.isSome = true ∧
      (consumePendingEat c t a).2.record.needs.hunger = 0 := by
  unfold consumePendingEat at h ⊢
  split at h
  · contradiction
  · rename_i arrived harrived
    rw [harrived]
    dsimp only at h ⊢
    split at h
    · rename_i goal hgoal
      rw [hgoal]
      split_ifs at h ⊢
      · unfold tryEat at h ⊢
        split_ifs at h ⊢
        · exact ⟨h, rfl, rfl⟩
    · contradiction

/-- An arrival is at most one meal, and is used up. -/
theorem consumePendingEat_fetching (h : Acting selection a) :
    (consumePendingEat c t a).1.isSome.toNat + (fetching (consumePendingEat c t a).2.record).toNat ≤
      (fetching a.record).toNat := by
  obtain ⟨needs, hrecord⟩ := consumePendingEat_record (c := c) (t := t) h
  have hkept : Fetches a.record (consumePendingEat c t a).2.record := by
    intro hfetching
    rw [hrecord, fetching_iff] at hfetching
    rcases hfetching with hno | haction
    · contradiction
    · exact fetching_iff.mpr (.inr haction)
  cases hmeal : (consumePendingEat c t a).1 with
  | none =>
    cases hfetching : fetching (consumePendingEat c t a).2.record with
    | false => exact Nat.zero_le _
    | true => rw [hkept hfetching]; decide
  | some pending =>
    obtain ⟨hpending, hgoal, -⟩ := consumePendingEat_meal hmeal
    have hidle := h.hungry (by rw [hpending]; rfl) hgoal
    have hdone : fetching (consumePendingEat c t a).2.record = false := by
      rw [hrecord]
      refine Bool.eq_false_iff.mpr fun hfetching => ?_
      rcases fetching_iff.mp hfetching with hno | ⟨action, haction, -⟩
      · contradiction
      · rw [show a.record.activeActionState = some action from haction] at hidle
        contradiction
    have hbefore : fetching a.record = true := fetching_iff.mpr (.inl (by rw [hpending]; rfl))
    rw [hdone, hbefore]
    exact le_refl 1

/-- A way to food begins only for a hunger that was just felt, and is counted. -/
theorem beginFoodMove_fetching (h : Acting selection a) (hno : a.record.pendingEat = none) :
    (fetching (beginFoodMove c t selection a).record).toNat ≤ (fetching a.record).toNat +
      ((beginFoodMove c t selection a).record.activeActionState.isSome && a.record.activeActionState.isNone).toNat := by
  by_cases hnew : (beginFoodMove c t selection a).record.activeActionState.isSome = true ∧
      a.record.activeActionState.isNone = true
  · rw [hnew.1, hnew.2]
    exact le_trans (Bool.toNat_le _) (Nat.le_add_left _ _)
  · refine le_trans ?_ (Nat.le_add_right _ _)
    have hkept : Fetches a.record (beginFoodMove c t selection a).record := by
      intro hfetching
      rcases fetching_iff.mp hfetching with hpending | ⟨action, haction, hfood⟩
      · rw [beginFoodMove_kept.1, hno] at hpending
        contradiction
      · have hsome : a.record.activeActionState.isSome = true := by
          by_contra hnone
          refine hnew ⟨by rw [haction]; rfl, ?_⟩
          simpa using hnone
        obtain ⟨old, hold⟩ := Option.isSome_iff_exists.mp hsome
        have hplaced := (beginFoodMove_acting (c := c) (t := t) h hno).placed
        cases hplaced.owner action haction with
        | need hgoal _ _ _ _ =>
          rw [beginFoodMove_kept.2.2.1] at hgoal
          cases h.placed.owner old hold with
          | need _ _ holdfood _ _ => exact fetching_iff.mpr (.inr ⟨old, hold, holdfood⟩)
          | routine hfree _ _ _ => rw [hgoal] at hfree; contradiction
          | group hfree _ _ _ => rw [hgoal] at hfree; contradiction
        | routine _ hgoal hsource _ =>
          have hroutine := (hplaced.routine _ hgoal).1
          rw [← hsource, hfood] at hroutine
          contradiction
        | group _ _ hg hpursues =>
          have hcoordination := hpursues.coordination (hplaced.group _ hg).1
          rw [hfood] at hcoordination
          contradiction
    cases hfetching : fetching (beginFoodMove c t selection a).record with
    | false => exact Nat.zero_le _
    | true => rw [hkept hfetching]

theorem beginFoodMove_activated (h : ((beginFoodMove c t selection a).record.activeActionState.isSome &&
    a.record.activeActionState.isNone) = true) : selection.transition = .activated := by
  by_contra hnot
  have hsame : beginFoodMove c t selection a = a := by
    unfold beginFoodMove
    split
    · rw [if_neg fun hbegin => hnot hbegin.1]
    · rfl
  rw [hsame] at h
  cases haction : a.record.activeActionState <;> rw [haction] at h <;> contradiction

theorem fetches_toNat (h : Fetches r r') : (fetching r').toNat ≤ (fetching r).toNat := by
  cases hfetching : fetching r' with
  | false => exact Nat.zero_le _
  | true => rw [h hfetching]

/-- What a pass tells of food. -/
structure Fed (report : NeedsReport) (old new : AgentRecord) : Prop where
  spent : report.meal.isSome.toNat + (fetching new).toNat ≤ (fetching old).toNat + report.foodMove.toNat
  activated : report.foodMove = true → report.transition = .activated
  sated : report.meal.isSome = true → new.needs.hunger = 0

theorem beginFoodMove_needs : (beginFoodMove c t selection a).record.needs = a.record.needs := by
  unfold beginFoodMove
  split
  · rename_i goal target _ _
    split_ifs
    · rcases startMove_cases (c := c) (t := t) (a := a) goal.type goal.startedAtMs target.position with
        hnot | ⟨-, -, -, -, hbegun⟩
      · rw [hnot]
      · rw [hbegun]
    · rfl
  · rfl

theorem act_fed (h : Owned a.record) (hm : Moving a.record a.body) (hs : Selects a.record.activeGoalState selection) :
    Fed (act c t selection a).1 a.record (act c t selection a).2.record := by
  have hsettled := commute_settled (c := c) (t := t) h hm hs
  obtain ⟨hworked, -, -⟩ := routineActivity_acting (c := c) (t := t) hsettled
  have hyield := fetches_toNat (yield_fetches (c := c) (t := t) (a := a) selection)
  have hcommute := fetches_toNat (commute_fetches (c := c) (t := t) fun goal hgoal =>
    ((yield_tiered (c := c) (t := t) h hm hs).1.claimed.routine goal hgoal).1)
  have hactivity := fetches_toNat (routineActivity_fetches (c := c) (t := t) fun goal hgoal =>
    (hsettled.placed.routine goal hgoal).1)
  have hmeal := consumePendingEat_fetching (c := c) (t := t) hworked
  unfold act
  dsimp only
  set worked := (routineActivity c t (commute c t (preemptCoordination t (preemptRoutine
    (deriveRoutine c t (commitGoal selection a)))))).2 with hworkeddef
  set fed := (consumePendingEat c t worked).2 with hfeddef
  obtain ⟨hfled, hno⟩ := beginFlight_fed (c := c) (t := t) hworked (capturedFleeSource selection a fed)
  have htrip := beginFoodMove_fetching (c := c) (t := t) hfled hno
  rw [beginFlight_record, ← hfeddef] at htrip
  refine ⟨?_, fun hmove => beginFoodMove_activated hmove, fun hate => ?_⟩
  · rw [beginFlight_record]
    dsimp only
    omega
  · obtain ⟨pending, hpending⟩ := Option.isSome_iff_exists.mp hate
    rw [beginFoodMove_needs, beginFlight_record]
    exact (consumePendingEat_meal hpending).2.2

theorem needsPass_fed (h : InStep s) : Fed (needsPass c t s).1 s.record (needsPass c t s).2.record := by
  unfold needsPass
  split
  · exact ⟨Nat.zero_le _, fun hno => by contradiction, fun hno => by contradiction⟩
  · rename_i b hb
    dsimp only
    have howned : Owned (updateNeeds c t ⟨bindCreature s.record b, b⟩).record :=
      (bindCreature_owned h.owned).same ⟨rfl, rfl, rfl, rfl, rfl, rfl, rfl⟩ rfl rfl
    have hmoving : Moving (updateNeeds c t ⟨bindCreature s.record b, b⟩).record b :=
      (bindCreature_moving (h.moving b hb)).of_eq rfl rfl rfl
    split_ifs with halive
    · obtain ⟨hreconciled, hstep⟩ := reconcileMovement_owned (t := t)
        (a := updateNeeds c t ⟨bindCreature s.record b, b⟩) howned hmoving
      have hfed := act_fed (c := c) (t := t) hreconciled hstep (goal_selects (c := c) (t := t) hreconciled.goal)
      have hfelt : Fetches s.record (updateNeeds c t ⟨bindCreature s.record b, b⟩).record :=
        bindCreature_fetches.trans (fetches_same rfl rfl)
      have hbefore := fetches_toNat (hfelt.trans (reconcileMovement_fetches (t := t)))
      exact ⟨le_trans hfed.spent (Nat.add_le_add_right hbefore _), hfed.activated, hfed.sated⟩
    · exact ⟨Nat.zero_le _, fun hno => by contradiction, fun hno => by contradiction⟩

/-! ### Every run -/

theorem step_fed {w w' : AgentWorld} {input : AgentInput} {report : NeedsReport} (h : Consistent w)
    (hstep : agentStep c w input = some (report, w')) : Fed report w.agent.record w'.agent.record := by
  have hquiet {r : AgentRecord} (hr : Fetches w.agent.record r) : Fed {} w.agent.record r :=
    ⟨(Nat.zero_add _).trans_le (fetches_toNat hr), fun hno => by contradiction, fun hno => by contradiction⟩
  cases input with
  | engine body =>
    simp only [agentStep, Option.ite_none_right_eq_some, Option.some.injEq, Prod.mk.injEq] at hstep
    obtain ⟨-, rfl, rfl⟩ := hstep
    exact hquiet (.refl _)
  | inform event taken =>
    simp only [agentStep, Option.map_eq_some_iff, Prod.mk.injEq] at hstep
    obtain ⟨b, -, rfl, rfl⟩ := hstep
    exact hquiet (.refl _)
  | update u =>
    simp only [agentStep, Option.some.injEq] at hstep
    have hled := groupSteps_inStep c.scope u.steps (events_inStep u.nowMs w.events h.agent h.reported)
    have hfetches : Fetches w.agent.record (u.steps.foldl (groupStep c.scope) { w.agent with
        record := w.events.foldl (processActionEngineEvent u.nowMs) w.agent.record }).record :=
      (events_fetches u.nowMs w.events).trans (groupSteps_fetches (s := { w.agent with
        record := w.events.foldl (processActionEngineEvent u.nowMs) w.agent.record }) c.scope u.steps)
    cases htick : u.tick with
    | none =>
      simp only [updateAgent, htick, Prod.mk.injEq] at hstep
      obtain ⟨rfl, rfl⟩ := hstep
      exact hquiet hfetches
    | some t =>
      have hfed := needsPass_fed (c := c) (t := t) hled
      simp only [updateAgent, htick, Prod.mk.injEq] at hstep
      obtain ⟨rfl, rfl⟩ := hstep
      exact ⟨le_trans hfed.spent (Nat.add_le_add_right (fetches_toNat hfetches) _), hfed.activated, hfed.sated⟩
  | store i =>
    simp only [agentStep, Option.map_eq_some_iff, Prod.mk.injEq] at hstep
    obtain ⟨-, -, rfl, rfl⟩ := hstep
    exact hquiet (.refl _)
  | restart =>
    simp only [agentStep, Option.some.injEq, Prod.mk.injEq] at hstep
    obtain ⟨rfl, rfl⟩ := hstep
    exact hquiet fun hno => by contradiction

/-- Hunger comes fast here, and there is food nearby. -/
def hungryConfig : NeedsConfig where
  needsRates := { hungerPerSecond := 1 }
  foodTargetConfig := { enabled := true, x := 20 }

/-- The agent grows hungry, goes to the food, and arrives. -/
def sampleHunger : List AgentInput :=
  [.engine (some sampleBody), .update { nowMs := 1000, steps := [], tick := some { nowMs := 1000, elapsedMs := 1000 } },
    .engine (some { sampleBody with x := 20, ownMoveTo := true }),
    .inform ⟨⟨7⟩, pointMotionType, movePointId, 20, 0, 0⟩ true,
    .update { nowMs := 5000, steps := [], tick := some { nowMs := 5000 } }]

end AIWorld.Goal
