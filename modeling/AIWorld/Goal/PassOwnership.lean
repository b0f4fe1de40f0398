import AIWorld.Action.Authority
import AIWorld.Goal.SlotOwnership

/-! Whose action runs, from one pass to the next. Once the lower tiers have yielded, the way of the day begins only
for an agent without a goal and without a group, work and rest only for one that stands still, and flight and the
way to food only for the goal that was just chosen. So the action of an agent has its owner after the pass, when it
had one before. -/

namespace AIWorld.Goal

open AIWorld.Action (ActionRequest validate validate_allowed_iff)
open AIWorld.Agent (ActionPosition)
open Quest (ObjectGuid)

variable {c : NeedsConfig} {t : NeedsTick} {a : Actor} {r r' : AgentRecord} {b : Body} {action : ActiveAction}
  {selection : GoalSelectionResult}

/-! ### What the invariant looks at -/

/-- Two records of one agent that pursues and does the same. -/
structure Same (r r' : AgentRecord) : Prop where
  control : r'.controlMode = r.controlMode
  home : r'.homeLocation = r.homeLocation
  work : r'.workLocation = r.workLocation
  goal : r'.activeGoalState = r.activeGoalState
  routine : r'.routineGoalState = r.routineGoalState
  group : r'.groupCoordinationGoalState = r.groupCoordinationGoalState
  action : r'.activeActionState = r.activeActionState

theorem Owner.same (howner : Owner r action) (h : Same r r') : Owner r' action := by
  cases howner with
  | need hgoal htype hsource hstarted hmove => exact .need (h.goal.trans hgoal) htype hsource hstarted hmove
  | routine hfree hgoal hsource hmove => exact .routine (h.goal.trans hfree) (h.routine.trans hgoal) hsource hmove
  | group hfree hidle hgoal hpursues =>
    exact .group (h.goal.trans hfree) (h.routine.trans hidle) (h.group.trans hgoal) hpursues

theorem Claimed.same (hclaimed : Claimed r) (h : Same r r') : Claimed r' where
  goal := by rw [h.goal]; exact hclaimed.goal
  routine := by rw [h.routine, h.home, h.work]; exact hclaimed.routine
  action := by rw [h.action, h.goal, h.group]; exact hclaimed.action
  group := by rw [h.action, h.group]; exact hclaimed.group
  controlled := by rw [h.action, h.group, h.control]; exact hclaimed.controlled
  located := by rw [h.action, h.home, h.work]; exact hclaimed.located

theorem Placed.same (hplaced : Placed r) (h : Same r r') : Placed r' where
  toClaimed := hplaced.toClaimed.same h
  owner := by
    intro action haction
    rw [h.action] at haction
    exact (hplaced.owner action haction).same h
  member := by rw [h.group, h.goal, h.routine]; exact hplaced.member

theorem Settled.same {activity : RoutineActivity} (hsettled : Settled r activity) (h : Same r r') :
    Settled r' activity where
  free := h.goal.trans hsettled.free
  idle := h.action.trans hsettled.idle
  place := by rw [h.routine]; exact hsettled.place

theorem Owned.same (howned : Owned r) (h : Same r r') (hpending : r'.pendingEat = r.pendingEat)
    (hactivity : r'.routineActivityState = r.routineActivityState) : Owned r' where
  toPlaced := howned.toPlaced.same h
  arrival := by rw [hpending, h.action, h.goal]; exact howned.arrival
  activity := by
    intro activity hsome
    rw [hactivity] at hsome
    exact (howned.activity activity hsome).same h

/-- The claim that an owner has on an action. -/
theorem Owner.claim (h : Owner r action) (hroutine : ∀ goal, r.routineGoalState = some goal →
      isRoutineSourceGoal goal.type = true) :
    action.type = .moveTo ∧ action.sourceGoal = .getFood ∧
        (∃ goal, r.activeGoalState = some goal ∧ goal.type = .getFood ∧ action.goalStartedAtMs = goal.startedAtMs) ∨
      action.type = .moveTo ∧ isRoutineSourceGoal action.sourceGoal = true ∨
      ∃ g, r.groupCoordinationGoalState = some g ∧ Pursues g action := by
  cases h with
  | need hgoal htype hsource hstarted hmove => exact .inl ⟨hmove, hsource, _, hgoal, htype, hstarted⟩
  | routine _ hgoal hsource hmove => exact .inr (.inl ⟨hmove, hsource ▸ hroutine _ hgoal⟩)
  | group _ _ hgoal hpursues => exact .inr (.inr ⟨_, hgoal, hpursues⟩)

/-- An agent outside any group whose action, if it has one, has an owner. -/
theorem placed_of_ungrouped (hgoal : ∀ goal, r.activeGoalState = some goal → Proper goal)
    (hroutine : ∀ goal, r.routineGoalState = some goal →
      isRoutineSourceGoal goal.type = true ∧ r.homeLocation.isSome ∧ r.workLocation.isSome)
    (hgroup : r.groupCoordinationGoalState = none)
    (howner : ∀ action, r.activeActionState = some action → Owner r action)
    (hcontrolled : r.activeActionState.isSome → r.controlMode = .aiWorldControlled) : Placed r where
  goal := hgoal
  routine := hroutine
  action := fun action haction => (howner action haction).claim fun goal h => (hroutine goal h).1
  group := by
    rw [hgroup]
    intro g h
    contradiction
  controlled := by
    rw [hgroup]
    rintro (h | h)
    · exact hcontrolled h
    · contradiction
  located := by
    intro action haction hsource
    cases howner action haction with
    | need _ _ hfood =>
      rw [hfood] at hsource
      contradiction
    | routine _ hroutinegoal => exact (hroutine _ hroutinegoal).2
    | group _ _ hg =>
      rw [hgroup] at hg
      contradiction
  owner := howner
  member := by
    rw [hgroup]
    intro h
    contradiction

theorem placed_of_idle (hgoal : ∀ goal, r.activeGoalState = some goal → Proper goal)
    (hroutine : ∀ goal, r.routineGoalState = some goal →
      isRoutineSourceGoal goal.type = true ∧ r.homeLocation.isSome ∧ r.workLocation.isSome)
    (hgroup : r.groupCoordinationGoalState = none) (haction : r.activeActionState = none) : Placed r := by
  refine placed_of_ungrouped hgoal hroutine hgroup ?_ ?_
  · intro action h
    rw [haction] at h
    contradiction
  · rw [haction]
    intro h
    contradiction

/-! ### A way begins -/

/-- A way of its own begins, or nothing changes. -/
theorem startMove_cases (goal : Action.GoalType) (startedAtMs : UInt64) (destination : ActionPosition Float32) :
    startMove c t goal startedAtMs destination a = a ∨
      (a.record.controlMode = .aiWorldControlled ∧ a.record.worldState = .materialized ∧ a.body.alive = true ∧
        a.body.hasActiveMovement = false ∧
        startMove c t goal startedAtMs destination a =
          ⟨{ a.record with activeActionState := some {
              type := .moveTo
              sourceGoal := goal
              goalStartedAtMs := startedAtMs
              startedAtMs := t.nowMs
              destination := some destination } }, { a.body with ownMoveTo := true }⟩) := by
  unfold startMove
  dsimp only
  split_ifs with hbegin
  · obtain ⟨hallowed, hmove⟩ := hbegin
    have hcommanded := (validate_allowed_iff.mp hallowed).1
    have hstill : a.body.hasActiveMovement = false := by
      refine Bool.eq_false_iff.mpr fun hactive => ?_
      simp [Body.executeMoveTo, hactive] at hmove
    refine .inr ⟨hcommanded.controlled, of_decide_eq_true hcommanded.materialized, hcommanded.alive, hstill, ?_⟩
    simp [Body.executeMoveTo, hstill]
  · exact .inl rfl

theorem still_of_not_active (h : b.hasActiveMovement = false) :
    b.ownMoveTo = false ∧ b.ownFlee = false ∧ b.chasing = none := by
  simp only [Body.hasActiveMovement, Bool.or_eq_false_iff, Option.isSome_eq_false_iff, Option.isNone_iff_eq_none] at h
  exact ⟨h.1.1.1, h.1.1.2, h.1.2⟩

/-- A creature that stood still and now goes where its record says. -/
theorem moving_of_begun (hstill : b.hasActiveMovement = false) (halive : b.alive = true)
    (hworld : r.worldState = .materialized) (haction : r.activeActionState = some action)
    (hmove : action.type = .moveTo) : Moving r { b with ownMoveTo := true } := by
  obtain ⟨-, hflee, hchase⟩ := still_of_not_active hstill
  refine ⟨fun _ => ⟨action, haction, hmove⟩, ?_, ?_, ?_, fun _ => hworld⟩
  · intro guid hguid
    rw [show b.chasing = some guid from hguid] at hchase
    contradiction
  · intro h
    rw [show b.ownFlee = true from h] at hflee
    contradiction
  · intro hdead
    rw [show b.alive = false from hdead] at halive
    contradiction

/-! ### The way of the day -/

/-- What stands while the agent acts. -/
structure Acting (selection : GoalSelectionResult) (a : Actor) : Prop where
  placed : Placed a.record
  moving : Moving a.record a.body
  chosen : a.record.activeGoalState = selection.goal
  hungry : a.record.pendingEat.isSome → a.record.activeGoalState.isSome → a.record.activeActionState = none

/-- An agent that has yielded but to an older way of its own day. -/
theorem Tiered.placed (h : Tiered a) (hday : a.record.activeGoalState = none → ∀ action goal,
    a.record.activeActionState = some action → a.record.routineGoalState = some goal →
      isRoutineSourceGoal action.sourceGoal = true → action.sourceGoal = goal.type) : Placed a.record where
  toClaimed := h.claimed
  member := h.member
  owner := by
    intro action haction
    rcases h.claimed.action action haction with ⟨hmove, hsource, goal, hgoal, htype, hstarted⟩ |
      ⟨hmove, hsource⟩ | ⟨g, hg, hpursues⟩
    · exact .need hgoal htype hsource hstarted hmove
    · have hfree : a.record.activeGoalState = none := by
        cases hgoal : a.record.activeGoalState with
        | none => rfl
        | some goal =>
          rw [h.need (by rw [hgoal]; rfl) action haction] at hsource
          contradiction
      obtain ⟨hhome, hwork⟩ := h.claimed.located action haction hsource
      obtain ⟨goal, hgoal⟩ := Option.isSome_iff_exists.mp (h.day hfree hhome hwork)
      exact .routine hfree hgoal (hday hfree action goal haction hgoal hsource) hmove
    · obtain ⟨hfree, hidle⟩ := h.member (by rw [hg]; rfl)
      exact .group hfree hidle hg hpursues

/-- Once an older way of the day is stopped, the agent is free to take the new one. -/
theorem stopOldRoutine_acting (h : Tiered a) (hfree : a.record.activeGoalState = none)
    (hchosen : a.record.activeGoalState = selection.goal) {goal : RoutineGoal}
    (hgoal : a.record.routineGoalState = some goal) :
    Acting selection (stopOldRoutine a) ∧ (stopOldRoutine a).record.groupCoordinationGoalState = none ∧
      (stopOldRoutine a).record.activeActionState = none ∧
      (stopOldRoutine a).record.routineGoalState = some goal := by
  have hgroup : a.record.groupCoordinationGoalState = none := by
    cases hg : a.record.groupCoordinationGoalState with
    | none => rfl
    | some g =>
      rw [(h.member (by rw [hg]; rfl)).2] at hgoal
      contradiction
  have hroutine : ∀ action, a.record.activeActionState = some action →
      action.type = .moveTo ∧ isRoutineSourceGoal action.sourceGoal = true := by
    intro action haction
    rcases h.claimed.action action haction with ⟨_, _, goal, hneed, _⟩ | hroutine | ⟨g, hg, _⟩
    · rw [hfree] at hneed
      contradiction
    · exact hroutine
    · rw [hgroup] at hg
      contradiction
  unfold stopOldRoutine
  split_ifs with hold
  · have hstopped : Moving { a.record with activeActionState := none } a.body.stopMoveTo :=
      h.moving.stopped (h.moving.not_chasing fun action haction => (hroutine action haction).1) h.moving.flee rfl
    exact ⟨⟨placed_of_idle h.claimed.goal h.claimed.routine hgroup rfl, hstopped, hchosen, fun _ _ => rfl⟩, hgroup,
      rfl, hgoal⟩
  · have hnone : a.record.activeActionState = none := by
      cases haction : a.record.activeActionState with
      | none => rfl
      | some action =>
        obtain ⟨hmove, hsource⟩ := hroutine action haction
        rw [haction] at hold
        simp [hmove, hsource] at hold
    exact ⟨⟨placed_of_idle h.claimed.goal h.claimed.routine hgroup hnone, h.moving, hchosen, fun _ _ => hnone⟩, hgroup,
      hnone, hgoal⟩

/-- An idle agent outside any group sets out for the place of the day. -/
theorem setOut_acting {destination : ActionPosition Float32} {goal : RoutineGoal} (h : Acting selection a)
    (hgroup : a.record.groupCoordinationGoalState = none) (hfree : a.record.activeGoalState = none)
    (hgoal : a.record.routineGoalState = some goal) :
    Acting selection (startMove c t goal.type t.nowMs destination a) := by
  rcases startMove_cases (c := c) (t := t) (a := a) goal.type t.nowMs destination with
    hnot | ⟨hcontrolled, hworld, halive, hstill, hbegun⟩
  · rw [hnot]
    exact h
  · rw [hbegun]
    refine ⟨?_, moving_of_begun hstill halive hworld rfl rfl, h.chosen, ?_⟩
    · refine placed_of_ungrouped h.placed.goal h.placed.routine hgroup ?_ fun _ => hcontrolled
      intro action haction
      rw [← Option.some.inj haction]
      exact .routine hfree hgoal rfl rfl
    · intro _ hneed
      rw [show a.record.activeGoalState = none from hfree] at hneed
      contradiction

theorem commute_acting (h : Tiered a) (hchosen : a.record.activeGoalState = selection.goal)
    (hhungry : a.record.pendingEat.isSome → a.record.activeActionState = none) : Acting selection (commute c t a) := by
  have hstay (hday : a.record.activeGoalState = none → ∀ action goal,
      a.record.activeActionState = some action → a.record.routineGoalState = some goal →
        isRoutineSourceGoal action.sourceGoal = true → action.sourceGoal = goal.type) : Acting selection a :=
    ⟨h.placed hday, h.moving, hchosen, fun hpending _ => hhungry hpending⟩
  unfold commute
  split
  · rename_i routine hroutine
    dsimp only
    split_ifs with hday hunderway hthere
    · -- the way of the day is under way
      refine hstay fun _ action goal haction hgoal _ => ?_
      rw [hroutine, Option.some.injEq] at hgoal
      rw [haction, Option.any_some, Bool.and_eq_true, decide_eq_true_eq, decide_eq_true_eq] at hunderway
      exact hgoal ▸ hunderway.2
    · exact (stopOldRoutine_acting h hday.2 hchosen hroutine).1
    · obtain ⟨hidle, hgroup, hnone, hgoal⟩ := stopOldRoutine_acting h hday.2 hchosen hroutine
      exact setOut_acting hidle hgroup (hidle.chosen.trans (hchosen.symm.trans hday.2)) hgoal
    · refine hstay fun hfree action _ haction _ _ => absurd ⟨?_, hfree⟩ hday
      exact h.claimed.controlled (.inl (by rw [haction]; rfl))
  · rename_i hroutine
    refine hstay fun _ _ goal _ hgoal _ => ?_
    rw [hroutine] at hgoal
    contradiction

/-! ### Work and rest -/

theorem deriveActivity_some {context : RoutineActivityContext} {activity : Action.RoutineActivityType}
    (h : RoutineActivitySystem.deriveActivity context = some activity) :
    context.hasActiveGoal = false ∧ context.hasActiveAction = false ∧ context.atRoutineTarget = true ∧
      context.currentRoutineGoal = some (placeOf activity) := by
  unfold RoutineActivitySystem.deriveActivity at h
  split_ifs at h with hthere hbusy hmoving hplace
  simp only [Bool.not_eq_true, Bool.or_eq_false_iff, Bool.not_eq_false'] at hbusy hplace
  refine ⟨hbusy.1, hbusy.2, hplace, ?_⟩
  cases hgoal : context.currentRoutineGoal with
  | none =>
    rw [hgoal] at h
    contradiction
  | some goal =>
    rw [hgoal] at h
    cases goal <;> simp at h <;> (rw [← h]; rfl)

theorem settled_of_derived {activity : Action.RoutineActivityType} (startedAtMs : UInt64)
    (h : RoutineActivitySystem.deriveActivity (activityContext a) = some activity) :
    Settled a.record ⟨activity, startedAtMs⟩ := by
  obtain ⟨hfree, hidle, -, hplace⟩ := deriveActivity_some h
  refine ⟨?_, ?_, hplace⟩
  · exact Option.isNone_iff_eq_none.mp (Option.isSome_eq_false_iff.mp hfree)
  · exact Option.isNone_iff_eq_none.mp (Option.isSome_eq_false_iff.mp hidle)

/-- A gesture is over as soon as it is made. -/
theorem performed_same (r : AgentRecord) (completion : ActionCompletion) (hgesture : completion.type ≠ .moveTo)
    (harrived : completion.arrived = false) (hsource : isCoordinationSourceGoal completion.sourceGoal = false)
    (hidle : r.activeActionState = none) : handleActionCompletion r completion = r := by
  have hpending : (none : Option PendingEatContinuation).or r.pendingEat = r.pendingEat := rfl
  unfold handleActionCompletion
  simp only [hgesture, harrived, hsource, false_and, Bool.and_false, if_false, Bool.false_eq_true, hpending, ← hidle]

theorem not_coordination_of_routine {type : Action.GoalType} (h : isRoutineSourceGoal type = true) :
    isCoordinationSourceGoal type = false := by
  cases type <;> first | rfl | contradiction

/-- What an activity leaves in the record, paid or not. -/
theorem beginActivity_record (activity : Action.RoutineActivityType) (routine : RoutineGoal)
    (hidle : a.record.activeActionState = none) (hroutine : isRoutineSourceGoal routine.type = true) :
    ∃ economy, (beginActivity c t activity routine a).2 = ⟨{ a.record with
      routineActivityState := some ⟨activity, t.nowMs⟩
      economyState := economy }, a.body⟩ := by
  have hdone := performed_same (settleDown t activity a.record)
    (finished t (activityRequest t activity routine) .performed)
    (by cases activity <;> exact fun h => by contradiction) rfl (not_coordination_of_routine hroutine) hidle
  unfold beginActivity
  dsimp only
  split
  · rw [hdone]
    split <;> exact ⟨_, rfl⟩
  · exact ⟨_, rfl⟩

/-- After the day's work was looked at, what the agent is said to do is what it can do. -/
theorem routineActivity_acting (h : Acting selection a) :
    Acting selection (routineActivity c t a).2 ∧ (routineActivity c t a).2.body = a.body ∧
      ∀ activity, (routineActivity c t a).2.record.routineActivityState = some activity →
        Settled (routineActivity c t a).2.record activity := by
  have hwith (r : AgentRecord) (hsame : Same a.record r) (hpending : r.pendingEat = a.record.pendingEat)
      (hworld : r.worldState = a.record.worldState) : Acting selection ⟨r, a.body⟩ :=
    ⟨h.placed.same hsame, h.moving.of_eq hsame.action hsame.goal hworld, hsame.goal.trans h.chosen,
      by rw [hpending, hsame.goal, hsame.action]; exact h.hungry⟩
  unfold routineActivity
  dsimp only
  split_ifs with hcurrent
  · refine ⟨h, rfl, fun activity hactivity => ?_⟩
    rw [hactivity] at hcurrent
    exact settled_of_derived _ hcurrent
  · split
    · rename_i activity routine hderived hroutine
      have hidle := (settled_of_derived t.nowMs hderived).idle
      obtain ⟨economy, hrecord⟩ := beginActivity_record (c := c) (t := t) activity routine
        hidle (h.placed.routine routine hroutine).1
      rw [hrecord]
      refine ⟨hwith _ ⟨rfl, rfl, rfl, rfl, rfl, rfl, rfl⟩ rfl rfl, rfl, fun done hdone => ?_⟩
      rw [← Option.some.inj hdone]
      exact (settled_of_derived _ hderived).same ⟨rfl, rfl, rfl, rfl, rfl, rfl, rfl⟩
    · refine ⟨hwith _ ⟨rfl, rfl, rfl, rfl, rfl, rfl, rfl⟩ rfl rfl, rfl, fun _ hnone => ?_⟩
      contradiction

/-! ### Eating -/

theorem Proper.not_coordination {goal : ActiveGoal} (h : Proper goal) : isCoordinationSourceGoal goal.type = false := by
  cases h with
  | food htype => rw [htype]; rfl
  | flee htype => rw [htype]; rfl

/-- A pass leaves no arrival behind; eating changes nothing else that is pursued. -/
theorem consumePendingEat_record (h : Acting selection a) :
    ∃ needs, (consumePendingEat c t a).2 = ⟨{ forgetArrival a.record with needs }, a.body⟩ := by
  unfold consumePendingEat
  split
  · rename_i hpending
    have hnone : forgetArrival a.record = a.record := by rw [forgetArrival, ← hpending]
    rw [hnone]
    exact ⟨_, rfl⟩
  · rename_i pending hpending
    dsimp only
    split
    · rename_i goal hgoal
      split_ifs with hsame
      · have hidle : a.record.activeActionState = none := h.hungry (by rw [hpending]; rfl) (by rw [hgoal]; rfl)
        have hsource : isCoordinationSourceGoal pending.sourceGoal = false := by
          rw [← hsame.1]
          exact (h.placed.goal goal hgoal).not_coordination
        have heaten := performed_same (forgetArrival a.record)
          (finished t (eatRequest pending) .consumed) (fun h => by contradiction) rfl hsource hidle
        unfold tryEat
        split_ifs
        · dsimp only
          rw [heaten]
          exact ⟨_, rfl⟩
        · exact ⟨_, rfl⟩
      · exact ⟨_, rfl⟩
    · exact ⟨_, rfl⟩

theorem consumePendingEat_acting (h : Acting selection a) : Acting selection (consumePendingEat c t a).2 := by
  obtain ⟨needs, hrecord⟩ := consumePendingEat_record (c := c) (t := t) h
  rw [hrecord]
  refine ⟨h.placed.same ⟨rfl, rfl, rfl, rfl, rfl, rfl, rfl⟩, h.moving.of_eq rfl rfl rfl, h.chosen, ?_⟩
  intro hpending
  contradiction

/-! ### Flight and food -/

theorem executeFlee_cases (request : ActionRequest) (scope : Option Action.SimulationScope) :
    (b.executeFlee request scope).2 = b ∨ (b.executeFlee request scope).2 = { b with ownFlee := true } := by
  unfold Body.executeFlee
  split_ifs
  · exact .inl rfl
  · exact .inl rfl
  · exact .inr rfl

theorem beginFlight_record (source : Option ObjectGuid) : (beginFlight c selection source a).record = a.record := by
  unfold beginFlight
  split
  · split_ifs <;> rfl
  · rfl

theorem beginFlight_acting (source : Option ObjectGuid) (h : Acting selection a) :
    Acting selection (beginFlight c selection source a) := by
  refine ⟨by rw [beginFlight_record]; exact h.placed, ?_, by rw [beginFlight_record]; exact h.chosen,
    by rw [beginFlight_record]; exact h.hungry⟩
  unfold beginFlight
  split
  · rename_i goal hgoal
    split
    · rename_i hbegin
      have hcommanded := (validate_allowed_iff.mp hbegin.2.2).1
      have hworld : a.record.worldState = .materialized := of_decide_eq_true hcommanded.materialized
      have halive : a.body.alive = true := hcommanded.alive
      rcases executeFlee_cases (b := a.body) (fleeRequest goal source)
        (if c.restrictAgentsToSimulationScope then some c.scope else none) with hnot | hflees
      · rw [hnot]
        exact h.moving
      · rw [hflees]
        refine { h.moving with flee := fun _ => ⟨goal, h.chosen.trans hgoal, hbegin.2.1⟩, dead := ?_, bound := ?_ }
        · intro hdead
          rw [show a.body.alive = false from hdead] at halive
          contradiction
        · exact fun _ => hworld
    · exact h.moving
  · exact h.moving

/-- The way to food begins for the hunger that was just felt. -/
theorem beginFoodMove_acting (h : Acting selection a) (hno : a.record.pendingEat = none) :
    Acting selection (beginFoodMove c t selection a) := by
  unfold beginFoodMove
  split
  · rename_i goal target hgoal _
    split_ifs with hbegin
    · rcases startMove_cases (c := c) (t := t) (a := a) goal.type goal.startedAtMs target.position with
        hnot | ⟨hcontrolled, hworld, halive, hstill, hbegun⟩
      · rw [hnot]
        exact h
      · have hneed := h.chosen.trans hgoal
        have hgroup : a.record.groupCoordinationGoalState = none := by
          cases hg : a.record.groupCoordinationGoalState with
          | none => rfl
          | some g =>
            rw [(h.placed.member (by rw [hg]; rfl)).1] at hneed
            contradiction
        rw [hbegun]
        refine ⟨?_, moving_of_begun hstill halive hworld rfl rfl, h.chosen, ?_⟩
        · refine placed_of_ungrouped h.placed.goal h.placed.routine hgroup ?_ fun _ => hcontrolled
          intro action haction
          rw [← Option.some.inj haction]
          exact .need hneed hbegin.2 hbegin.2 rfl rfl
        · intro hpending
          rw [show a.record.pendingEat = none from hno] at hpending
          contradiction
    · exact h
  · exact h

theorem beginFoodMove_kept : (beginFoodMove c t selection a).record.pendingEat = a.record.pendingEat ∧
    (beginFoodMove c t selection a).record.routineActivityState = a.record.routineActivityState ∧
    (beginFoodMove c t selection a).record.activeGoalState = a.record.activeGoalState ∧
    (beginFoodMove c t selection a).record.routineGoalState = a.record.routineGoalState ∧
    (a.record.activeGoalState = none → selection.goal = none → beginFoodMove c t selection a = a) := by
  unfold beginFoodMove
  split
  · rename_i goal target hgoal _
    have hno {x : Actor} : a.record.activeGoalState = none → selection.goal = none → x = a := by
      intro _ hnone
      rw [hnone] at hgoal
      contradiction
    split_ifs
    · rcases startMove_cases (c := c) (t := t) (a := a) goal.type goal.startedAtMs target.position with
        hnot | ⟨-, -, -, -, hbegun⟩
      · rw [hnot]
        exact ⟨rfl, rfl, rfl, rfl, hno⟩
      · rw [hbegun]
        exact ⟨rfl, rfl, rfl, rfl, hno⟩
    · exact ⟨rfl, rfl, rfl, rfl, fun _ _ => rfl⟩
  · exact ⟨rfl, rfl, rfl, rfl, fun _ _ => rfl⟩

/-! ### The pass -/

/-- Yielding keeps an arrival, and begins nothing. -/
theorem yield_hungry (selection : GoalSelectionResult)
    (h : a.record.pendingEat.isSome → a.record.activeActionState = none) :
    (preemptCoordination t (preemptRoutine (deriveRoutine c t (commitGoal selection a)))).record.pendingEat.isSome →
      (preemptCoordination t (preemptRoutine (deriveRoutine c t (commitGoal selection a)))).record.activeActionState =
        none := by
  have hcommit : (commitGoal selection a).record.pendingEat.isSome →
      (commitGoal selection a).record.activeActionState = none := by
    unfold commitGoal
    dsimp only
    split_ifs
    · exact fun _ => rfl
    · exact h
    · exact fun _ => rfl
    · exact h
  have hroutine : (preemptRoutine (deriveRoutine c t (commitGoal selection a))).record.pendingEat.isSome →
      (preemptRoutine (deriveRoutine c t (commitGoal selection a))).record.activeActionState = none := by
    unfold preemptRoutine
    split_ifs
    · exact fun _ => rfl
    · exact hcommit
  unfold preemptCoordination preemptInFlightGroupCoordination
  dsimp only
  split
  · exact hroutine
  · split_ifs
    · intro hpending
      show (if _ then none else _) = none
      rw [hroutine hpending, ite_self]
    · exact hroutine

/-- An agent that has yielded and sees to its day acts for the goal it has chosen. -/
theorem commute_settled (h : Owned a.record) (hm : Moving a.record a.body)
    (hs : Selects a.record.activeGoalState selection) :
    Acting selection (commute c t (preemptCoordination t (preemptRoutine
      (deriveRoutine c t (commitGoal selection a))))) := by
  obtain ⟨htiered, hchosen⟩ := yield_tiered (c := c) (t := t) h hm hs
  refine commute_acting htiered hchosen (yield_hungry selection fun hpending => ?_)
  obtain ⟨pending, hpending⟩ := Option.isSome_iff_exists.mp hpending
  exact (h.arrival pending hpending).2.1

/-- What the agent had arrived at is eaten, or given up, before it goes for food again. -/
theorem beginFlight_fed (h : Acting selection a) (source : Option ObjectGuid) :
    Acting selection (beginFlight c selection source (consumePendingEat c t a).2) ∧
      (beginFlight c selection source (consumePendingEat c t a).2).record.pendingEat = none := by
  obtain ⟨needs, hrecord⟩ := consumePendingEat_record (c := c) (t := t) h
  refine ⟨beginFlight_acting source (consumePendingEat_acting h), ?_⟩
  rw [beginFlight_record, hrecord]
  rfl

theorem act_owned (h : Owned a.record) (hm : Moving a.record a.body)
    (hs : Selects a.record.activeGoalState selection) :
    Owned (act c t selection a).2.record ∧ Moving (act c t selection a).2.record (act c t selection a).2.body := by
  obtain ⟨hworked, -, hactivity⟩ := routineActivity_acting (c := c) (t := t)
    (commute_settled (c := c) (t := t) h hm hs)
  obtain ⟨needs, hrecord⟩ := consumePendingEat_record (c := c) (t := t) hworked
  unfold act
  dsimp only
  set worked := (routineActivity c t (commute c t (preemptCoordination t (preemptRoutine
    (deriveRoutine c t (commitGoal selection a)))))).2 with hworkeddef
  set fed := (consumePendingEat c t worked).2 with hfeddef
  obtain ⟨hfled, hno⟩ := beginFlight_fed (c := c) (t := t) hworked (capturedFleeSource selection a fed)
  have hdone := beginFoodMove_acting (c := c) (t := t) hfled hno
  refine ⟨⟨hdone.placed, ?_, ?_⟩, hdone.moving⟩
  · intro pending hpending
    rw [beginFoodMove_kept.1, hno] at hpending
    contradiction
  · intro activity hdoing
    rw [beginFoodMove_kept.2.1, beginFlight_record, hrecord] at hdoing
    have hsettledown := hactivity activity hdoing
    have hgoal : selection.goal = none := hworked.chosen.symm.trans hsettledown.free
    rw [beginFoodMove_kept.2.2.2.2 (hfled.chosen.trans hgoal) hgoal, beginFlight_record, ← hfeddef, hrecord]
    exact hsettledown.same ⟨rfl, rfl, rfl, rfl, rfl, rfl, rfl⟩

/-- The end of a movement of the agent leaves it idle, in front of what it went for. -/
theorem completed_owned (h : Owned r) (haction : r.activeActionState = some action)
    {completion : ActionCompletion}
    (hsource : completion.sourceGoal = action.sourceGoal)
    (hstarted : completion.goalStartedAtMs = action.goalStartedAtMs) : Owned (handleActionCompletion r completion) := by
  have hnopending : r.pendingEat = none := by
    cases hpending : r.pendingEat with
    | none => rfl
    | some pending =>
      rw [(h.arrival pending hpending).2.1] at haction
      contradiction
  have hnoactivity : r.routineActivityState = none := by
    cases hactivity : r.routineActivityState with
    | none => rfl
    | some activity =>
      rw [(h.activity activity hactivity).idle] at haction
      contradiction
  -- only an arrived hunter stays with its group, and it has arrived
  have hgroup : ∀ g, (handleActionCompletion r completion).groupCoordinationGoalState = some g →
      g.type = .hunt ∧ g.phase = .atTarget ∧ r.groupCoordinationGoalState.isSome := by
    intro g hg
    unfold handleActionCompletion at hg
    dsimp only at hg
    cases howner : r.groupCoordinationGoalState with
    | none =>
      rw [howner] at hg
      split_ifs at hg
      contradiction
    | some old =>
      have hpursues := (h.group old howner).2.1 action haction
      have hcoordination : isCoordinationSourceGoal completion.sourceGoal = true := by
        rw [hsource]
        exact hpursues.coordination (h.group old howner).1
      rw [howner, hcoordination] at hg
      split_ifs at hg with hretain
      · simp only [Bool.and_eq_true, decide_eq_true_eq] at hretain
        rw [← Option.some.inj hg]
        exact ⟨hpursues.source.symm.trans (hsource.symm.trans hretain.1), rfl, rfl⟩
      · contradiction
  refine ⟨⟨⟨h.goal, h.routine, ?_, ?_, ?_, ?_⟩, ?_, ?_⟩, ?_, ?_⟩
  · intro _ hnone
    contradiction
  · intro g hg
    obtain ⟨hhunt, hphase, -⟩ := hgroup g hg
    exact ⟨by rw [hhunt]; rfl, fun _ hnone => by contradiction, fun _ => ⟨hhunt, hphase⟩⟩
  · exact fun _ => h.controlled (.inl (by rw [haction]; rfl))
  · intro _ hnone
    contradiction
  · intro _ hnone
    contradiction
  · intro hsome
    obtain ⟨g, hg⟩ := Option.isSome_iff_exists.mp hsome
    exact h.member (hgroup g hg).2.2
  · intro pending hpending
    unfold handleActionCompletion at hpending ⊢
    dsimp only at hpending ⊢
    rw [hnopending, Option.or_none] at hpending
    split_ifs at hpending with hfood
    · obtain ⟨destination, -, hpending⟩ := Option.map_eq_some_iff.mp hpending
      rw [← hpending]
      refine ⟨hfood.2.2, rfl, ?_⟩
      rw [hsource] at hfood
      cases h.owner action haction with
      | need hgoal htype _ hstart _ => exact ⟨_, hgoal, htype, hstart.symm.trans hstarted.symm⟩
      | routine _ hroutine hroutinesource _ =>
        have hno := (h.routine _ hroutine).1
        rw [← hroutinesource, hfood.2.2] at hno
        contradiction
      | group _ _ hg hpursues =>
        have hno := hpursues.coordination (h.group _ hg).1
        rw [hfood.2.2] at hno
        contradiction
  · intro activity hactivity
    rw [show r.routineActivityState = some activity from hactivity] at hnoactivity
    contradiction

theorem completed_moving (hm : Moving r b) (haction : r.activeActionState = some action) (hmove : action.type = .moveTo)
    (hended : b.ownMoveTo = false) (completion : ActionCompletion) : Moving (handleActionCompletion r completion) b := by
  refine hm.still hended (hm.not_chasing fun action' haction' => ?_) rfl rfl hm.flee rfl
  rw [haction, Option.some.injEq] at haction'
  exact haction' ▸ hmove

theorem reconcileMovement_owned (h : Owned a.record) (hm : Moving a.record a.body) :
    Owned (reconcileMovement t a).record ∧ Moving (reconcileMovement t a).record (reconcileMovement t a).body := by
  unfold reconcileMovement
  split
  · rename_i action haction
    split_ifs with hended
    · exact ⟨completed_owned h haction rfl rfl,
        completed_moving hm haction hended.1 (Bool.eq_false_iff.mpr hended.2) _⟩
    · exact ⟨h, hm⟩
  · exact ⟨h, hm⟩

/-! ### Without a creature -/

theorem owned_of_still {r : AgentRecord} (hgoal : ∀ goal, r.activeGoalState = some goal → Proper goal)
    (hroutine : ∀ goal, r.routineGoalState = some goal →
      isRoutineSourceGoal goal.type = true ∧ r.homeLocation.isSome ∧ r.workLocation.isSome)
    (haction : r.activeActionState = none) (hgroup : r.groupCoordinationGoalState = none)
    (hpending : r.pendingEat = none) (hactivity : r.routineActivityState = none) : Owned r where
  toPlaced := placed_of_idle hgoal hroutine hgroup haction
  arrival := by
    rw [hpending]
    intro _ hnone
    contradiction
  activity := by
    rw [hactivity]
    intro _ hnone
    contradiction

theorem bindCreature_owned (h : Owned r) : Owned (bindCreature r b) := by
  unfold bindCreature
  split_ifs
  · exact h
  · exact h.same ⟨rfl, rfl, rfl, rfl, rfl, rfl, rfl⟩ rfl rfl

theorem bindCreature_moving (hm : Moving r b) : Moving (bindCreature r b) b := by
  unfold bindCreature
  split_ifs
  · exact hm
  · exact { hm with bound := fun _ => rfl }

/-- A pass over the needs of an agent keeps every action with its owner. -/
theorem needsPass_owned {s : AgentState} (h : Owned s.record) (hm : ∀ b, s.body = some b → Moving s.record b) :
    Owned (needsPass c t s).2.record ∧
      ∀ b, (needsPass c t s).2.body = some b → Moving (needsPass c t s).2.record b := by
  unfold needsPass
  split
  · rename_i hbody
    refine ⟨owned_of_still h.goal h.routine rfl rfl rfl rfl, fun b hb => ?_⟩
    rw [show s.body = some b from hb] at hbody
    contradiction
  · rename_i b hb
    dsimp only
    have howned : Owned (updateNeeds c t ⟨bindCreature s.record b, b⟩).record :=
      (bindCreature_owned h).same ⟨rfl, rfl, rfl, rfl, rfl, rfl, rfl⟩ rfl rfl
    have hmoving : Moving (updateNeeds c t ⟨bindCreature s.record b, b⟩).record b :=
      (bindCreature_moving (hm b hb)).of_eq rfl rfl rfl
    split_ifs with halive
    · obtain ⟨hreconciled, hstep⟩ := reconcileMovement_owned (t := t)
        (a := updateNeeds c t ⟨bindCreature s.record b, b⟩) howned hmoving
      obtain ⟨hdone, hin⟩ := act_owned (c := c) (t := t) hreconciled hstep (goal_selects hreconciled.goal)
      refine ⟨hdone, fun b' hb' => ?_⟩
      rw [← Option.some.inj hb']
      exact hin
    · refine ⟨owned_of_still (fun _ hnone => by contradiction) (fun _ hnone => by contradiction) rfl rfl rfl rfl,
        fun b' hb' => ?_⟩
      obtain ⟨hmove, hflee, hchase⟩ := hmoving.dead (Bool.eq_false_iff.mpr halive)
      rw [← Option.some.inj hb']
      refine hmoving.still hmove hchase rfl rfl ?_ rfl
      intro hno
      rw [hflee] at hno
      contradiction

end AIWorld.Goal
