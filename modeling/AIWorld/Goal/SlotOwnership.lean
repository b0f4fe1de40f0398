import AIWorld.Goal.AgentLoop

/-! Whose action runs. An agent has one place for an action, and three who may want it: a need, the day, a group.
The action that runs belongs to one of them, and that one still wants it; what the engine moves for the agent is
that action. Here the invariant and what a choice of goal and the yielding of the lower tiers do to it. -/

namespace AIWorld.Goal

open AIWorld.Action (ActionRequest validate)
open Quest (ObjectGuid)

variable {c : NeedsConfig} {t : NeedsTick} {a : Actor} {r : AgentRecord} {b : Body} {g : GroupCoordinationGoal}
  {action : ActiveAction} {selection : GoalSelectionResult}

/-! ### The invariant -/

/-- The two goals that needs propose. -/
inductive Proper (goal : ActiveGoal) : Prop
  | food (htype : goal.type = .getFood) (hpriority : goal.priority = .normal)
  | flee (htype : goal.type = .fleeDanger) (hpriority : goal.priority = .emergency)

/-- The action is what this attempt of the group is doing at its phase. -/
structure Pursues (g : GroupCoordinationGoal) (action : ActiveAction) : Prop where
  source : action.sourceGoal = g.type
  started : action.goalStartedAtMs = g.startedAtMs
  kind : action.type = .moveTo ∧ g.phase = .approaching ∨
    action.type = .attack ∧ g.type = .hunt ∧ g.phase = .engaging
  target : g.type = .hunt → action.target = some ⟨g.targetGuid, g.targetEntry⟩

/-- The one who wants the action, nobody above it wanting anything. -/
inductive Owner (r : AgentRecord) (action : ActiveAction) : Prop
  | need {goal : ActiveGoal} (hgoal : r.activeGoalState = some goal) (htype : goal.type = .getFood)
      (hsource : action.sourceGoal = .getFood) (hstarted : action.goalStartedAtMs = goal.startedAtMs)
      (hmove : action.type = .moveTo)
  | routine {goal : RoutineGoal} (hfree : r.activeGoalState = none) (hgoal : r.routineGoalState = some goal)
      (hsource : action.sourceGoal = goal.type) (hmove : action.type = .moveTo)
  | group {goal : GroupCoordinationGoal} (hfree : r.activeGoalState = none) (hidle : r.routineGoalState = none)
      (hgoal : r.groupCoordinationGoalState = some goal) (hpursues : Pursues goal action)

/-- Where an activity is done. -/
def placeOf : Action.RoutineActivityType → Action.GoalType
  | .work => .goToWork
  | .rest => .goHome

/-- What an agent does at the end of its daily way. -/
structure Settled (r : AgentRecord) (activity : RoutineActivity) : Prop where
  free : r.activeGoalState = none
  idle : r.activeActionState = none
  place : r.routineGoalState.map RoutineGoal.type = some (placeOf activity.type)

/-- Before the lower tiers have yielded: every action has somebody who asked for it. -/
structure Claimed (r : AgentRecord) : Prop where
  goal : ∀ goal, r.activeGoalState = some goal → Proper goal
  routine : ∀ goal, r.routineGoalState = some goal →
    isRoutineSourceGoal goal.type = true ∧ r.homeLocation.isSome ∧ r.workLocation.isSome
  action : ∀ action, r.activeActionState = some action →
    action.type = .moveTo ∧ action.sourceGoal = .getFood ∧
        (∃ goal, r.activeGoalState = some goal ∧ goal.type = .getFood ∧ action.goalStartedAtMs = goal.startedAtMs) ∨
      action.type = .moveTo ∧ isRoutineSourceGoal action.sourceGoal = true ∨
      ∃ g, r.groupCoordinationGoalState = some g ∧ Pursues g action
  group : ∀ g, r.groupCoordinationGoalState = some g → isCoordinationSourceGoal g.type = true ∧
    (∀ action, r.activeActionState = some action → Pursues g action) ∧
    (r.activeActionState = none → g.type = .hunt ∧ g.phase = .atTarget)
  controlled : r.activeActionState.isSome ∨ r.groupCoordinationGoalState.isSome →
    r.controlMode = .aiWorldControlled
  located : ∀ action, r.activeActionState = some action → isRoutineSourceGoal action.sourceGoal = true →
    r.homeLocation.isSome ∧ r.workLocation.isSome

structure Placed (r : AgentRecord) : Prop extends Claimed r where
  owner : ∀ action, r.activeActionState = some action → Owner r action
  member : r.groupCoordinationGoalState.isSome → r.activeGoalState = none ∧ r.routineGoalState = none

structure Owned (r : AgentRecord) : Prop extends Placed r where
  arrival : ∀ pending, r.pendingEat = some pending → pending.sourceGoal = .getFood ∧
    r.activeActionState = none ∧
    ∃ goal, r.activeGoalState = some goal ∧ goal.type = .getFood ∧ goal.startedAtMs = pending.goalStartedAtMs
  activity : ∀ activity, r.routineActivityState = some activity → Settled r activity

/-- What the engine does with the creature for the agent is what the record says. -/
structure Moving (r : AgentRecord) (b : Body) : Prop where
  move : b.ownMoveTo = true → ∃ action, r.activeActionState = some action ∧ action.type = .moveTo
  chase : ∀ guid, b.chasing = some guid → ∃ action target, r.activeActionState = some action ∧
    action.type = .attack ∧ action.target = some target ∧ target.guid = guid
  flee : b.ownFlee = true → ∃ goal, r.activeGoalState = some goal ∧ goal.type = .fleeDanger
  dead : b.alive = false → b.ownMoveTo = false ∧ b.ownFlee = false ∧ b.chasing = none
  bound : b.ownMoveTo = true ∨ b.ownFlee = true ∨ b.chasing.isSome = true → r.worldState = .materialized

/-! ### Tiers -/

/-- An agent that does nothing, for nobody, has nothing to answer for. -/
theorem claimed_of_idle (hgoal : ∀ goal, r.activeGoalState = some goal → Proper goal)
    (hroutine : ∀ goal, r.routineGoalState = some goal →
      isRoutineSourceGoal goal.type = true ∧ r.homeLocation.isSome ∧ r.workLocation.isSome)
    (haction : r.activeActionState = none) (hgroup : r.groupCoordinationGoalState = none) : Claimed r where
  goal := hgoal
  routine := hroutine
  action := by
    intro action h
    rw [haction] at h
    contradiction
  group := by
    intro g h
    rw [hgroup] at h
    contradiction
  controlled := by
    rw [haction, hgroup]
    rintro (h | h) <;> contradiction
  located := by
    intro action h
    rw [haction] at h
    contradiction

theorem Pursues.coordination (h : Pursues g action) (hg : isCoordinationSourceGoal g.type = true) :
    isCoordinationSourceGoal action.sourceGoal = true := by
  rw [h.source]
  exact hg

theorem not_routine_of_coordination {type : Action.GoalType} (h : isCoordinationSourceGoal type = true) :
    isRoutineSourceGoal type = false := by
  cases type <;> first | rfl | contradiction

theorem Pursues.owns (h : Pursues g action) : ownsStoppedMovement g (some action) = true := by
  rw [ownsStoppedMovement, Option.any_some, h.source, h.started]
  rcases h.kind with ⟨htype, -⟩ | ⟨htype, -, -⟩
  all_goals
    rw [htype]
    by_cases hhunt : g.type = .hunt
    · simp [h.target hhunt]
    · simp [hhunt]

/-- A need of its own is the end of what a group wants of an agent. -/
theorem Owned.ungrouped (h : Owned r) {goal : ActiveGoal} (hgoal : r.activeGoalState = some goal) :
    r.groupCoordinationGoalState = none := by
  cases hg : r.groupCoordinationGoalState with
  | none => rfl
  | some g =>
    rw [(h.member (by rw [hg]; rfl)).1] at hgoal
    contradiction

theorem Owned.not_attack (h : Owned r) {goal : ActiveGoal} (hgoal : r.activeGoalState = some goal)
    (haction : r.activeActionState = some action) :
    action.type = .moveTo ∧ action.sourceGoal = .getFood ∧ goal.type = .getFood := by
  cases h.owner action haction with
  | need hgoal' htype hsource _ hmove =>
    rw [hgoal, Option.some.injEq] at hgoal'
    exact ⟨hmove, hsource, hgoal' ▸ htype⟩
  | routine hfree => rw [hgoal] at hfree; contradiction
  | group hfree => rw [hgoal] at hfree; contradiction

theorem Moving.not_chasing (h : Moving r b) (hno : ∀ action, r.activeActionState = some action → action.type = .moveTo) :
    b.chasing = none := by
  cases hchase : b.chasing with
  | none => rfl
  | some guid =>
    obtain ⟨action, -, haction, htype, -⟩ := h.chase guid hchase
    rw [hno action haction] at htype
    contradiction

theorem Moving.not_fleeing (h : Moving r b) (hno : ∀ goal, r.activeGoalState = some goal → goal.type ≠ .fleeDanger) :
    b.ownFlee = false := by
  cases hflee : b.ownFlee with
  | false => rfl
  | true =>
    obtain ⟨goal, hgoal, htype⟩ := h.flee hflee
    exact absurd htype (hno goal hgoal)

theorem Moving.not_moving (h : Moving r b) (hno : ∀ action, r.activeActionState = some action → action.type ≠ .moveTo) :
    b.ownMoveTo = false := by
  cases hmove : b.ownMoveTo with
  | false => rfl
  | true =>
    obtain ⟨action, haction, htype⟩ := h.move hmove
    exact absurd htype (hno action haction)

/-! ### Choosing a goal -/

/-- What a choice of goal can come to. -/
inductive Selects (current : Option ActiveGoal) : GoalSelectionResult → Prop
  | kept : Selects current ⟨current, .none, none⟩
  | activated {goal : ActiveGoal} (hnone : current = none) (hproper : Proper goal) :
      Selects current ⟨some goal, .activated, none⟩
  | interrupted {old goal : ActiveGoal} (hold : current = some old) (hfood : old.type = .getFood)
      (hflee : goal.type = .fleeDanger) (hproper : Proper goal) : Selects current ⟨some goal, .interrupted, none⟩
  | ended {old : ActiveGoal} {transition : GoalTransition} {completion : GoalCompletion} (hold : current = some old)
      (hended : transition = .succeeded ∨ transition = .failed) (htype : completion.type = old.type) :
      Selects current ⟨none, transition, some completion⟩

theorem candidate_proper {candidate : GoalCandidate} {needs : Needs.NeedsState} {source : Bool}
    (h : candidate ∈ GoalSystem.generateCandidates needs source) (nowMs : UInt64) :
    Proper (GoalSystem.makeActiveGoal candidate nowMs) := by
  rw [GoalSystem.generateCandidates, List.mem_append] at h
  rcases h with h | h
  all_goals
    split_ifs at h
    · rw [List.mem_singleton] at h
      subst h
      first | exact .food rfl rfl | exact .flee rfl rfl
    · simp at h

theorem selectBest_mem {candidates : List GoalCandidate} {best : GoalCandidate}
    (h : GoalSystem.selectBest candidates = some best) : best ∈ candidates := by
  -- the induction carries the best of what was seen before the rest of the list
  suffices H : ∀ (xs : List GoalCandidate) (seen : Option GoalCandidate),
      xs.foldl GoalSystem.better seen = some best → seen = some best ∨ best ∈ xs by
    rcases H candidates none h with h | h
    · contradiction
    · exact h
  intro xs
  induction xs with
  | nil => exact fun seen h => .inl h
  | cons x xs ih =>
    intro seen h
    rcases ih _ h with h | h
    · cases seen with
      | none => exact .inr (by rw [Option.some.inj h]; exact List.mem_cons_self)
      | some b =>
        rw [GoalSystem.better] at h
        split_ifs at h
        · exact .inr (by rw [Option.some.inj h]; exact List.mem_cons_self)
        · exact .inl h
    · exact .inr (List.mem_cons_of_mem x h)

theorem retain_selects {goal : ActiveGoal} (needs : Needs.NeedsState) (nowMs : UInt64) :
    Selects (some goal) (GoalSystem.retain goal needs nowMs) := by
  unfold GoalSystem.retain
  split_ifs
  · exact .ended rfl (.inl rfl) rfl
  · exact .ended rfl (.inr rfl) rfl
  · exact .kept

theorem update_selects {current : Option ActiveGoal} (hcurrent : ∀ goal, current = some goal → Proper goal)
    (needs : Needs.NeedsState) (source : Bool) (nowMs : UInt64) :
    Selects current (GoalSystem.updateActiveGoal current needs (GoalSystem.generateCandidates needs source) nowMs) := by
  unfold GoalSystem.updateActiveGoal
  cases hbest : GoalSystem.selectBest (GoalSystem.generateCandidates needs source) with
  | none =>
    cases current with
    | none => exact .kept
    | some goal => exact retain_selects needs nowMs
  | some best =>
    have hproper := candidate_proper (selectBest_mem hbest) nowMs
    cases current with
    | none => exact .activated rfl hproper
    | some goal =>
      dsimp only
      split_ifs with hrank
      · -- only an emergency outranks anything, and only what is none is outranked
        cases hcurrent goal rfl with
        | food htype hpriority =>
          cases hproper with
          | food _ hnormal =>
            rw [hpriority, show best.priority = .normal from hnormal] at hrank
            exact absurd hrank (lt_irrefl _)
          | flee htype' hemergency => exact .interrupted rfl htype htype' (.flee htype' hemergency)
        | flee _ hpriority =>
          rw [hpriority] at hrank
          cases hbestp : best.priority <;> rw [hbestp] at hrank <;> exact absurd hrank (by decide)
      · exact retain_selects needs nowMs

theorem goal_selects (h : ∀ goal, a.record.activeGoalState = some goal → Proper goal) :
    Selects a.record.activeGoalState (selectGoal c t a) := by
  have hupdate := update_selects h a.record.needs a.body.threatVictim.isSome t.nowMs
  unfold selectGoal
  dsimp only
  split
  · split_ifs
    · exact .kept
    · exact hupdate
  · exact hupdate

/-! ### Committing to it -/

structure Fit (a : Actor) : Prop where
  claimed : Claimed a.record
  moving : Moving a.record a.body

theorem Moving.of_eq {r' : AgentRecord} (h : Moving r b) (haction : r'.activeActionState = r.activeActionState)
    (hgoal : r'.activeGoalState = r.activeGoalState) (hworld : r'.worldState = r.worldState) : Moving r' b where
  move := by rw [haction]; exact h.move
  chase := by rw [haction]; exact h.chase
  flee := by rw [hgoal]; exact h.flee
  dead := h.dead
  bound := by rw [hworld]; exact h.bound

/-- A creature that stands still, or flees for a reason, is in step with any record. -/
theorem Moving.still {r' : AgentRecord} {b' : Body} (h : Moving r b) (hmove : b'.ownMoveTo = false)
    (hchase : b'.chasing = none) (hflee : b'.ownFlee = b.ownFlee) (halive : b'.alive = b.alive)
    (hgoal : b.ownFlee = true → ∃ goal, r'.activeGoalState = some goal ∧ goal.type = .fleeDanger)
    (hworld : r'.worldState = r.worldState) : Moving r' b' where
  move := by
    rw [hmove]
    intro h
    contradiction
  chase := by
    intro guid hguid
    rw [hchase] at hguid
    contradiction
  flee := by
    rw [hflee]
    exact hgoal
  dead := by
    rw [halive, hflee]
    exact fun hdead => ⟨hmove, (h.dead hdead).2.1, hchase⟩
  bound := by
    rw [hworld, hmove, hchase, hflee]
    rintro (hno | hflees | hno)
    · contradiction
    · exact h.bound (.inr (.inl hflees))
    · contradiction

/-- A creature that has stopped where nothing else moved it. -/
theorem Moving.stopped (h : Moving r b) (hchase : b.chasing = none) {r' : AgentRecord}
    (hflee : b.ownFlee = true → ∃ goal, r'.activeGoalState = some goal ∧ goal.type = .fleeDanger)
    (hworld : r'.worldState = r.worldState) : Moving r' b.stopMoveTo :=
  h.still rfl hchase rfl rfl hflee hworld

theorem commit_kept : commitGoal ⟨a.record.activeGoalState, .none, none⟩ a = a := by simp [commitGoal]

theorem commit_fit (h : Owned a.record) (hm : Moving a.record a.body) (hs : Selects a.record.activeGoalState selection) :
    Fit (commitGoal selection a) ∧ (commitGoal selection a).record.activeGoalState = selection.goal := by
  cases hs with
  | kept =>
    rw [commit_kept]
    exact ⟨⟨h.toClaimed, hm⟩, rfl⟩
  | @activated goal hnone hproper =>
    have hcommit : commitGoal ⟨some goal, .activated, none⟩ a =
        ⟨{ a.record with activeGoalState := some goal }, a.body⟩ := by simp [commitGoal]
    rw [hcommit]
    refine ⟨⟨{ h.toClaimed with goal := ?_, action := ?_ }, { hm with flee := ?_ }⟩, rfl⟩
    · intro goal' hgoal'
      rw [← Option.some.inj hgoal']
      exact hproper
    · intro action haction
      rcases h.action action haction with ⟨_, _, old, hold, _⟩ | hrest
      · rw [hnone] at hold
        contradiction
      · exact .inr hrest
    · intro hflee
      obtain ⟨old, hold, -⟩ := hm.flee hflee
      rw [hnone] at hold
      contradiction
  | @interrupted old goal hold hfood hflee hproper =>
    have hcommit : commitGoal ⟨some goal, .interrupted, none⟩ a =
        ⟨{ a.record with activeGoalState := some goal, activeActionState := none }, a.body.stopMoveTo⟩ := by
      simp [commitGoal, hflee]
    have hchase := hm.not_chasing fun action haction => (h.not_attack hold haction).1
    rw [hcommit]
    refine ⟨⟨claimed_of_idle ?_ h.routine rfl (h.ungrouped hold), hm.stopped hchase ?_ rfl⟩, rfl⟩
    · intro goal' hgoal'
      rw [← Option.some.inj hgoal']
      exact hproper
    · exact fun _ => ⟨goal, rfl, hflee⟩
  | @ended old transition completion hold hended htype =>
    have hchase := hm.not_chasing fun action haction => (h.not_attack hold haction).1
    cases h.goal old hold with
    | flee hflee =>
      have hcommit : commitGoal ⟨none, transition, some completion⟩ a =
          ⟨{ a.record with activeGoalState := none }, a.body.stopFlee⟩ := by simp [commitGoal, htype, hflee]
      -- a fleeing agent does nothing else
      have haction : a.record.activeActionState = none := by
        cases haction : a.record.activeActionState with
        | none => rfl
        | some action =>
          rw [(h.not_attack hold haction).2.2] at hflee
          contradiction
      rw [hcommit]
      refine ⟨⟨{ h.toClaimed with goal := (by intro _ h; contradiction), action := ?_ },
        { move := hm.move, chase := hm.chase, flee := (by intro h; contradiction), dead := ?_, bound := ?_ }⟩, rfl⟩
      · intro action haction'
        rw [show a.record.activeActionState = some action from haction'] at haction
        contradiction
      · exact fun hdead => ⟨(hm.dead hdead).1, rfl, (hm.dead hdead).2.2⟩
      · rintro (hmove | hflee | hchase)
        · exact hm.bound (.inl hmove)
        · contradiction
        · exact hm.bound (.inr (.inr hchase))
    | food hfood =>
      have hcommit : commitGoal ⟨none, transition, some completion⟩ a =
          ⟨{ a.record with activeGoalState := none, activeActionState := none }, a.body.stopMoveTo⟩ := by
        simp [commitGoal, htype, hfood]
      rw [hcommit]
      refine ⟨⟨claimed_of_idle ?_ h.routine rfl (h.ungrouped hold), hm.stopped hchase ?_ rfl⟩, rfl⟩
      · intro _ hgoal
        contradiction
      · intro hflee
        obtain ⟨goal, hgoal, hgoaltype⟩ := hm.flee hflee
        rw [hold, Option.some.injEq] at hgoal
        rw [← hgoal, hfood] at hgoaltype
        contradiction

/-! ### Yielding -/

theorem derived_routine {current : Option ActiveGoal} {home work : Option AgentLocation} {nowMs : UInt64}
    {config : RoutineScheduleConfig} {goal : RoutineGoal}
    (h : RoutineSystem.deriveGoal current home work nowMs config = some goal) :
    isRoutineSourceGoal goal.type = true ∧ home.isSome ∧ work.isSome := by
  unfold RoutineSystem.deriveGoal at h
  split at h
  · split_ifs at h
    rw [← Option.some.inj h]
    refine ⟨?_, rfl, rfl⟩
    dsimp only
    split_ifs <;> rfl
  · contradiction

theorem derive_fit (h : Fit a) : Fit (deriveRoutine c t a) where
  claimed := { h.claimed with routine := fun _ hgoal => derived_routine hgoal }
  moving := h.moving.of_eq rfl rfl rfl

/-- Nothing but an emergency takes the day from an agent that has a home and a place of work. -/
theorem derive_day (hfree : (deriveRoutine c t a).record.activeGoalState = none)
    (hhome : (deriveRoutine c t a).record.homeLocation.isSome) (hwork : (deriveRoutine c t a).record.workLocation.isSome) :
    (deriveRoutine c t a).record.routineGoalState.isSome := by
  obtain ⟨home, hhome⟩ := Option.isSome_iff_exists.mp hhome
  obtain ⟨work, hwork⟩ := Option.isSome_iff_exists.mp hwork
  rw [show (deriveRoutine c t a).record.routineGoalState = RoutineSystem.deriveGoal
    (deriveRoutine c t a).record.activeGoalState (deriveRoutine c t a).record.homeLocation
    (deriveRoutine c t a).record.workLocation t.nowMs c.routineScheduleConfig from rfl, hfree, hhome, hwork]
  rfl

theorem preemptRoutine_record : (preemptRoutine a).record.activeGoalState = a.record.activeGoalState ∧
    (preemptRoutine a).record.routineGoalState = a.record.routineGoalState ∧
    (preemptRoutine a).record.homeLocation = a.record.homeLocation ∧
    (preemptRoutine a).record.workLocation = a.record.workLocation := by
  unfold preemptRoutine
  split_ifs <;> exact ⟨rfl, rfl, rfl, rfl⟩

theorem preemptRoutine_fit (h : Fit a) : Fit (preemptRoutine a) := by
  unfold preemptRoutine
  split_ifs with hyield
  · obtain ⟨-, hroutine⟩ := hyield
    obtain ⟨action, haction, hsource⟩ := Option.any_eq_true _ _ |>.mp hroutine
    have hmove : action.type = .moveTo := by
      rcases h.claimed.action action haction with ⟨hmove, -⟩ | ⟨hmove, -⟩ | ⟨g, hg, hpursues⟩
      · exact hmove
      · exact hmove
      · have hcoord := hpursues.coordination (h.claimed.group g hg).1
        rw [not_routine_of_coordination hcoord] at hsource
        contradiction
    have hchase : a.body.chasing = none := h.moving.not_chasing fun action' haction' => by
      rw [haction, Option.some.injEq] at haction'
      exact haction' ▸ hmove
    refine ⟨claimed_of_idle h.claimed.goal h.claimed.routine rfl ?_, h.moving.stopped hchase h.moving.flee rfl⟩
    show a.record.groupCoordinationGoalState = none
    cases hg : a.record.groupCoordinationGoalState with
    | none => rfl
    | some g =>
      have hcoord := ((h.claimed.group g hg).2.1 action haction).coordination (h.claimed.group g hg).1
      rw [not_routine_of_coordination hcoord] at hsource
      contradiction
  · exact h

/-! ### The end of an attempt -/

@[simp] theorem endCombat_movement (b : Body) (guid : ObjectGuid) :
    (b.endCombat guid).ownMoveTo = b.ownMoveTo ∧ (b.endCombat guid).ownFlee = b.ownFlee ∧
      (b.endCombat guid).chasing = b.chasing ∧ (b.endCombat guid).alive = b.alive := by
  unfold Body.endCombat
  split_ifs <;> exact ⟨rfl, rfl, rfl, rfl⟩

theorem stopAttack_movement (b : Body) (guid : ObjectGuid) :
    (b.stopAttack guid).ownMoveTo = b.ownMoveTo ∧ (b.stopAttack guid).ownFlee = b.ownFlee ∧
      (b.stopAttack guid).chasing = b.chasing.filter (· ≠ guid) ∧ (b.stopAttack guid).alive = b.alive := by
  obtain ⟨hmove, hflee, hchase, halive⟩ := endCombat_movement { b with victim := b.victim.filter (· ≠ guid) } guid
  refine ⟨hmove, hflee, ?_, halive⟩
  rw [Body.stopAttack]
  dsimp only
  rw [hchase]

/-- An agent that fights for its group and stops fighting stands still. -/
theorem Moving.disengaged {r' : AgentRecord} (h : Moving r b) (hpursues : Pursues g action)
    (haction : r.activeActionState = some action) (hattack : action.type = .attack)
    (hgoal : r'.activeGoalState = r.activeGoalState) (hworld : r'.worldState = r.worldState) :
    Moving r' (b.stopAttack g.targetGuid) := by
  obtain ⟨hmove, hflee, hchase, halive⟩ := stopAttack_movement b g.targetGuid
  have hhunt : g.type = .hunt := by
    rcases hpursues.kind with ⟨hmove, -⟩ | ⟨-, hhunt, -⟩
    · rw [hmove] at hattack
      contradiction
    · exact hhunt
  refine h.still ?_ ?_ hflee halive (by rw [hgoal]; exact h.flee) hworld
  · rw [hmove]
    refine h.not_moving fun action' haction' => ?_
    rw [haction, Option.some.injEq] at haction'
    rw [← haction', hattack]
    decide
  · rw [hchase]
    cases hguid : b.chasing with
    | none => rfl
    | some guid =>
      obtain ⟨action', target, haction', -, htarget, hsame⟩ := h.chase guid hguid
      rw [haction, Option.some.injEq] at haction'
      rw [← haction', hpursues.target hhunt, Option.some.injEq] at htarget
      rw [← hsame, ← htarget]
      simp

/-- What the end of an attempt leaves: the attempt and its action are gone, and all else is as it was. -/
structure CalledOff (s s' : AgentState) : Prop where
  group : s'.record.groupCoordinationGoalState = none
  action : s'.record.activeActionState = none
  goal : s'.record.activeGoalState = s.record.activeGoalState
  routine : s'.record.routineGoalState = s.record.routineGoalState
  home : s'.record.homeLocation = s.record.homeLocation
  work : s'.record.workLocation = s.record.workLocation
  activity : s'.record.routineActivityState = s.record.routineActivityState
  pending : s'.record.pendingEat = s.record.pendingEat
  world : s'.record.worldState = s.record.worldState
  economy : s'.record.economyState = s.record.economyState
  body : ∀ b, s.body = some b → Moving s.record b → ∃ b', s'.body = some b' ∧ Moving s'.record b'
  nobody : s.body = none → s'.body = none

theorem endCoordination_calledOff {s : AgentState} (h : Claimed s.record)
    (hg : s.record.groupCoordinationGoalState = some g) (reason : CoordinationStopReason)
    (preempting : Option (CoordinationPreemptingOwner × Action.GoalType)) (nowMs : UInt64) :
    CalledOff s (endCoordination g reason preempting nowMs s) where
  group := rfl
  action := by
    cases haction : s.record.activeActionState with
    | none => simp [endCoordination, haction]
    | some action => simp [endCoordination, haction, ((h.group g hg).2.1 action haction).owns]
  goal := rfl
  routine := rfl
  home := rfl
  work := rfl
  activity := rfl
  pending := rfl
  world := rfl
  economy := rfl
  nobody := by
    intro hbody
    simp [endCoordination, hbody]
  body := by
    intro b hbody hm
    cases haction : s.record.activeActionState with
    | none =>
      refine ⟨b, by simp [endCoordination, haction, hbody, ownsStoppedMovement], hm.of_eq ?_ rfl rfl⟩
      simp [endCoordination, haction]
    | some action =>
      have hpursues := (h.group g hg).2.1 action haction
      have howns := hpursues.owns
      by_cases hworld : s.record.worldState = .materialized
      · rcases hpursues.kind with ⟨htype, -⟩ | ⟨htype, hhunt, -⟩
        · refine ⟨b.stopMoveTo, by simp [endCoordination, haction, howns, hworld, hbody, htype], ?_⟩
          refine hm.stopped (hm.not_chasing fun action' haction' => ?_) hm.flee rfl
          rw [haction, Option.some.injEq] at haction'
          exact haction' ▸ htype
        · refine ⟨b.stopAttack g.targetGuid, by simp [endCoordination, haction, howns, hworld, hbody, htype],
            hm.disengaged hpursues haction htype rfl rfl⟩
      · -- nothing of the agent's own runs in a creature it is not bound to
        have hquiet : ¬ (b.ownMoveTo = true ∨ b.ownFlee = true ∨ b.chasing.isSome = true) :=
          fun hrun => hworld (hm.bound hrun)
        simp only [not_or, Bool.not_eq_true, Option.isSome_eq_false_iff, Option.isNone_iff_eq_none] at hquiet
        refine ⟨b, by simp [endCoordination, hworld, hbody], hm.still hquiet.1 hquiet.2.2 rfl rfl hm.flee rfl⟩

/-- An agent that all yield for: what it does is the need's, the day's or the group's, in this order. -/
structure Tiered (a : Actor) : Prop extends Fit a where
  need : a.record.activeGoalState.isSome → ∀ action, a.record.activeActionState = some action →
    isRoutineSourceGoal action.sourceGoal = false
  day : a.record.activeGoalState = none → a.record.homeLocation.isSome → a.record.workLocation.isSome →
    a.record.routineGoalState.isSome
  member : a.record.groupCoordinationGoalState.isSome →
    a.record.activeGoalState = none ∧ a.record.routineGoalState = none

theorem preemptingOwner_eq_none (h : preemptingOwner r = none) :
    r.activeGoalState = none ∧ r.routineGoalState = none := by
  unfold preemptingOwner at h
  cases hgoal : r.activeGoalState <;> cases hroutine : r.routineGoalState <;> simp_all

theorem preemptRoutine_need : (preemptRoutine a).record.activeGoalState.isSome →
    ∀ action, (preemptRoutine a).record.activeActionState = some action →
      isRoutineSourceGoal action.sourceGoal = false := by
  intro hgoal action haction
  unfold preemptRoutine at hgoal haction
  split_ifs at hgoal haction with hyield
  refine Bool.eq_false_iff.mpr fun hroutine => hyield ⟨hgoal, ?_⟩
  rw [haction]
  exact hroutine

theorem preemptCoordination_tiered (h : Fit a)
    (hneed : a.record.activeGoalState.isSome → ∀ action, a.record.activeActionState = some action →
      isRoutineSourceGoal action.sourceGoal = false)
    (hday : a.record.activeGoalState = none → a.record.homeLocation.isSome → a.record.workLocation.isSome →
      a.record.routineGoalState.isSome) :
    Tiered (preemptCoordination t a) ∧
      (preemptCoordination t a).record.activeGoalState = a.record.activeGoalState := by
  unfold preemptCoordination preemptInFlightGroupCoordination
  dsimp only
  cases hg : a.record.groupCoordinationGoalState with
  | none => exact ⟨{ h with need := hneed, day := hday, member := by simp [hg] }, rfl⟩
  | some g =>
    dsimp only
    split_ifs with hyield
    · have hoff := endCoordination_calledOff (s := ⟨a.record, some a.body⟩) h.claimed hg .preemptedByGoal
        (preemptingOwner a.record) t.nowMs
      obtain ⟨b, hb, hmoving⟩ := hoff.body a.body rfl h.moving
      rw [hb, Option.getD_some]
      refine ⟨⟨⟨claimed_of_idle ?_ ?_ hoff.action hoff.group, hmoving⟩, ?_, ?_, ?_⟩, hoff.goal⟩
      · rw [hoff.goal]
        exact h.claimed.goal
      · rw [hoff.routine, hoff.home, hoff.work]
        exact h.claimed.routine
      · intro _ action haction
        rw [hoff.action] at haction
        contradiction
      · rw [hoff.goal, hoff.home, hoff.work, hoff.routine]
        exact hday
      · rw [hoff.group]
        intro hsome
        contradiction
    · refine ⟨{ h with need := hneed, day := hday, member := fun _ => ?_ }, rfl⟩
      rw [(h.claimed.group g hg).1, Bool.and_true, Bool.not_eq_true, Option.isSome_eq_false_iff,
        Option.isNone_iff_eq_none] at hyield
      exact preemptingOwner_eq_none hyield

/-- What stands before the agent acts: the lower tiers have yielded to the chosen goal. -/
theorem yield_tiered (h : Owned a.record) (hm : Moving a.record a.body)
    (hs : Selects a.record.activeGoalState selection) :
    Tiered (preemptCoordination t (preemptRoutine (deriveRoutine c t (commitGoal selection a)))) ∧
      (preemptCoordination t (preemptRoutine (deriveRoutine c t (commitGoal selection a)))).record.activeGoalState =
        selection.goal := by
  obtain ⟨hfit, hgoal⟩ := commit_fit h hm hs
  obtain ⟨hsame, hroutine, hhome, hwork⟩ := preemptRoutine_record (a := deriveRoutine c t (commitGoal selection a))
  obtain ⟨htiered, hkeeps⟩ := preemptCoordination_tiered (t := t) (preemptRoutine_fit (derive_fit hfit))
    preemptRoutine_need (by
      rw [hsame, hroutine, hhome, hwork]
      exact derive_day)
  exact ⟨htiered, hkeeps.trans (hsame.trans hgoal)⟩

end AIWorld.Goal
