import AIWorld.Goal.PassOwnership

/-! Whose action runs, at every moment. What a group asks of a member, what the engine reports and what the engine
does by itself keep every action with its owner; so does the pass over the needs. It follows for every run, in
whatever order the groups, the engine, the database and the restarts of the world come. -/

namespace AIWorld.Goal

open AIWorld.Action (ActionRequest ActionValidationContext SimulationScope validate validate_allowed_iff)
open Quest (ObjectGuid)
open Lib (Machine)

variable {c : NeedsConfig} {s s' : AgentState} {r r' : AgentRecord} {b : Body} {g : GroupCoordinationGoal}
  {action : ActiveAction}

/-! ### An agent in step -/

/-- The record has an owner for its action, and the creature does what the record says. -/
structure InStep (s : AgentState) : Prop where
  owned : Owned s.record
  moving : ∀ b, s.body = some b → Moving s.record b

/-- An agent that has stopped what it did for a group is as it was, but idle. -/
theorem Owned.idle (h : Owned r) (hgoal : r'.activeGoalState = r.activeGoalState)
    (hroutine : r'.routineGoalState = r.routineGoalState) (hhome : r'.homeLocation = r.homeLocation)
    (hwork : r'.workLocation = r.workLocation) (hpending : r'.pendingEat = r.pendingEat)
    (hactivity : r'.routineActivityState = r.routineActivityState) (haction : r'.activeActionState = none)
    (hgroup : r'.groupCoordinationGoalState = none) : Owned r' where
  toPlaced := by
    refine placed_of_idle ?_ ?_ hgroup haction
    · rw [hgoal]
      exact h.goal
    · rw [hroutine, hhome, hwork]
      exact h.routine
  arrival := by
    rw [hpending, hgoal]
    intro pending hsome
    obtain ⟨hfood, -, hsame⟩ := h.arrival pending hsome
    exact ⟨hfood, haction, hsame⟩
  activity := by
    rw [hactivity]
    intro activity hsome
    have hsettled := h.activity activity hsome
    refine ⟨hgoal.trans hsettled.free, haction, ?_⟩
    rw [hroutine]
    exact hsettled.place

theorem CalledOff.inStep (h : InStep s) (hoff : CalledOff s s') : InStep s' where
  owned := h.owned.idle hoff.goal hoff.routine hoff.home hoff.work hoff.pending hoff.activity hoff.action hoff.group
  moving := by
    intro b' hb'
    cases hbody : s.body with
    | none =>
      rw [hoff.nobody hbody] at hb'
      contradiction
    | some b =>
      obtain ⟨b'', hb'', hmoving⟩ := hoff.body b hbody (h.moving b hbody)
      rw [hb', Option.some.injEq] at hb''
      exact hb'' ▸ hmoving

/-! ### Called off -/

theorem stopInFlight_inStep (reason : CoordinationStopReason) (nowMs : UInt64) (h : InStep s) :
    InStep (stopInFlightGroupCoordination reason nowMs s) := by
  unfold stopInFlightGroupCoordination
  split
  · exact h
  · rename_i g hg
    rw [if_pos (h.owned.group g hg).1]
    exact (endCoordination_calledOff h.owned.toClaimed hg reason none nowMs).inStep h

theorem stopForMember_inStep (group nowMs : UInt64) (h : InStep s) :
    InStep (stopGroupCoordinationForMember group nowMs s) := by
  unfold stopGroupCoordinationForMember
  split_ifs
  · exact stopInFlight_inStep _ nowMs h
  · exact h

/-- A hunter that engages fights its prey. -/
theorem engaging_attacks (h : Owned r) (hg : r.groupCoordinationGoalState = some g) (hphase : g.phase = .engaging) :
    ∃ action, r.activeActionState = some action ∧ Pursues g action ∧ action.type = .attack ∧ g.type = .hunt := by
  cases haction : r.activeActionState with
  | none =>
    rw [((h.group g hg).2.2 haction).2] at hphase
    contradiction
  | some action =>
    have hpursues := (h.group g hg).2.1 action haction
    rcases hpursues.kind with ⟨-, happroaching⟩ | ⟨hattack, hhunt, -⟩
    · rw [happroaching] at hphase
      contradiction
    · exact ⟨action, rfl, hpursues, hattack, hhunt⟩

theorem reconcileHunt_inStep (group : UInt64) (target : Option Prey) (nowMs : UInt64) (h : InStep s) :
    InStep (reconcileActiveHuntTarget group target nowMs s) := by
  unfold reconcileActiveHuntTarget
  split
  · rename_i g b hg hb
    split_ifs with hskip hkilled hprey
    · exact h
    · rw [Bool.and_eq_true, decide_eq_true_eq] at hkilled
      obtain ⟨action, haction, hpursues, hattack, hhunt⟩ := engaging_attacks h.owned hg hkilled.1
      have howns : (s.record.activeActionState.any fun action =>
          decide (action.type = .attack) && decide (action.sourceGoal = .hunt) &&
            action.goalStartedAtMs == g.startedAtMs && action.target.any fun t => t.guid = g.targetGuid) = true := by
        rw [haction, Option.any_some, hattack, hpursues.source, hpursues.started, hpursues.target hhunt, hhunt]
        simp
      refine ⟨h.owned.idle rfl rfl rfl rfl rfl rfl rfl rfl, fun b' hb' => ?_⟩
      dsimp only at hb'
      rw [howns, if_pos rfl, Option.some.injEq] at hb'
      rw [← hb']
      exact (h.moving b hb).disengaged hpursues haction hattack rfl rfl
    · exact h
    · exact stopInFlight_inStep _ nowMs h
  · exact h

/-! ### Sent out -/

/-- An agent that nothing of its own keeps takes up what its group wants. -/
theorem Owned.joined (h : Owned r) (hfree : r.activeGoalState = none) (hidle : r.routineGoalState = none)
    (hcontrol : r.controlMode = .aiWorldControlled) (hcoordination : isCoordinationSourceGoal g.type = true)
    (hpursues : Pursues g action) :
    Owned { r with groupCoordinationGoalState := some g, activeActionState := some action } where
  goal := h.goal
  routine := h.routine
  action := by
    intro action' haction'
    rw [← Option.some.inj haction']
    exact .inr (.inr ⟨g, rfl, hpursues⟩)
  group := by
    intro g' hg'
    rw [← Option.some.inj hg']
    refine ⟨hcoordination, fun action' haction' => ?_, fun hnone => by contradiction⟩
    rw [← Option.some.inj haction']
    exact hpursues
  controlled := fun _ => hcontrol
  located := by
    intro action' haction' hroutine
    rw [← Option.some.inj haction', not_routine_of_coordination (hpursues.coordination hcoordination)] at hroutine
    contradiction
  owner := by
    intro action' haction'
    rw [← Option.some.inj haction']
    exact .group hfree hidle rfl hpursues
  member := fun _ => ⟨hfree, hidle⟩
  arrival := by
    intro pending hpending
    obtain ⟨-, -, goal, hgoal, -⟩ := h.arrival pending hpending
    rw [hfree] at hgoal
    contradiction
  activity := by
    intro activity hactivity
    have hplace := (h.activity activity hactivity).place
    rw [hidle] at hplace
    contradiction

theorem executeMoveTo_begun {request : ActionRequest} (h : (b.executeMoveTo request).1 = true) :
    request.type = .moveTo ∧ b.hasActiveMovement = false ∧
      (b.executeMoveTo request).2 = { b with ownMoveTo := true } := by
  unfold Body.executeMoveTo at h ⊢
  split_ifs at h ⊢ with hrequest hactive
  rw [not_or, not_not] at hrequest
  exact ⟨hrequest.1, Bool.eq_false_iff.mpr hactive, rfl⟩

/-- An attempt that begins belongs to the request it begins with. -/
structure Begins (request : ActionRequest) (g : GroupCoordinationGoal) : Prop where
  source : g.type = request.sourceGoal
  started : g.startedAtMs = request.goalStartedAtMs
  phase : g.phase = .approaching
  coordination : isCoordinationSourceGoal g.type = true
  target : g.type = .hunt → request.target = some ⟨g.targetGuid, g.targetEntry⟩

theorem startCoordination_inStep {request : ActionRequest} {context : ActionValidationContext}
    {previous : Option GroupCoordinationGoal} {nowMs : UInt64} (h : InStep s)
    (hfree : s.record.activeGoalState = none) (hidle : s.record.routineGoalState = none)
    (haction : s.record.activeActionState = none) (hworld : s.record.worldState = .materialized)
    (halive : b.alive = true) (hcontrol : context.controlMode = s.record.controlMode) (hbegins : Begins request g)
    (hprevious : previous = none ∨ previous = s.record.groupCoordinationGoalState) :
    InStep (startCoordination request context g previous nowMs b s) := by
  unfold startCoordination
  split_ifs with hstart
  · obtain ⟨hallowed, hmove⟩ := hstart
    obtain ⟨htype, hstill, hbody⟩ := executeMoveTo_begun hmove
    have hcontrolled := (validate_allowed_iff.mp hallowed).1.controlled
    rw [hcontrol] at hcontrolled
    refine ⟨h.owned.joined hfree hidle hcontrolled hbegins.coordination ?_, fun b' hb' => ?_⟩
    · exact ⟨hbegins.source.symm, hbegins.started.symm, .inl ⟨htype, hbegins.phase⟩, hbegins.target⟩
    · rw [← Option.some.inj hb', hbody]
      exact moving_of_begun hstill halive hworld rfl htype
  · rcases hprevious with rfl | rfl
    · exact ⟨h.owned.idle rfl rfl rfl rfl rfl rfl haction rfl, fun b' hb' => (h.moving b' hb').of_eq rfl rfl rfl⟩
    · exact h

theorem send_inStep (scope : SimulationScope) (p : GroupMemberActionProposal) (standing : GroupStanding)
    (ground : Ground) (nowMs : UInt64) (h : InStep s) :
    InStep (dispatchGroupMemberActionProposal scope p standing ground nowMs s) := by
  unfold dispatchGroupMemberActionProposal
  split
  · rename_i sourceGoal b hsource hb
    split_ifs with hmany hpresent hbusy hfar
    · exact h
    · exact h
    · exact h
    · exact h
    · split
      · exact h
      · simp only [Bool.or_eq_true, decide_eq_true_eq, Bool.not_eq_true', not_or, Bool.not_eq_false, not_not,
          Bool.not_eq_true, Option.isSome_eq_false_iff, Option.isNone_iff_eq_none] at hpresent hbusy
        refine startCoordination_inStep h hbusy.1.1 hbusy.1.2 hbusy.2 hpresent.1.2 hpresent.2 rfl
          ⟨rfl, rfl, rfl, ?_, ?_⟩ (.inl rfl)
        · cases hintent : p.sourceIntent with
          | none => rw [hintent] at hsource; contradiction
          | regroup => rw [hintent] at hsource; rw [← Option.some.inj hsource]; rfl
          | roam => rw [hintent] at hsource; rw [← Option.some.inj hsource]; rfl
        · intro hhunt
          cases hintent : p.sourceIntent with
          | none => rw [hintent] at hsource; contradiction
          | regroup =>
            rw [hintent] at hsource
            rw [show sourceGoal = .hunt from hhunt] at hsource
            contradiction
          | roam =>
            rw [hintent] at hsource
            rw [show sourceGoal = .hunt from hhunt] at hsource
            contradiction
  · exact h

theorem resolve_guid {target : Option Prey} {guid : ObjectGuid} {t : Prey} (h : resolve target guid = some t) :
    t.guid = guid := by
  obtain ⟨-, hguid⟩ := Option.filter_eq_some_iff.mp h
  exact of_decide_eq_true hguid

theorem hunt_inStep (scope : SimulationScope) (p : HuntProposal) (standing : GroupStanding) (target : Option Prey)
    (ground : Ground) (nowMs : UInt64) (h : InStep s) :
    InStep (dispatchHuntProposal scope p standing target ground nowMs s) := by
  unfold dispatchHuntProposal
  split_ifs with hpresent hbusy hother hmany
  · exact h
  · exact h
  · exact h
  · exact h
  · split
    · rename_i b t hb ht
      split_ifs with hmay
      · exact h
      · simp only [Bool.or_eq_true, decide_eq_true_eq, Bool.not_eq_true', not_or, Bool.not_eq_false, not_not,
          Bool.not_eq_true, Option.isSome_eq_false_iff, Option.isNone_iff_eq_none] at hpresent hbusy hmay
        exact startCoordination_inStep h hbusy.1.1 hbusy.1.2 hbusy.2 hpresent.2 hmay.1 rfl
          ⟨rfl, rfl, rfl, rfl, fun _ => rfl⟩ (.inr rfl)
    · exact h

/-! ### Set upon the prey -/

theorem executeAttack_begun {request : ActionRequest} {target : ObjectGuid} {accepts : Bool}
    (h : (b.executeAttack request target accepts).1 = true) :
    (b.executeAttack request target accepts).2 = { b with victim := some target, chasing := some target } := by
  unfold Body.executeAttack at h ⊢
  split_ifs at h ⊢
  rfl

theorem engage_inStep (scope : SimulationScope) {t : Prey} (accepts : Bool) (nowMs : UInt64) (h : InStep s)
    (hb : s.body = some b) (hfree : s.record.activeGoalState = none) (hidle : s.record.routineGoalState = none)
    (haction : s.record.activeActionState = none) (hcontrol : s.record.controlMode = .aiWorldControlled)
    (hworld : s.record.worldState = .materialized) (halive : b.alive = true) (hhunt : g.type = .hunt)
    (hguid : t.guid = g.targetGuid) (hentry : t.entry = g.targetEntry) :
    InStep (engage scope g t accepts nowMs b s) := by
  have hm := h.moving b hb
  have hstill : b.ownMoveTo = false := hm.not_moving fun action haction' => by
    rw [haction] at haction'
    contradiction
  have hflee : b.ownFlee = false := hm.not_fleeing fun goal hgoal => by
    rw [hfree] at hgoal
    contradiction
  have hchase : b.chasing = none := hm.not_chasing fun action haction' => by
    rw [haction] at haction'
    contradiction
  have hcoordination : isCoordinationSourceGoal g.type = true := by
    rw [hhunt]
    rfl
  have hjoined {action : ActiveAction} (hpursues : Pursues { g with phase := .engaging } action) :=
    h.owned.joined (g := { g with phase := .engaging }) hfree hidle hcontrol hcoordination hpursues
  have htarget : some (⟨t.guid, t.entry⟩ : Action.ActionTargetRef) = some ⟨g.targetGuid, g.targetEntry⟩ := by
    rw [hguid, hentry]
  unfold engage
  dsimp only
  split_ifs with hrejected hrefused hengaged
  · exact h
  · exact h
  · refine ⟨hjoined ⟨hhunt.symm, rfl, .inr ⟨rfl, hhunt, rfl⟩, fun _ => htarget⟩, fun b' hb' => ?_⟩
    rw [← Option.some.inj hb']
    refine ⟨fun hmove => ?_, fun guid hguid => ?_, fun hflees => ?_, hm.dead, fun _ => hworld⟩
    · rw [hstill] at hmove
      contradiction
    · rw [hchase] at hguid
      contradiction
    · rw [hflee] at hflees
      contradiction
  · rw [Bool.and_eq_true, not_and, Bool.not_eq_true', Bool.not_eq_true', Bool.not_eq_false] at hrefused
    have hbegun := hrefused (Bool.eq_false_iff.mpr hengaged)
    refine ⟨hjoined ⟨hhunt.symm, rfl, .inr ⟨rfl, hhunt, rfl⟩, fun _ => htarget⟩, fun b' hb' => ?_⟩
    rw [← Option.some.inj hb', executeAttack_begun hbegun]
    refine ⟨fun hmove => ?_, fun guid hguid => ?_, fun hflees => ?_, fun hdead => ?_, fun _ => hworld⟩
    · rw [show b.ownMoveTo = true from hmove] at hstill
      contradiction
    · exact ⟨_, _, rfl, rfl, rfl, Option.some.inj hguid⟩
    · rw [show b.ownFlee = true from hflees] at hflee
      contradiction
    · rw [show b.alive = false from hdead] at halive
      contradiction

theorem attack_inStep (scope : SimulationScope) (group : UInt64) (standing : GroupStanding) (target : Option Prey)
    (accepts : Bool) (nowMs : UInt64) (h : InStep s) :
    InStep (dispatchHuntAttack scope group standing target accepts nowMs s) := by
  unfold dispatchHuntAttack
  split_ifs with hbusy
  · exact h
  · split
    · rename_i g b hg hb
      split_ifs with hready
      · exact h
      · split
        · exact h
        · rename_i t ht
          split_ifs with hprey
          · exact h
          · simp only [Bool.or_eq_true, decide_eq_true_eq, Bool.not_eq_true', not_or, Bool.not_eq_false, not_not,
              Bool.not_eq_true, Option.isSome_eq_false_iff, Option.isNone_iff_eq_none, bne_iff_ne, ne_eq]
              at hbusy hready hprey
            exact engage_inStep scope accepts nowMs h hb hbusy.1.1.2 hbusy.1.2 hbusy.2 hbusy.1.1.1.1.1.1
              hready.1.2 hready.2 hready.1.1.1.1.1 (resolve_guid ht) hprey.1.1.1.1.2
    · exact h

theorem poll_inStep (h : InStep s) : InStep (poll s) := by
  unfold poll
  split
  · rename_i b hb
    refine ⟨bindCreature_owned h.owned, fun b' hb' => ?_⟩
    rw [hb, Option.some.injEq] at hb'
    rw [← hb']
    exact bindCreature_moving (h.moving b hb)
  · rename_i hb
    split_ifs
    · refine ⟨h.owned.same ⟨rfl, rfl, rfl, rfl, rfl, rfl, rfl⟩ rfl rfl, fun b' hb' => ?_⟩
      rw [hb] at hb'
      contradiction
    · exact h

theorem groupStep_inStep (scope : SimulationScope) (step : GroupStep) (h : InStep s) :
    InStep (groupStep scope s step) := by
  cases step with
  | poll => exact poll_inStep h
  | leave group nowMs => exact stopForMember_inStep group nowMs h
  | stop reason nowMs => exact stopInFlight_inStep reason nowMs h
  | reconcile group target nowMs => exact reconcileHunt_inStep group target nowMs h
  | send p standing ground nowMs => exact send_inStep scope p standing ground nowMs h
  | hunt p standing target ground nowMs => exact hunt_inStep scope p standing target ground nowMs h
  | attack group standing target accepts nowMs => exact attack_inStep scope group standing target accepts nowMs h

/-! ### What a group leaves of a record -/

/-- What a step of a group can do to the record of an agent. -/
inductive GroupMove (r : AgentRecord) : AgentRecord → Prop
  | same : GroupMove r r
  | bound (b : Body) : GroupMove r (bindCreature r b)
  | unbound : GroupMove r (unbindCreature r)
  | refused (goal : Option GroupCoordinationGoal) : GroupMove r { r with groupCoordinationGoalState := goal }
  | ended (stop : Option CoordinationStopEvent) : GroupMove r
    { r with groupCoordinationGoalState := none, lastCoordinationStop := stop }
  | stopped (stop : Option CoordinationStopEvent) : GroupMove r
    { r with groupCoordinationGoalState := none, lastCoordinationStop := stop, activeActionState := none }
  | completed (completion : ActionCompletion) (hsource : isCoordinationSourceGoal completion.sourceGoal = true) :
    GroupMove r (handleActionCompletion r completion)
  | joined (goal : GroupCoordinationGoal) (action : ActiveAction)
    (hsource : isCoordinationSourceGoal action.sourceGoal = true) :
    GroupMove r { r with groupCoordinationGoalState := some goal, activeActionState := some action }

theorem endCoordination_moves (reason : CoordinationStopReason)
    (preempting : Option (CoordinationPreemptingOwner × Action.GoalType)) (nowMs : UInt64) :
    GroupMove s.record (endCoordination g reason preempting nowMs s).record := by
  unfold endCoordination
  dsimp only
  split_ifs
  · exact .stopped _
  · exact .ended _
  · exact .stopped _
  · exact .ended _

theorem stopInFlight_moves (reason : CoordinationStopReason) (nowMs : UInt64) :
    GroupMove s.record (stopInFlightGroupCoordination reason nowMs s).record := by
  unfold stopInFlightGroupCoordination
  split
  · exact .same
  · split_ifs
    · exact endCoordination_moves reason none nowMs
    · exact .refused none

theorem startCoordination_moves {request : ActionRequest} (context : ActionValidationContext)
    (previous : Option GroupCoordinationGoal) (nowMs : UInt64)
    (hsource : isCoordinationSourceGoal request.sourceGoal = true) :
    GroupMove s.record (startCoordination request context g previous nowMs b s).record := by
  unfold startCoordination
  split_ifs
  · exact .joined g _ hsource
  · exact .refused previous

theorem engage_moves (scope : SimulationScope) (prey : Prey) (accepts : Bool) (nowMs : UInt64) :
    GroupMove s.record (engage scope g prey accepts nowMs b s).record := by
  unfold engage
  dsimp only
  split_ifs
  · exact .same
  · exact .same
  · exact .joined _ _ rfl
  · exact .joined _ _ rfl

theorem sourceGoal_coordination {intent : AgentGroupIntentType} {goal : Action.GoalType}
    (h : intent.sourceGoal = some goal) : isCoordinationSourceGoal goal = true := by
  cases intent with
  | none => contradiction
  | regroup =>
    rw [← Option.some.inj h]
    rfl
  | roam =>
    rw [← Option.some.inj h]
    rfl

theorem groupStep_moves (scope : SimulationScope) (step : GroupStep) :
    GroupMove s.record (groupStep scope s step).record := by
  cases step with
  | poll =>
    show GroupMove s.record (poll s).record
    unfold poll
    split
    · exact .bound _
    · split_ifs
      · exact .unbound
      · exact .same
  | leave group nowMs =>
    show GroupMove s.record (stopGroupCoordinationForMember group nowMs s).record
    unfold stopGroupCoordinationForMember
    split_ifs
    · exact stopInFlight_moves _ nowMs
    · exact .same
  | stop reason nowMs => exact stopInFlight_moves reason nowMs
  | reconcile group target nowMs =>
    show GroupMove s.record (reconcileActiveHuntTarget group target nowMs s).record
    unfold reconcileActiveHuntTarget
    split
    · split_ifs
      · exact .same
      · exact .completed _ rfl
      · exact .same
      · exact stopInFlight_moves _ nowMs
    · exact .same
  | send p standing ground nowMs =>
    show GroupMove s.record (dispatchGroupMemberActionProposal scope p standing ground nowMs s).record
    unfold dispatchGroupMemberActionProposal
    split
    · rename_i goal b hgoal _
      split_ifs
      · exact .same
      · exact .same
      · exact .same
      · exact .same
      · split
        · exact .same
        · exact startCoordination_moves _ _ nowMs (sourceGoal_coordination hgoal)
    · exact .same
  | hunt p standing target ground nowMs =>
    show GroupMove s.record (dispatchHuntProposal scope p standing target ground nowMs s).record
    unfold dispatchHuntProposal
    split_ifs
    · exact .same
    · exact .same
    · exact .same
    · exact .same
    · split
      · split_ifs
        · exact .same
        · exact startCoordination_moves _ _ nowMs rfl
      · exact .same
  | attack group standing target accepts nowMs =>
    show GroupMove s.record (dispatchHuntAttack scope group standing target accepts nowMs s).record
    unfold dispatchHuntAttack
    split_ifs
    · exact .same
    · split
      · split_ifs
        · exact .same
        · split
          · exact .same
          · split_ifs
            · exact .same
            · exact engage_moves scope _ accepts nowMs
      · exact .same

/-! ### What the engine reports -/

theorem event_inStep (nowMs : UInt64) (event : ActionEngineEvent) (h : InStep s)
    (hended : event.ownMove = true → ∀ b, s.body = some b → b.ownMoveTo = false) :
    InStep { s with record := processActionEngineEvent nowMs s.record event } := by
  unfold processActionEngineEvent
  split_ifs with hforeign hother
  · exact h
  · exact h
  · split
    · exact h
    · rename_i action haction
      split_ifs with hskip
      · exact h
      · rw [not_or, not_not] at hskip
        refine ⟨completed_owned h.owned haction rfl rfl, fun b hb => ?_⟩
        refine completed_moving (h.moving b hb) haction hskip.1 (hended ?_ b hb) _
        simpa using hforeign

theorem events_inStep (nowMs : UInt64) (events : List ActionEngineEvent) (h : InStep s)
    (hended : ∀ event ∈ events, event.ownMove = true → ∀ b, s.body = some b → b.ownMoveTo = false) :
    InStep { s with record := events.foldl (processActionEngineEvent nowMs) s.record } := by
  induction events generalizing s with
  | nil => exact h
  | cons event events ih =>
    exact ih (event_inStep nowMs event h (hended event List.mem_cons_self))
      fun later hlater => hended later (List.mem_cons_of_mem event hlater)

theorem groupSteps_inStep (scope : SimulationScope) (steps : List GroupStep) (h : InStep s) :
    InStep (steps.foldl (groupStep scope) s) := by
  induction steps generalizing s with
  | nil => exact h
  | cons step steps ih => exact ih (groupStep_inStep scope step h)

/-! ### What the engine does -/

/-- A creature that the engine leaves behind moves no more for the agent than the one it found. -/
theorem mayBecome_some {old : Option Body} (h : mayBecome old (some b) = true) :
    (b.ownMoveTo = true → ∃ b₀, old = some b₀ ∧ b₀.ownMoveTo = true) ∧
      (b.ownFlee = true → ∃ b₀, old = some b₀ ∧ b₀.ownFlee = true) ∧
      (∀ guid, b.chasing = some guid → ∃ b₀, old = some b₀ ∧ b₀.chasing = some guid) ∧
      (b.alive = false → b.ownMoveTo = false ∧ b.ownFlee = false ∧ b.chasing = none) := by
  have hsame {p : Body → Bool} (hp : (old.filter (·.guid = b.guid)).any p = true) :
      ∃ b₀, old = some b₀ ∧ p b₀ = true := by
    obtain ⟨b₀, hb₀, hpb₀⟩ := (Option.any_eq_true _ _).mp hp
    exact ⟨b₀, (Option.filter_eq_some_iff.mp hb₀).1, hpb₀⟩
  simp only [mayBecome, Option.all_some, Bool.and_eq_true, Bool.or_eq_true, Bool.not_eq_true'] at h
  obtain ⟨⟨⟨hmove, hflee⟩, hchase⟩, halive⟩ := h
  refine ⟨fun hb => ?_, fun hb => ?_, fun guid hb => ?_, fun hdead => ?_⟩
  · exact hsame (hmove.resolve_left (by rw [hb]; decide))
  · exact hsame (hflee.resolve_left (by rw [hb]; decide))
  · obtain ⟨b₀, hold, hsamechase⟩ := hsame (hchase.resolve_left (by rw [hb]; exact Bool.false_ne_true))
    exact ⟨b₀, hold, (of_decide_eq_true hsamechase).trans hb⟩
  · have hstill := halive.resolve_left (by rw [hdead]; decide)
    exact ⟨hstill.1.1, hstill.1.2, Option.isNone_iff_eq_none.mp hstill.2⟩

theorem engine_moving {old : Option Body} (h : ∀ b, old = some b → Moving r b) (hmay : mayBecome old (some b) = true) :
    Moving r b := by
  obtain ⟨hmove, hflee, hchase, hdead⟩ := mayBecome_some hmay
  refine ⟨fun hb => ?_, fun guid hb => ?_, fun hb => ?_, hdead, fun hb => ?_⟩
  · obtain ⟨b₀, hold, hb₀⟩ := hmove hb
    exact (h b₀ hold).move hb₀
  · obtain ⟨b₀, hold, hb₀⟩ := hchase guid hb
    exact (h b₀ hold).chase guid hb₀
  · obtain ⟨b₀, hold, hb₀⟩ := hflee hb
    exact (h b₀ hold).flee hb₀
  · rcases hb with hb | hb | hb
    · obtain ⟨b₀, hold, hb₀⟩ := hmove hb
      exact (h b₀ hold).bound (.inl hb₀)
    · obtain ⟨b₀, hold, hb₀⟩ := hflee hb
      exact (h b₀ hold).bound (.inr (.inl hb₀))
    · obtain ⟨guid, hguid⟩ := Option.isSome_iff_exists.mp hb
      obtain ⟨b₀, hold, hb₀⟩ := hchase guid hguid
      exact (h b₀ hold).bound (.inr (.inr (by rw [hb₀]; rfl)))

theorem informed_some {event : ActionEngineEvent} {old : Option Body} (h : informed event old = some b) :
    ∃ b₀, old = some b₀ ∧ (b = b₀ ∧ event.ownMove = false ∨
      b = b₀.stopMoveTo ∧ event.ownMove = true ∧ b₀.ownMoveTo = true) := by
  unfold informed at h
  split at h
  · contradiction
  · rename_i b₀
    split_ifs at h with hfrom hown
    · exact ⟨b₀, rfl, .inr ⟨(Option.some.inj h).symm, hown, hfrom.2.2.2.2 hown⟩⟩
    · exact ⟨b₀, rfl, .inl ⟨(Option.some.inj h).symm, Bool.eq_false_iff.mpr hown⟩⟩

/-! ### Every run -/

/-- The agent is in step, and a movement of its own that is reported is over. -/
structure Consistent (w : AgentWorld) : Prop where
  agent : InStep w.agent
  reported : ∀ event ∈ w.events, event.ownMove = true → ∀ b, w.agent.body = some b → b.ownMoveTo = false

theorem Moving.halted (h : Moving r b) : Moving r b.stopMoveTo where
  move := by
    intro hmove
    contradiction
  chase := h.chase
  flee := h.flee
  dead := fun hdead => ⟨rfl, (h.dead hdead).2⟩
  bound := by
    rintro (hmove | hrest)
    · contradiction
    · exact h.bound (.inr hrest)

theorem update_inStep {w : AgentWorld} (u : AgentUpdate) (h : Consistent w) : InStep (updateAgent c w u).2.agent := by
  have hdrained := events_inStep u.nowMs w.events h.agent h.reported
  have hled := groupSteps_inStep c.scope u.steps hdrained
  unfold updateAgent
  dsimp only
  split
  · exact hled
  · rename_i t _
    obtain ⟨howned, hmoving⟩ := needsPass_owned (c := c) (t := t) hled.owned hled.moving
    exact ⟨howned, hmoving⟩

theorem update_events {w : AgentWorld} (u : AgentUpdate) : (updateAgent c w u).2.events = [] := by
  unfold updateAgent
  dsimp only
  split <;> rfl

theorem step_consistent {w w' : AgentWorld} {input : AgentInput} {report : NeedsReport} (h : Consistent w)
    (hstep : agentStep c w input = some (report, w')) : Consistent w' := by
  cases input with
  | engine body =>
    simp only [agentStep, Option.ite_none_right_eq_some, Option.some.injEq, Prod.mk.injEq] at hstep
    obtain ⟨hmay, -, rfl⟩ := hstep
    refine ⟨⟨h.agent.owned, fun b hb => ?_⟩, fun event hevent hown b hb => ?_⟩
    · rw [show body = some b from hb] at hmay
      exact engine_moving h.agent.moving hmay
    · rw [show body = some b from hb] at hmay
      refine Bool.eq_false_iff.mpr fun hmove => ?_
      obtain ⟨b₀, hold, hb₀⟩ := (mayBecome_some hmay).1 hmove
      rw [h.reported event hevent hown b₀ hold] at hb₀
      contradiction
  | inform event taken =>
    simp only [agentStep, Option.map_eq_some_iff, Prod.mk.injEq] at hstep
    obtain ⟨b, hinformed, -, rfl⟩ := hstep
    obtain ⟨b₀, hold, hcases⟩ := informed_some hinformed
    refine ⟨⟨h.agent.owned, fun b' hb' => ?_⟩, fun event' hevent' hown' b' hb' => ?_⟩
    · rw [← Option.some.inj hb']
      rcases hcases with ⟨rfl, -⟩ | ⟨rfl, -, -⟩
      · exact h.agent.moving _ hold
      · exact (h.agent.moving b₀ hold).halted
    · rw [← Option.some.inj hb']
      rcases hcases with ⟨rfl, hforeign⟩ | ⟨rfl, -, -⟩
      · have hearlier : event' ∈ w.events := by
          split_ifs at hevent' with htaken
          · rcases List.mem_append.mp hevent' with hmem | hmem
            · exact hmem
            · rw [List.mem_singleton.mp hmem, hforeign] at hown'
              contradiction
          · exact hevent'
        exact h.reported event' hearlier hown' _ hold
      · rfl
  | update u =>
    simp only [agentStep, Option.some.injEq] at hstep
    have hw : w' = (updateAgent c w u).2 := by rw [hstep]
    rw [hw]
    refine ⟨update_inStep u h, ?_⟩
    rw [update_events]
    intro event hevent
    contradiction
  | store i =>
    simp only [agentStep, Option.map_eq_some_iff, Prod.mk.injEq] at hstep
    obtain ⟨-, -, -, rfl⟩ := hstep
    exact ⟨h.agent, h.reported⟩
  | restart =>
    simp only [agentStep, Option.some.injEq, Prod.mk.injEq] at hstep
    obtain ⟨-, rfl⟩ := hstep
    refine ⟨⟨owned_of_still (fun _ hno => by contradiction) (fun _ hno => by contradiction) rfl rfl rfl rfl,
      fun b hb => by contradiction⟩, fun event hevent => by contradiction⟩

theorem registered_consistent (control : Action.AgentControlMode) (home work : Option AgentLocation)
    (row : AgentEconomyState) : Consistent (registered control home work row) :=
  ⟨⟨owned_of_still (fun _ hno => by contradiction) (fun _ hno => by contradiction) rfl rfl rfl rfl,
    fun b hb => by contradiction⟩, fun event hevent => by contradiction⟩

def sampleConfig : NeedsConfig where
  workMoneyReward := 5

def sampleBody : Body where
  guid := ⟨7⟩
  health := 100
  maxHealth := 100
  alive := true
  x := 10

/-- An agent begins at its place of work, is paid, and goes home when the hours are over. -/
def sampleStart : AgentWorld := registered .aiWorldControlled (some { x := 50 }) (some { x := 10 }) {}

def sampleDay : List AgentInput :=
  [.engine (some sampleBody), .update { nowMs := 500000, steps := [], tick := some { nowMs := 500000 } }, .store 0,
    .update { nowMs := 900000, steps := [], tick := some { nowMs := 900000 } }]

end AIWorld.Goal
