import AIWorld.Action.ActionSystem
import AIWorld.Lib.Binary32Order
import AIWorld.Lib.Checked

/-! What an allowed action may rely on. Every check of the judgement is one the request has passed, except that
a distance from a position that is not a number is never too far. -/

namespace AIWorld.Action

open Agent (ActionPosition)
open Quest (ObjectGuid)
open Lib Lib.Binary32

variable {request : ActionRequest} {context : ActionValidationContext} {goal : GoalType}
  {destination : ActionPosition Float32}

/-! ### Authority -/

/-- The actor fights nobody, or the resolved target. -/
def Unengaged (context : ActionValidationContext) : Prop :=
  context.actorCurrentVictimGuid.isEmpty = true ∨ context.actorCurrentVictimGuid = context.targetGuid

structure AttackAuthority (request : ActionRequest) (context : ActionValidationContext) : Prop where
  target : request.target = some ⟨context.targetGuid, context.targetEntry⟩
  resolved : context.targetResolved = true
  alive : context.targetAlive = true
  attackable : context.targetAttackable = true
  map : context.targetMapId = context.mapId
  inRange : context.targetWithinAttackRange = true
  inSight : context.targetInLineOfSight = true
  unengaged : Unengaged context

/-- The destination is no farther than the goal allows. -/
def InRange (request : ActionRequest) (context : ActionValidationContext)
    (destination : ActionPosition Float32) : Prop :=
  distanceSq destination context.x context.y context.z ≤
    maxRangeYards request.sourceGoal * maxRangeYards request.sourceGoal

structure MoveAuthority (request : ActionRequest) (context : ActionValidationContext)
    (destination : ActionPosition Float32) : Prop where
  named : request.destination = some destination
  map : destination.mapId = context.mapId
  finite : finite destination = true
  inRange : InRange request context destination
  idle : context.hasActiveMovement = false

structure EatAuthority (request : ActionRequest) (context : ActionValidationContext)
    (destination arrived : ActionPosition Float32) : Prop where
  named : request.destination = some destination
  recorded : context.arrivedDestination = some arrived
  place : samePoint destination arrived = true
  goal : request.sourceGoal = context.arrivedSourceGoal
  started : request.goalStartedAtMs = context.arrivedGoalStartedAtMs

/-- The agent is AIWorld's to move, and the request was decided for what it does now. -/
structure Commanded (request : ActionRequest) (context : ActionValidationContext) : Prop where
  controlled : context.controlMode = .aiWorldControlled
  materialized : context.materialized = true
  alive : context.alive = true
  goal : context.activeGoalType = some request.sourceGoal
  started : request.goalStartedAtMs = context.activeGoalStartedAtMs

structure Authorized (request : ActionRequest) (context : ActionValidationContext) : Prop
    extends Commanded request context where
  attack : request.type = .attack → AttackAuthority request context
  move : request.type = .moveTo → ∃ destination, MoveAuthority request context destination
  eat : request.type = .eat → request.sourceGoal = .getFood →
    ∃ destination arrived, EatAuthority request context destination arrived

/-- The actor's own position is not a number. -/
def Lost (context : ActionValidationContext) : Prop :=
  context.x.isNaN = true ∨ context.y.isNaN = true ∨ context.z.isNaN = true

/-- A move of an actor that is nowhere, right in everything but its range. -/
structure Unmeasured (request : ActionRequest) (context : ActionValidationContext) : Prop
    extends Commanded request context where
  move : request.type = .moveTo
  lost : Lost context
  ordinary : livingGoal request.sourceGoal = false
  unrecovered : request.recovery = none
  destination : ∃ destination, request.destination = some destination ∧
    destination.mapId = context.mapId ∧ finite destination = true ∧
    (request.sourceGoal = .hunt → (validateHuntTarget request context destination).allowed = true)
  idle : context.hasActiveMovement = false

/-! ### Distances from nowhere -/

theorem isNaN_squaredLength {dx dy dz : Float32} (h : dx.isNaN = true ∨ dy.isNaN = true ∨ dz.isNaN = true) :
    (squaredLength dx dy dz).isNaN = true := by
  unfold squaredLength
  rcases h with h | h | h
  · exact isNaN_add (.inl (isNaN_add (.inl (isNaN_mul_self h))))
  · exact isNaN_add (.inl (isNaN_add (.inr (isNaN_mul_self h))))
  · exact isNaN_add (.inr (isNaN_mul_self h))

theorem squaredLength_number {dx dy dz : Float32} (hx : dx.isNaN = false) (hy : dy.isNaN = false)
    (hz : dz.isNaN = false) : (squaredLength dx dy dz).isNaN = false :=
  (((nonnegative_mul_self hx).add (nonnegative_mul_self hy)).add (nonnegative_mul_self hz)).isNaN

theorem distanceSq_lost (h : Lost context) :
    (distanceSq destination context.x context.y context.z).isNaN = true :=
  isNaN_squaredLength (h.imp isNaN_sub_right (Or.imp isNaN_sub_right isNaN_sub_right))

theorem distanceSq_number (hfinite : finite destination = true) (h : ¬ Lost context) :
    (distanceSq destination context.x context.y context.z).isNaN = false := by
  unfold Lost at h
  push Not at h
  simp only [finite, Bool.and_eq_true] at hfinite
  obtain ⟨⟨hx, hy⟩, hz⟩ := hfinite
  exact squaredLength_number (isNaN_finite_sub hx (Bool.eq_false_iff.mpr h.1))
    (isNaN_finite_sub hy (Bool.eq_false_iff.mpr h.2.1)) (isNaN_finite_sub hz (Bool.eq_false_iff.mpr h.2.2))

theorem maxRange_number (goal : GoalType) : (maxRangeYards goal * maxRangeYards goal).isNaN = false := by
  cases goal <;> decide +kernel

/-- From a position that is a number, not too far is near enough. -/
theorem inRange_of_not_lt (hfinite : finite destination = true) (h : ¬ Lost context)
    (hfar : ¬ maxRangeYards request.sourceGoal * maxRangeYards request.sourceGoal <
      distanceSq destination context.x context.y context.z) : InRange request context destination :=
  (not_lt_iff (maxRange_number _) (distanceSq_number hfinite h)).mp hfar

theorem not_inRange_of_lost (h : Lost context) : ¬ InRange request context destination := by
  intro hrange
  have hnumber := (isNaN_of_le hrange).1
  rw [distanceSq_lost h] at hnumber
  contradiction

theorem not_far_of_lost (h : Lost context) :
    ¬ maxRangeYards request.sourceGoal * maxRangeYards request.sourceGoal <
      distanceSq destination context.x context.y context.z := by
  intro hfar
  rw [Binary32.lt_iff] at hfar
  have hnan : (distanceSq destination context.x context.y context.z).toModel.unpack = .notANumber := by
    have hlost : (distanceSq destination context.x context.y context.z).toModel.unpack.isNaN = true :=
      distanceSq_lost h
    revert hlost
    cases (distanceSq destination context.x context.y context.z).toModel.unpack <;> intro hlost <;>
      first | rfl | contradiction
  rw [compare_eq_none_iff.mpr (.inr hnan)] at hfar
  contradiction

/-- The scope of a living role has no place for an actor that is nowhere. -/
theorem not_contains_of_lost (h : Lost context) {zone : UInt32} :
    context.scope.contains context.mapId zone context.x context.y context.z = false := by
  rw [Bool.eq_false_iff]
  intro hcontains
  simp only [SimulationScope.contains, SimulationScope.containsPosition, Bool.and_eq_true] at hcontains
  obtain ⟨-, ⟨⟨⟨-, hx⟩, hy⟩, hz⟩, -⟩ := hcontains
  rcases h with h | h | h
  · rw [isNaN_of_isFinite hx] at h
    contradiction
  · rw [isNaN_of_isFinite hy] at h
    contradiction
  · rw [isNaN_of_isFinite hz] at h
    contradiction

/-! ### What was checked -/

/-- The answer is yes. -/
def Allowed (r : ActionValidationResult) : Prop := r.allowed = true

instance : DecidablePred Allowed := fun r => inferInstanceAs (Decidable (r.allowed = true))

theorem passes {c : Prop} [Decidable c] {reason : ActionRejectReason} {rest : ActionValidationResult} :
    (if c then reject reason else rest).allowed = true ↔ ¬ c ∧ rest.allowed = true :=
  left_unless_of (p := Allowed) Bool.false_ne_true

theorem unengaged_of_not (h : ¬ engagedElsewhere context = true) : Unengaged context := by
  by_cases hempty : context.actorCurrentVictimGuid.isEmpty = true
  · exact .inl hempty
  · refine .inr ?_
    by_contra hne
    exact h (by simp [engagedElsewhere, hempty, hne])

theorem defense_authority (h : (validateDefense request context).allowed = true) :
    AttackAuthority request context := by
  obtain ⟨-, h⟩ := passes.mp h
  cases htarget : request.target with
  | none =>
    rw [htarget] at h
    contradiction
  | some target =>
    rw [htarget] at h
    dsimp only at h
    obtain ⟨hguid, h⟩ := passes.mp h
    obtain ⟨hlive, h⟩ := passes.mp h
    obtain ⟨hentry, h⟩ := passes.mp h
    obtain ⟨hmap, h⟩ := passes.mp h
    obtain ⟨hnear, h⟩ := passes.mp h
    obtain ⟨hvictim, -⟩ := passes.mp h
    push Not at hguid hlive hentry hmap hnear
    obtain ⟨guid, entry⟩ := target
    obtain ⟨-, -, rfl⟩ := hguid
    obtain rfl := hentry
    exact ⟨htarget, hlive.1, hlive.2.1, hlive.2.2, hmap, hnear.1, hnear.2, unengaged_of_not hvictim⟩

theorem hunt_attack_authority (h : (validateHuntAttack request context goal).allowed = true) :
    AttackAuthority request context := by
  obtain ⟨-, h⟩ := passes.mp h
  obtain ⟨-, h⟩ := passes.mp h
  cases htarget : request.target with
  | none =>
    rw [htarget] at h
    contradiction
  | some target =>
    rw [htarget] at h
    dsimp only at h
    obtain ⟨-, h⟩ := passes.mp h
    obtain ⟨-, h⟩ := passes.mp h
    obtain ⟨-, h⟩ := passes.mp h
    obtain ⟨hresolved, h⟩ := passes.mp h
    obtain ⟨halive, h⟩ := passes.mp h
    obtain ⟨hattackable, h⟩ := passes.mp h
    obtain ⟨hguid, h⟩ := passes.mp h
    obtain ⟨hentry, h⟩ := passes.mp h
    obtain ⟨hmap, h⟩ := passes.mp h
    obtain ⟨hnear, h⟩ := passes.mp h
    obtain ⟨hsight, h⟩ := passes.mp h
    obtain ⟨hvictim, -⟩ := passes.mp h
    obtain ⟨guid, entry⟩ := target
    obtain rfl := not_not.mp hguid
    obtain rfl := not_not.mp hentry
    exact ⟨htarget, not_not.mp hresolved, not_not.mp halive, not_not.mp hattackable, not_not.mp hmap,
      not_not.mp hnear, not_not.mp hsight, unengaged_of_not hvictim⟩

theorem attack_authority (h : (validateAttack request context goal).allowed = true) :
    AttackAuthority request context := by
  obtain ⟨-, h⟩ := passes.mp h
  by_cases hdefend : goal = .defend
  · rw [if_pos hdefend] at h
    exact defense_authority h
  · rw [if_neg hdefend] at h
    exact hunt_attack_authority h

/-- The checks of a move other than the last two. -/
theorem move_checked (h : (validateMoveTo request context).allowed = true) :
    ∃ destination, request.destination = some destination ∧ destination.mapId = context.mapId ∧
      finite destination = true ∧
      (request.sourceGoal = .hunt → (validateHuntTarget request context destination).allowed = true) ∧
      ¬ maxRangeYards request.sourceGoal * maxRangeYards request.sourceGoal <
        distanceSq destination context.x context.y context.z ∧ context.hasActiveMovement = false := by
  obtain ⟨-, h⟩ := passes.mp h
  cases hdestination : request.destination with
  | none =>
    rw [hdestination] at h
    contradiction
  | some destination =>
    rw [hdestination] at h
    dsimp only at h
    obtain ⟨hmap, h⟩ := passes.mp h
    obtain ⟨hfinite, h⟩ := passes.mp h
    obtain ⟨-, h⟩ := passes.mp h
    obtain ⟨-, h⟩ := (left_unless_passed (p := Allowed)).mp h
    obtain ⟨hhunt, h⟩ := (left_unless_passed (p := Allowed)).mp h
    obtain ⟨hnear, h⟩ := passes.mp h
    obtain ⟨hidle, -⟩ := passes.mp h
    refine ⟨destination, rfl, not_not.mp hmap, not_not.mp hfinite, fun hgoal => ?_, hnear,
      Bool.eq_false_iff.mpr hidle⟩
    rwa [if_pos hgoal] at hhunt

theorem eat_authority (h : (validateEat request context .getFood).allowed = true) :
    ∃ destination arrived, EatAuthority request context destination arrived := by
  unfold validateEat at h
  rw [if_neg (by decide), if_neg (by decide)] at h
  cases hdestination : request.destination with
  | none =>
    rw [hdestination] at h
    contradiction
  | some destination =>
    rw [hdestination] at h
    obtain ⟨hcontinues, -⟩ := passes.mp h
    have hcontinues := not_not.mp hcontinues
    simp only [continuesArrival, Bool.and_eq_true, decide_eq_true_eq, Option.any_eq_true] at hcontinues
    obtain ⟨⟨⟨arrived, harrived, hplace⟩, hgoal⟩, hstarted⟩ := hcontinues
    exact ⟨destination, arrived, hdestination, harrived, hplace, hgoal, hstarted⟩

/-- A living role acts where its scope lets it. -/
def RoleInScope (request : ActionRequest) (context : ActionValidationContext) : Prop :=
  livingGoal request.sourceGoal = true → context.livingRoleAllowed = true ∧
    context.scope.contains context.mapId context.livingRoleZoneId context.x context.y context.z = true ∧
    knownRole context.livingRole = true

theorem validate_allowed_iff : (validate request context).allowed = true ↔
    Commanded request context ∧ RoleInScope request context ∧
      (request.sourceGoal = .seekSafety ∨ request.sourceGoal = .investigateDanger →
        context.livingRoleExtensionsAllowed = true ∧ request.type = .moveTo) ∧
      request.recovery.all (approvedRecovery request context) = true ∧
      (validateType request context request.sourceGoal).allowed = true := by
  unfold validate
  rw [passes, passes, passes]
  cases hgoal : context.activeGoalType with
  | none =>
    refine iff_of_false (fun h => by have := h.2.2.2; contradiction) fun h => ?_
    rw [h.1.goal] at hgoal
    contradiction
  | some goal =>
    dsimp only
    rw [passes, passes, passes, passes, passes]
    simp only [not_not, not_and_or, not_or, ne_eq]
    constructor
    · rintro ⟨hcontrolled, hmaterialized, halive, hsame, hstarted, hrole, hextension, hrecovery, htype⟩
      subst hsame
      refine ⟨⟨hcontrolled, hmaterialized, halive, hgoal, hstarted⟩, fun hliving => ?_, fun hgoals => ?_,
        hrecovery, htype⟩
      · exact hrole.resolve_left fun h => h hliving
      · exact hextension.resolve_left fun h => hgoals.elim h.1 h.2
    · rintro ⟨⟨hcontrolled, hmaterialized, halive, hactive, hstarted⟩, hrole, hextension, hrecovery, htype⟩
      rw [hgoal, Option.some.injEq] at hactive
      subst hactive
      refine ⟨hcontrolled, hmaterialized, halive, rfl, hstarted, ?_, ?_, hrecovery, htype⟩
      · exact not_or_of_imp hrole
      · by_cases hgoals : request.sourceGoal = .seekSafety ∨ request.sourceGoal = .investigateDanger
        · exact .inr (hextension hgoals)
        · exact .inl (not_or.mp hgoals)

/-- What an allowed action may rely on, but for the range of a move. -/
theorem allowed_checked (h : (validate request context).allowed = true) :
    Commanded request context ∧ RoleInScope request context ∧
      (request.type = .attack → AttackAuthority request context) ∧
      (request.type = .moveTo → (validateMoveTo request context).allowed = true) ∧
      (request.type = .eat → request.sourceGoal = .getFood →
        ∃ destination arrived, EatAuthority request context destination arrived) := by
  obtain ⟨hcommanded, hrole, -, -, htype⟩ := validate_allowed_iff.mp h
  unfold validateType at htype
  refine ⟨hcommanded, hrole, fun hattack => ?_, fun hmove => ?_, fun heat hfood => ?_⟩
  · rw [hattack] at htype
    exact attack_authority htype
  · rw [hmove] at htype
    exact htype
  · rw [heat, hfood] at htype
    exact eat_authority htype

/-- A living role is somewhere. -/
theorem ordinary_of_lost (hrole : RoleInScope request context) (h : Lost context) :
    livingGoal request.sourceGoal = false := by
  rw [Bool.eq_false_iff]
  intro hliving
  have hcontains := (hrole hliving).2.1
  rw [not_contains_of_lost h] at hcontains
  contradiction

/-- A recovery is approved for living goals only. -/
theorem unrecovered_of_ordinary (hordinary : livingGoal request.sourceGoal = false)
    (h : request.recovery.all (approvedRecovery request context) = true) : request.recovery = none := by
  cases hrecovery : request.recovery with
  | none => rfl
  | some recovery =>
    rw [hrecovery, Option.all_some] at h
    simp only [approvedRecovery, Bool.and_eq_true, Bool.or_eq_true, decide_eq_true_eq] at h
    rcases h.1.1.2 with hgoal | hgoal
    · rw [hgoal] at hordinary
      contradiction
    · rw [hgoal] at hordinary
      contradiction

theorem unmeasured_of_lost (h : (validate request context).allowed = true) (hmove : request.type = .moveTo)
    (hlost : Lost context) : Unmeasured request context := by
  obtain ⟨hcommanded, hrole, -, hrecovery, -⟩ := validate_allowed_iff.mp h
  obtain ⟨destination, hnamed, hmap, hfinite, hhunt, -, hidle⟩ :=
    move_checked ((allowed_checked h).2.2.2.1 hmove)
  have hordinary := ordinary_of_lost hrole hlost
  exact { hcommanded with
    move := hmove
    lost := hlost
    ordinary := hordinary
    unrecovered := unrecovered_of_ordinary hordinary hrecovery
    destination := ⟨destination, hnamed, hmap, hfinite, hhunt⟩
    idle := hidle }

/-- A move that nobody can measure is allowed. -/
theorem Unmeasured.allowed (h : Unmeasured request context) : (validate request context).allowed = true := by
  obtain ⟨destination, hnamed, hmap, hfinite, hhunt⟩ := h.destination
  have hordinary := h.ordinary
  have hliving : request.sourceGoal ≠ .localActivity ∧ request.sourceGoal ≠ .seekSafety ∧
      request.sourceGoal ≠ .investigateDanger := by
    refine ⟨?_, ?_, ?_⟩ <;> rintro hgoal <;> rw [hgoal] at hordinary <;> contradiction
  refine validate_allowed_iff.mpr ⟨h.toCommanded, fun hgoal => ?_, fun hgoals => ?_, ?_, ?_⟩
  · rw [hordinary] at hgoal
    contradiction
  · exact absurd hgoals (not_or.mpr hliving.2)
  · rw [h.unrecovered]
    rfl
  unfold validateType
  rw [h.move]
  refine passes.mpr ⟨fun hfight => hfight.1.elim hliving.1 hliving.2.2, ?_⟩
  rw [hnamed]
  refine passes.mpr ⟨not_not.mpr hmap, passes.mpr ⟨not_not.mpr hfinite, passes.mpr ⟨fun hscope => ?_, ?_⟩⟩⟩
  · rw [hordinary] at hscope
    exact absurd hscope.1 Bool.false_ne_true
  refine (left_unless_passed (p := Allowed)).mpr ⟨?_, (left_unless_passed (p := Allowed)).mpr ⟨?_, ?_⟩⟩
  · unfold validateRoleMove
    rw [if_pos hliving.2]
    rfl
  · by_cases hgoal : request.sourceGoal = .hunt
    · rw [if_pos hgoal]
      exact hhunt hgoal
    · rw [if_neg hgoal]
      rfl
  · exact passes.mpr ⟨not_far_of_lost h.lost, passes.mpr ⟨Bool.eq_false_iff.mp h.idle, rfl⟩⟩

/-- An allowed action has its authority, unless it is a move of an actor that is nowhere. -/
theorem authorized_iff : ((validate request context).allowed = true → Authorized request context) ↔
    ¬ Unmeasured request context := by
  constructor
  · intro h hunmeasured
    obtain ⟨destination, hauthority⟩ := (h hunmeasured.allowed).move hunmeasured.move
    exact not_inRange_of_lost hunmeasured.lost hauthority.inRange
  · intro hmeasured h
    obtain ⟨hcommanded, -, hattack, hmove, heat⟩ := allowed_checked h
    refine { hcommanded with attack := hattack, move := fun htype => ?_, eat := heat }
    obtain ⟨destination, hnamed, hmap, hfinite, -, hnear, hidle⟩ := move_checked (hmove htype)
    have hfound : ¬ Lost context := fun hlost => hmeasured (unmeasured_of_lost h htype hlost)
    exact ⟨destination, hnamed, hmap, hfinite, inRange_of_not_lt hfinite hfound hnear, hidle⟩

/-- An agent on its way home from a place that is not a number. -/
def lostContext : ActionValidationContext :=
  { controlMode := .aiWorldControlled, materialized := true, alive := true, activeGoalType := some .goHome,
    x := 0 / 0 }

def homeward : ActionRequest :=
  { type := .moveTo, sourceGoal := .goHome, destination := some ⟨0, 100000, 0, 0⟩ }

theorem lost_move_allowed : (validate homeward lostContext).allowed = true ∧
    ¬ Authorized homeward lostContext := by
  have hlost : Lost lostContext := .inl (by decide +kernel)
  refine ⟨by decide +kernel, fun h => ?_⟩
  obtain ⟨destination, hauthority⟩ := h.move rfl
  exact not_inRange_of_lost hlost hauthority.inRange

end AIWorld.Action
