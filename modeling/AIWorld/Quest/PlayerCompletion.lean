import AIWorld.Lib.Checked
import AIWorld.Quest.Life

/-! A player's turn-in of a quest. The preflight judges the stored instance and
what was just resolved about the player and the giver; only then is the reward
paid and the registry asked to complete the instance. The two judge the state,
the deadline and the progress each on its own, and they agree. -/

namespace AIWorld.Quest

open Std Lib DynamicQuestRegistry

inductive DynamicQuestPlayerCompleteReason where
  | notAttempted | none | questNotFound | playerInvalid | playerMismatch | giverMissing
  | giverChanged | giverUnavailable | interactionRangeInvalid | outOfRange | invalidQuestState
  | alreadyExpired | progressIncomplete | rewardMoneyLimit | rewardApplicationFailed
  | completeRejected
  deriving DecidableEq

/-- The reasons that the registry has too. -/
def DynamicQuestPlayerCompleteReason.BlamesInstance (reason : DynamicQuestPlayerCompleteReason) : Prop :=
  reason = .invalidQuestState ∨ reason = .alreadyExpired ∨ reason = .progressIncomplete

instance : DecidablePred DynamicQuestPlayerCompleteReason.BlamesInstance :=
  fun reason => inferInstanceAs (Decidable (reason = _ ∨ reason = _ ∨ reason = _))

structure DynamicQuestPlayerCompleteFacts where
  isPlayerGuid : Bool := false
  resolved : Bool := false
  alive : Bool := false
  mapId : UInt32 := 0
  money : UInt32 := 0

structure DynamicQuestGiverCompleteFacts where
  recordExists : Bool := false
  materialized : Bool := false
  aiWorldControlled : Bool := false
  alive : Bool := false
  runtimeGuid : ObjectGuid := {}
  mapId : UInt32 := 0

def checkDynamicQuestPlayerCompleteApplicability (q : DynamicQuestInstance) (playerGuid : ObjectGuid)
    (player : DynamicQuestPlayerCompleteFacts) (giver : DynamicQuestGiverCompleteFacts)
    (playerToGiverDistanceYards maxInteractionRangeYards : Float32) (maxMoneyAmount : UInt32)
    (nowMs : UInt64) : DynamicQuestPlayerCompleteReason :=
  if !player.isPlayerGuid || !player.resolved || !player.alive then .playerInvalid
  else if playerGuid ≠ q.acceptedByPlayerGuid then .playerMismatch
  else if !giver.recordExists then .giverMissing
  else if giver.runtimeGuid ≠ q.giverRuntimeGuid then .giverChanged
  else if !giver.materialized || !giver.aiWorldControlled || !giver.alive then .giverUnavailable
  else if player.mapId ≠ giver.mapId then .outOfRange
  else if !maxInteractionRangeYards.isFinite || maxInteractionRangeYards < 1 then
    .interactionRangeInvalid
  else if !playerToGiverDistanceYards.isFinite || playerToGiverDistanceYards < 0 ||
      maxInteractionRangeYards < playerToGiverDistanceYards then .outOfRange
  else if q.state ≠ .active then .invalidQuestState
  else if isDynamicQuestExpired q nowMs then .alreadyExpired
  else if ¬ isDynamicQuestObjectiveComplete q then .progressIncomplete
  -- The sum is taken in 64 bits; a zero reward is never paid and so never refused.
  else if 0 < q.rewardMoneyCopper ∧
      maxMoneyAmount.toUInt64 ≤ player.money.toUInt64 + q.rewardMoneyCopper.toUInt64 then
    .rewardMoneyLimit
  else .none

/-- What the preflight asks of the stored instance for it to be completed. -/
structure Completable (q : DynamicQuestInstance) (nowMs : UInt64) : Prop where
  active : q.state = .active
  live : isDynamicQuestExpired q nowMs = false
  done : isDynamicQuestObjectiveComplete q = true

/-- A reward that is paid keeps the player's money under the limit. -/
def Payable (money reward maxMoneyAmount : UInt32) : Prop :=
  reward = 0 ∨ money.toNat + reward.toNat < maxMoneyAmount.toNat

variable {q : DynamicQuestInstance} {playerGuid : ObjectGuid} {id nowMs : UInt64}
  {player : DynamicQuestPlayerCompleteFacts} {giver : DynamicQuestGiverCompleteFacts}
  {distance range : Float32} {money reward maxMoneyAmount : UInt32} {r : DynamicQuestRegistry}

theorem widened_le_iff : maxMoneyAmount.toUInt64 ≤ money.toUInt64 + reward.toUInt64 ↔
    maxMoneyAmount.toNat ≤ money.toNat + reward.toNat := by
  have hm := money.toNat_lt
  have hr := reward.toNat_lt
  rw [UInt64.le_iff_toNat_le, UInt64.toNat_add, UInt32.toNat_toUInt64, UInt32.toNat_toUInt64,
    UInt32.toNat_toUInt64, Nat.mod_eq_of_lt (by omega)]

theorem payable_iff : Payable money reward maxMoneyAmount ↔
    ¬ (0 < reward ∧ maxMoneyAmount.toUInt64 ≤ money.toUInt64 + reward.toUInt64) := by
  rw [widened_le_iff, not_and, Nat.not_le, UInt32.pos_iff_ne_zero]
  exact or_iff_not_imp_left

/-- A payable reward is added without wrapping around. -/
theorem Payable.toNat_add (h : Payable money reward maxMoneyAmount) :
    (money + reward).toNat = money.toNat + reward.toNat := by
  have hm := money.toNat_lt
  have hmax := maxMoneyAmount.toNat_lt
  rw [UInt32.toNat_add]
  refine Nat.mod_eq_of_lt ?_
  rcases h with rfl | h
  · simpa using hm
  · omega

/-- What the preflight says about the instance and the money when it says yes. -/
theorem preflight_none (h : checkDynamicQuestPlayerCompleteApplicability q playerGuid player giver
    distance range maxMoneyAmount nowMs = .none) :
    playerGuid = q.acceptedByPlayerGuid ∧ giver.runtimeGuid = q.giverRuntimeGuid ∧
      Completable q nowMs ∧ Payable player.money q.rewardMoneyCopper maxMoneyAmount := by
  unfold checkDynamicQuestPlayerCompleteApplicability at h
  obtain ⟨-, h⟩ := (left_unless (by decide)).mp h
  obtain ⟨howner, h⟩ := (left_unless (by decide)).mp h
  obtain ⟨-, h⟩ := (left_unless (by decide)).mp h
  obtain ⟨hgiver, h⟩ := (left_unless (by decide)).mp h
  obtain ⟨-, h⟩ := (left_unless (by decide)).mp h
  obtain ⟨-, h⟩ := (left_unless (by decide)).mp h
  obtain ⟨-, h⟩ := (left_unless (by decide)).mp h
  obtain ⟨-, h⟩ := (left_unless (by decide)).mp h
  obtain ⟨hstate, h⟩ := (left_unless (by decide)).mp h
  obtain ⟨hexpired, h⟩ := (left_unless (by decide)).mp h
  obtain ⟨hdone, h⟩ := (left_unless (by decide)).mp h
  obtain ⟨hmoney, -⟩ := (left_unless (by decide)).mp h
  exact ⟨not_not.mp howner, not_not.mp hgiver,
    ⟨not_not.mp hstate, Bool.eq_false_iff.mpr hexpired, not_not.mp hdone⟩, payable_iff.mpr hmoney⟩

/-- What the preflight says about the instance when it blames the instance. -/
theorem preflight_blames_instance (h : (checkDynamicQuestPlayerCompleteApplicability q playerGuid
    player giver distance range maxMoneyAmount nowMs).BlamesInstance) : ¬ Completable q nowMs := by
  rintro ⟨hactive, hlive, hdone⟩
  unfold checkDynamicQuestPlayerCompleteApplicability at h
  obtain ⟨-, h⟩ := (left_unless_of (by decide)).mp h
  obtain ⟨-, h⟩ := (left_unless_of (by decide)).mp h
  obtain ⟨-, h⟩ := (left_unless_of (by decide)).mp h
  obtain ⟨-, h⟩ := (left_unless_of (by decide)).mp h
  obtain ⟨-, h⟩ := (left_unless_of (by decide)).mp h
  obtain ⟨-, h⟩ := (left_unless_of (by decide)).mp h
  obtain ⟨-, h⟩ := (left_unless_of (by decide)).mp h
  obtain ⟨-, h⟩ := (left_unless_of (by decide)).mp h
  rw [if_neg (not_not.mpr hactive), if_neg (by rw [hlive]; decide), if_neg (not_not.mpr hdone)] at h
  by_cases hmoney : 0 < q.rewardMoneyCopper ∧
      maxMoneyAmount.toUInt64 ≤ player.money.toUInt64 + q.rewardMoneyCopper.toUInt64
  · rw [if_pos hmoney] at h
    exact absurd h (by decide)
  · rw [if_neg hmoney] at h
    exact absurd h (by decide)

/-- The registry completes a stored instance exactly when it is completable. -/
theorem complete_accepted_iff (hq : r.find id = some q) :
    (r.complete id nowMs).1.isAccepted = true ↔ Completable q nowMs := by
  have hcommit : (r.complete id nowMs).1 = completeDynamicQuest q nowMs := by
    unfold DynamicQuestRegistry.complete DynamicQuestRegistry.commit
    rw [show r.quests[id]? = some q from hq]
    dsimp only
    split <;> rfl
  rw [hcommit]
  constructor
  · intro h
    rcases attempt_cases .complete q nowMs with ⟨reason, -, hreject⟩ | ⟨q', -, hmove⟩
    · rw [show completeDynamicQuest q nowMs = reject reason from hreject, reject_isAccepted] at h
      contradiction
    · cases hmove with
      | complete hstate hlive hdone => exact ⟨hstate, hlive, decide_eq_true hdone⟩
  · rintro ⟨hactive, hlive, hdone⟩
    have hterminal : isTerminal q.state = false := by rw [hactive]; rfl
    unfold completeDynamicQuest
    rw [hterminal, hlive, hdone]
    simp [hactive, accepted_isAccepted]

/-- The preflight's no to the instance is the registry's no. -/
theorem complete_refused (hq : r.find id = some q)
    (h : (checkDynamicQuestPlayerCompleteApplicability q playerGuid player giver distance range
      maxMoneyAmount nowMs).BlamesInstance) :
    (r.complete id nowMs).1.isAccepted = false := by
  rw [Bool.eq_false_iff, ne_eq, complete_accepted_iff hq]
  exact preflight_blames_instance h

/-- A turn-in that passes its preflight is completed, and its reward can be paid. -/
theorem turn_in_commits (_hr : Reachable r) (hq : r.find id = some q)
    (h : checkDynamicQuestPlayerCompleteApplicability q playerGuid player giver
      distance range maxMoneyAmount nowMs = .none) :
    (r.complete id nowMs).1.isAccepted = true ∧
      (player.money + q.rewardMoneyCopper).toNat =
        player.money.toNat + q.rewardMoneyCopper.toNat ∧
      (q.rewardMoneyCopper ≠ 0 →
        player.money.toNat + q.rewardMoneyCopper.toNat < maxMoneyAmount.toNat) ∧
      (q.rewardMoneyCopper = 0 → player.money + q.rewardMoneyCopper = player.money) := by
  obtain ⟨-, -, hcompletable, hpay⟩ := preflight_none h
  refine ⟨(complete_accepted_iff hq).mpr hcompletable, hpay.toNat_add, hpay.resolve_left, fun h0 => ?_⟩
  rw [h0]
  exact UInt32.add_zero _

/-- One quest offered with a reward and ready to be turned in. -/
def readyToTurnIn (rewardMoneyCopper : UInt32) : List Op :=
  [.offer 5 { giver := 9, requiredCount := 1, expiryMs := 1000, rewardMoneyCopper } {} 10,
    .accept 5 ⟨77⟩ 20, .applyProgress 5 ⟨77⟩ 42 30]

def atTheGiver (money : UInt32) : DynamicQuestPlayerCompleteFacts :=
  { isPlayerGuid := true, resolved := true, alive := true, money }

def usableGiver : DynamicQuestGiverCompleteFacts :=
  { recordExists := true, materialized := true, aiWorldControlled := true, alive := true }

/-- The stored quest of a run, with what the preflight says of it. -/
theorem readyToTurnIn_run (reward money : UInt32)
    (h : ((machine.exec {} (readyToTurnIn reward)).bind fun p =>
      (p.2.quests[(5 : UInt64)]?).map fun q => (q.rewardMoneyCopper,
        checkDynamicQuestPlayerCompleteApplicability q ⟨77⟩ (atTheGiver money) usableGiver 5 10
          2147483647 40)) = some (reward, .none)) :
    ∃ r q, Reachable r ∧ r.find 5 = some q ∧ q.rewardMoneyCopper = reward ∧
      checkDynamicQuestPlayerCompleteApplicability q ⟨77⟩ (atTheGiver money) usableGiver 5 10
        2147483647 40 = .none := by
  obtain ⟨⟨tr, r⟩, hrun, hq⟩ := Option.bind_eq_some_iff.mp h
  obtain ⟨q, hq, hp⟩ := Option.map_eq_some_iff.mp hq
  obtain ⟨hreward, hcheck⟩ := Prod.mk.inj hp
  exact ⟨r, q, ⟨tr, Machine.run_of_exec hrun⟩, hq, hreward, hcheck⟩

theorem turn_in_commits_ready : ∃ (r : DynamicQuestRegistry) (q : DynamicQuestInstance),
    r.find 5 = some q ∧ (r.complete 5 40).1.isAccepted = true ∧
      3 + q.rewardMoneyCopper.toNat < 2147483647 := by
  obtain ⟨r, q, hr, hq, hreward, hcheck⟩ := readyToTurnIn_run 150 3 (by decide +kernel)
  have h := turn_in_commits hr hq hcheck
  exact ⟨r, q, hq, h.1, h.2.2.1 (by rw [hreward]; decide)⟩

/-- A quest without a reward is turned in by a player whose money is past the limit. -/
theorem free_turn_in_over_limit : ∃ (r : DynamicQuestRegistry) (q : DynamicQuestInstance),
    Reachable r ∧ r.find 5 = some q ∧
      checkDynamicQuestPlayerCompleteApplicability q ⟨77⟩ (atTheGiver 2147483648) usableGiver 5 10
        2147483647 40 = .none ∧
      2147483647 < (atTheGiver 2147483648).money.toNat + q.rewardMoneyCopper.toNat := by
  obtain ⟨r, q, hr, hq, hreward, hcheck⟩ := readyToTurnIn_run 0 2147483648 (by decide +kernel)
  exact ⟨r, q, hr, hq, hcheck, by rw [hreward]; decide⟩

end AIWorld.Quest
