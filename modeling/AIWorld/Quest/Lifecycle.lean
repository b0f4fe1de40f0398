import AIWorld.Lib.OrdMap
import AIWorld.Quest.Instance

/-! The quest lifecycle: pure transitions that either reject with a reason or
produce the next value of the instance they are given. -/

namespace AIWorld.Quest

inductive DynamicQuestRejectReason where
  | notAttempted | none | alreadyTerminal | invalidTransition | invalidQuestId | questNotFound
  | duplicateQuestId | invalidPlayer | playerMismatch | alreadyExpired | notYetExpired
  | progressIncomplete | progressAlreadyComplete | invalidProgressEvent | duplicateProgressEvent
  deriving DecidableEq

structure DynamicQuestTransitionResult where
  reason : DynamicQuestRejectReason := .notAttempted
  result : Option DynamicQuestInstance := none
  deriving DecidableEq

namespace DynamicQuestTransitionResult

def isAccepted (r : DynamicQuestTransitionResult) : Bool := r.reason = .none && r.result.isSome

end DynamicQuestTransitionResult

def isTerminal (state : DynamicQuestState) : Bool :=
  state = .completed || state = .failed || state = .expired

def uint64Max : UInt64 := 0xFFFFFFFFFFFFFFFF

/-- Never wraps around. -/
def saturatingAddMs (nowMs : UInt64) (expiryMs : UInt32) : UInt64 :=
  let remaining := uint64Max - nowMs
  if remaining < expiryMs.toUInt64 then uint64Max else nowMs + expiryMs.toUInt64

def reject (reason : DynamicQuestRejectReason) : DynamicQuestTransitionResult := { reason }

def accepted (q : DynamicQuestInstance) : DynamicQuestTransitionResult :=
  { reason := .none, result := some q }

def offerDynamicQuest (id : UInt64) (proposal : QuestProposal)
    (giverLocationAtOffer : WorldEventLocation) (nowMs : UInt64) : DynamicQuestTransitionResult :=
  if id = 0 then reject .invalidQuestId
  else accepted {
    id
    state := .offered
    title := proposal.title
    description := proposal.description
    giver := proposal.giver
    giverRuntimeGuid := proposal.giverRuntimeGuid
    giverLocationAtOffer
    sourceEventId := proposal.sourceEventId
    sourceCorrelationId := proposal.sourceCorrelationId
    sourceEventType := proposal.sourceEventType
    objective := proposal.objective
    targetGuid := proposal.targetGuid
    targetEntry := proposal.targetEntry
    targetMapId := proposal.targetMapId
    rewardMoneyCopper := proposal.rewardMoneyCopper
    requiredCount := proposal.requiredCount
    progress := 0
    createdAtMs := nowMs
    expiresAtMs := saturatingAddMs nowMs proposal.expiryMs }

def isDynamicQuestExpired (q : DynamicQuestInstance) (nowMs : UInt64) : Bool :=
  q.expiresAtMs ≤ nowMs

def isDynamicQuestObjectiveComplete (q : DynamicQuestInstance) : Bool :=
  q.requiredCount ≤ q.progress

def acceptDynamicQuest (q : DynamicQuestInstance) (playerGuid : ObjectGuid) (nowMs : UInt64) :
    DynamicQuestTransitionResult :=
  if isTerminal q.state then reject .alreadyTerminal
  else if q.state ≠ .offered then reject .invalidTransition
  else if ¬ playerGuid.isPlayer then reject .invalidPlayer
  else if isDynamicQuestExpired q nowMs then reject .alreadyExpired
  else accepted { q with state := .active, acceptedByPlayerGuid := playerGuid }

def applyDynamicQuestProgress (q : DynamicQuestInstance) (playerGuid : ObjectGuid)
    (progressEventId : UInt64) (nowMs : UInt64) : DynamicQuestTransitionResult :=
  if isTerminal q.state then reject .alreadyTerminal
  else if q.state ≠ .active then reject .invalidTransition
  else if isDynamicQuestExpired q nowMs then reject .alreadyExpired
  else if progressEventId = 0 then reject .invalidProgressEvent
  else if playerGuid ≠ q.acceptedByPlayerGuid then reject .playerMismatch
  -- A replay of a counted event is a duplicate even when the count is full.
  else if progressEventId ∈ q.consumedProgressEventIds then reject .duplicateProgressEvent
  else if q.requiredCount ≤ q.progress then reject .progressAlreadyComplete
  else accepted { q with
    consumedProgressEventIds := q.consumedProgressEventIds ++ [progressEventId]
    progress := q.progress + 1 }

def completeDynamicQuest (q : DynamicQuestInstance) (nowMs : UInt64) :
    DynamicQuestTransitionResult :=
  if isTerminal q.state then reject .alreadyTerminal
  else if q.state ≠ .active then reject .invalidTransition
  else if isDynamicQuestExpired q nowMs then reject .alreadyExpired
  else if ¬ isDynamicQuestObjectiveComplete q then reject .progressIncomplete
  else accepted { q with state := .completed }

def failDynamicQuest (q : DynamicQuestInstance) (nowMs : UInt64) : DynamicQuestTransitionResult :=
  if isTerminal q.state then reject .alreadyTerminal
  else if q.state ≠ .active then reject .invalidTransition
  else if isDynamicQuestExpired q nowMs then reject .alreadyExpired
  else accepted { q with state := .failed }

def expireDynamicQuest (q : DynamicQuestInstance) (nowMs : UInt64) :
    DynamicQuestTransitionResult :=
  if isTerminal q.state then reject .alreadyTerminal
  else if ¬ isDynamicQuestExpired q nowMs then reject .notYetExpired
  else accepted { q with state := .expired }

/-! ### What a transition does -/

/-- The transitions of a stored instance, with what their callers supply. -/
inductive Transition where
  | accept (playerGuid : ObjectGuid)
  | applyProgress (playerGuid : ObjectGuid) (progressEventId : UInt64)
  | complete
  | fail
  | expire
  deriving DecidableEq

def Transition.attempt (t : Transition) (q : DynamicQuestInstance) (nowMs : UInt64) :
    DynamicQuestTransitionResult :=
  match t with
  | .accept playerGuid => acceptDynamicQuest q playerGuid nowMs
  | .applyProgress playerGuid progressEventId =>
    applyDynamicQuestProgress q playerGuid progressEventId nowMs
  | .complete => completeDynamicQuest q nowMs
  | .fail => failDynamicQuest q nowMs
  | .expire => expireDynamicQuest q nowMs

/-- The legal transitions of an instance at a time, with their guards. -/
inductive Moves (nowMs : UInt64) (q : DynamicQuestInstance) :
    Transition → DynamicQuestInstance → Prop
  | accept {playerGuid : ObjectGuid} (hstate : q.state = .offered)
      (hplayer : playerGuid.isPlayer = true) (hlive : isDynamicQuestExpired q nowMs = false) :
      Moves nowMs q (.accept playerGuid)
        { q with state := .active, acceptedByPlayerGuid := playerGuid }
  | applyProgress {event : UInt64} (hstate : q.state = .active)
      (hlive : isDynamicQuestExpired q nowMs = false) (hevent : event ≠ 0)
      (hnew : event ∉ q.consumedProgressEventIds) (hlt : q.progress < q.requiredCount) :
      Moves nowMs q (.applyProgress q.acceptedByPlayerGuid event) { q with
        consumedProgressEventIds := q.consumedProgressEventIds ++ [event]
        progress := q.progress + 1 }
  | complete (hstate : q.state = .active) (hlive : isDynamicQuestExpired q nowMs = false)
      (hdone : q.requiredCount ≤ q.progress) : Moves nowMs q .complete { q with state := .completed }
  | fail (hstate : q.state = .active) (hlive : isDynamicQuestExpired q nowMs = false) :
      Moves nowMs q .fail { q with state := .failed }
  | expire (hstate : isTerminal q.state = false) (hexpired : isDynamicQuestExpired q nowMs = true) :
      Moves nowMs q .expire { q with state := .expired }

theorem reject_isAccepted {reason : DynamicQuestRejectReason} :
    (reject reason).isAccepted = false := by
  cases reason <;> rfl

theorem accepted_isAccepted (q : DynamicQuestInstance) : (accepted q).isAccepted = true := rfl

theorem accepted_result (q : DynamicQuestInstance) : (accepted q).result = some q := rfl

/-- An attempt is rejected with a reason or makes a legal move. -/
theorem attempt_cases (t : Transition) (q : DynamicQuestInstance) (nowMs : UInt64) :
    (∃ reason, reason ≠ .none ∧ t.attempt q nowMs = reject reason) ∨
      ∃ q', t.attempt q nowMs = accepted q' ∧ Moves nowMs q t q' := by
  have hno {reason : DynamicQuestRejectReason} (h : reason ≠ .none) {P : Prop} :
      (∃ reason', reason' ≠ .none ∧ reject reason = reject reason') ∨ P := .inl ⟨reason, h, rfl⟩
  cases t with
  | accept playerGuid =>
    simp only [Transition.attempt, acceptDynamicQuest]
    split_ifs with hterminal hstate hplayer hexpired
    any_goals exact hno (by decide)
    exact .inr ⟨_, rfl, .accept (not_not.mp hstate) hplayer
      (Bool.eq_false_iff.mpr hexpired)⟩
  | applyProgress playerGuid event =>
    simp only [Transition.attempt, applyDynamicQuestProgress]
    split_ifs with hterminal hstate hexpired hevent hplayer hdup hfull
    any_goals exact hno (by decide)
    obtain rfl := not_not.mp hplayer
    exact .inr ⟨_, rfl, .applyProgress (not_not.mp hstate) (Bool.eq_false_iff.mpr hexpired)
      hevent hdup (UInt32.not_le.mp hfull)⟩
  | complete =>
    simp only [Transition.attempt, completeDynamicQuest]
    split_ifs with hterminal hstate hexpired hdone
    any_goals exact hno (by decide)
    exact .inr ⟨_, rfl, .complete (not_not.mp hstate) (Bool.eq_false_iff.mpr hexpired)
      (of_decide_eq_true hdone)⟩
  | fail =>
    simp only [Transition.attempt, failDynamicQuest]
    split_ifs with hterminal hstate hexpired
    any_goals exact hno (by decide)
    exact .inr ⟨_, rfl, .fail (not_not.mp hstate) (Bool.eq_false_iff.mpr hexpired)⟩
  | expire =>
    simp only [Transition.attempt, expireDynamicQuest]
    split_ifs with hterminal hexpired
    any_goals exact hno (by decide)
    exact .inr ⟨_, rfl, .expire (Bool.eq_false_iff.mpr hterminal) hexpired⟩

end AIWorld.Quest
