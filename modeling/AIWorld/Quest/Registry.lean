import AIWorld.Lib.Machine
import AIWorld.Lib.OrdMap
import AIWorld.Quest.Lifecycle

/-! The registry owns every stored instance and an index from a giver to the ids
of its instances. A caller names an instance by its id; the registry looks up
its own value and commits what the lifecycle makes of it. -/

namespace AIWorld.Quest

open Std

/-- The stored instances by id, and the ids of each giver. -/
structure DynamicQuestRegistry where
  quests : ExtTreeMap UInt64 DynamicQuestInstance := ∅
  questIdsByGiver : ExtTreeMap UInt64 (List UInt64) := ∅

/-- The result of a replay containment. -/
structure DynamicQuestTerminationResult where
  failReason : DynamicQuestRejectReason := .notAttempted
  failedInstance : Option DynamicQuestInstance := none
  removed : Bool := false
  deriving DecidableEq

namespace DynamicQuestRegistry

def find (r : DynamicQuestRegistry) (id : UInt64) : Option DynamicQuestInstance := r.quests[id]?

/-! ### Changes -/

def offer (r : DynamicQuestRegistry) (id : UInt64) (proposal : QuestProposal)
    (giverLocationAtOffer : WorldEventLocation) (nowMs : UInt64) :
    DynamicQuestTransitionResult × DynamicQuestRegistry :=
  let result := offerDynamicQuest id proposal giverLocationAtOffer nowMs
  match result.isAccepted, result.result with
  | true, some q =>
    if r.quests.contains q.id then (reject .duplicateQuestId, r)
    else (result, {
      quests := r.quests.insert q.id q
      questIdsByGiver :=
        r.questIdsByGiver.insert q.giver ((r.questIdsByGiver[q.giver]?).getD [] ++ [q.id]) })
  | _, _ => (result, r)

def questNotFound : DynamicQuestTransitionResult := { reason := .questNotFound }

/-- Judge the stored instance and commit an accepted result: the common body of
the five transitions below. -/
def commit (r : DynamicQuestRegistry) (id : UInt64)
    (judge : DynamicQuestInstance → DynamicQuestTransitionResult) :
    DynamicQuestTransitionResult × DynamicQuestRegistry :=
  match r.quests[id]? with
  | none => (questNotFound, r)
  | some q =>
    let result := judge q
    match result.isAccepted, result.result with
    | true, some next => (result, { r with quests := r.quests.insert id next })
    | _, _ => (result, r)

def accept (r : DynamicQuestRegistry) (id : UInt64) (playerGuid : ObjectGuid) (nowMs : UInt64) :
    DynamicQuestTransitionResult × DynamicQuestRegistry :=
  r.commit id fun q => acceptDynamicQuest q playerGuid nowMs

def applyProgress (r : DynamicQuestRegistry) (id : UInt64) (playerGuid : ObjectGuid)
    (progressEventId nowMs : UInt64) : DynamicQuestTransitionResult × DynamicQuestRegistry :=
  r.commit id fun q => applyDynamicQuestProgress q playerGuid progressEventId nowMs

def complete (r : DynamicQuestRegistry) (id nowMs : UInt64) :
    DynamicQuestTransitionResult × DynamicQuestRegistry :=
  r.commit id fun q => completeDynamicQuest q nowMs

def fail (r : DynamicQuestRegistry) (id nowMs : UInt64) :
    DynamicQuestTransitionResult × DynamicQuestRegistry :=
  r.commit id fun q => failDynamicQuest q nowMs

def expire (r : DynamicQuestRegistry) (id nowMs : UInt64) :
    DynamicQuestTransitionResult × DynamicQuestRegistry :=
  r.commit id fun q => expireDynamicQuest q nowMs

def remove (r : DynamicQuestRegistry) (id : UInt64) : Bool × DynamicQuestRegistry :=
  match r.quests[id]? with
  | none => (false, r)
  | some q =>
    let quests := r.quests.erase id
    match r.questIdsByGiver[q.giver]? with
    | none => (true, { r with quests })
    | some bucket =>
      let ids := bucket.filter (· ≠ id)
      let questIdsByGiver :=
        if ids = [] then r.questIdsByGiver.erase q.giver else r.questIdsByGiver.insert q.giver ids
      (true, { quests, questIdsByGiver })

def getAllActiveIds (r : DynamicQuestRegistry) : List UInt64 :=
  (r.quests.toList.filter fun p => p.2.state = .active).map Prod.fst

/-- The body of the loop over the active ids in `FailAllActiveInstances`. -/
def failOne (nowMs : UInt64) (s : List DynamicQuestInstance × DynamicQuestRegistry) (id : UInt64) :
    List DynamicQuestInstance × DynamicQuestRegistry :=
  let (result, r) := s.2.fail id nowMs
  match result.isAccepted, result.result with
  | true, some q => (s.1 ++ [q], r)
  | _, _ => (s.1, r)

def failAllActiveInstances (r : DynamicQuestRegistry) (nowMs : UInt64) :
    List DynamicQuestInstance × DynamicQuestRegistry :=
  r.getAllActiveIds.foldl (failOne nowMs) ([], r)

/-- Fail as best one can, then remove whatever became of it. -/
def terminateForReplayContainment (r : DynamicQuestRegistry) (id nowMs : UInt64) :
    DynamicQuestTerminationResult × DynamicQuestRegistry :=
  let (failResult, r) := r.fail id nowMs
  let failedInstance := if failResult.isAccepted then failResult.result else none
  let (removed, r) := r.remove id
  ({ failReason := failResult.reason, failedInstance, removed }, r)

/-! ### Queries -/

def getCount (r : DynamicQuestRegistry) : UInt32 := r.quests.size.toUInt32

def getHighestId (r : DynamicQuestRegistry) : UInt64 := r.quests.keys.getLast?.getD 0

def getIdsAfterUntil (r : DynamicQuestRegistry) (after untilId : UInt64) (maxCount : UInt32) :
    List UInt64 :=
  if maxCount = 0 ∨ untilId ≤ after then []
  else ((r.quests.keys.dropWhile (· ≤ after)).takeWhile (· ≤ untilId)).take maxCount.toNat

/-- The stored instances that a giver's bucket names, in its order. -/
def givenBy (r : DynamicQuestRegistry) (giver : UInt64) : List DynamicQuestInstance :=
  match r.questIdsByGiver[giver]? with
  | none => []
  | some ids => ids.filterMap fun id => r.quests[id]?

def findOfferedByGiver (r : DynamicQuestRegistry) (giver : UInt64) (giverRuntimeGuid : ObjectGuid) :
    Option DynamicQuestInstance :=
  (r.givenBy giver).find? fun q =>
    q.state = .offered ∧ q.giver = giver ∧ q.giverRuntimeGuid = giverRuntimeGuid

/-- Prefers an instance that is not expired; falls back to the first match. -/
def findActiveByGiverAndPlayer (r : DynamicQuestRegistry) (giver : UInt64)
    (giverRuntimeGuid playerGuid : ObjectGuid) (nowMs : UInt64) : Option DynamicQuestInstance :=
  go none (r.givenBy giver)
where
  go (fallbackExpired : Option DynamicQuestInstance) :
      List DynamicQuestInstance → Option DynamicQuestInstance
    | [] => fallbackExpired
    | q :: qs =>
      if q.state ≠ .active ∨ q.giver ≠ giver ∨ q.giverRuntimeGuid ≠ giverRuntimeGuid ∨
          q.acceptedByPlayerGuid ≠ playerGuid then go fallbackExpired qs
      else if ¬ isDynamicQuestExpired q nowMs then some q
      else go (fallbackExpired.or (some q)) qs

def findActiveByPlayerAndVictimEntry (r : DynamicQuestRegistry) (playerGuid : ObjectGuid)
    (victimEntry mapId : UInt32) : List UInt64 :=
  (r.quests.toList.filter fun p => p.2.state = .active ∧ p.2.acceptedByPlayerGuid = playerGuid ∧
    p.2.objective = .killCreature ∧ p.2.targetEntry = victimEntry ∧
    p.2.targetMapId = mapId).map Prod.fst

def hasLiveInstanceForGiver (r : DynamicQuestRegistry) (giver : UInt64)
    (giverRuntimeGuid : ObjectGuid) (nowMs : UInt64) : Bool :=
  (r.givenBy giver).any fun q =>
    q.giver = giver ∧ q.giverRuntimeGuid = giverRuntimeGuid ∧
      (q.state = .offered ∨ q.state = .active) ∧ ¬ isDynamicQuestExpired q nowMs

end DynamicQuestRegistry

/-! ### The registry as a machine -/

inductive Op where
  | offer (id : UInt64) (proposal : QuestProposal) (giverLocationAtOffer : WorldEventLocation)
      (nowMs : UInt64)
  | accept (id : UInt64) (playerGuid : ObjectGuid) (nowMs : UInt64)
  | applyProgress (id : UInt64) (playerGuid : ObjectGuid) (progressEventId nowMs : UInt64)
  | complete (id nowMs : UInt64)
  | fail (id nowMs : UInt64)
  | expire (id nowMs : UInt64)
  | remove (id : UInt64)
  | failAllActiveInstances (nowMs : UInt64)
  | terminateForReplayContainment (id nowMs : UInt64)

inductive Outcome where
  | transition (result : DynamicQuestTransitionResult)
  | removed (b : Bool)
  | failed (instances : List DynamicQuestInstance)
  | terminated (result : DynamicQuestTerminationResult)
  deriving DecidableEq

def step (r : DynamicQuestRegistry) : Op → Outcome × DynamicQuestRegistry
  | .offer quest proposal giverLocationAtOffer nowMs =>
    (r.offer quest proposal giverLocationAtOffer nowMs).map .transition id
  | .accept quest playerGuid nowMs => (r.accept quest playerGuid nowMs).map .transition id
  | .applyProgress quest playerGuid progressEventId nowMs =>
    (r.applyProgress quest playerGuid progressEventId nowMs).map .transition id
  | .complete quest nowMs => (r.complete quest nowMs).map .transition id
  | .fail quest nowMs => (r.fail quest nowMs).map .transition id
  | .expire quest nowMs => (r.expire quest nowMs).map .transition id
  | .remove quest => (r.remove quest).map .removed id
  | .failAllActiveInstances nowMs => (r.failAllActiveInstances nowMs).map .failed id
  | .terminateForReplayContainment quest nowMs =>
    (r.terminateForReplayContainment quest nowMs).map .terminated id

/-- Runs of the registry. -/
def machine : Lib.Machine DynamicQuestRegistry Op Outcome := ⟨fun r op => some (step r op)⟩

/-- A registry that some sequence of calls leads to from an empty one. -/
def Reachable (r : DynamicQuestRegistry) : Prop := machine.Reachable {} r

end AIWorld.Quest
