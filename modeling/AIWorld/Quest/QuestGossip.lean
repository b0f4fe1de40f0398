import AIWorld.Quest.QuestRewards

/-! What a giver shows a player and what a click does. A giver's menu is read from the registry
anew at every visit and at every click, so a click can only act on the quest that the giver
shows at that moment; and the gossip flag of a giver is up exactly when some visit would show
something, but for an offer that an older expired one hides. -/

namespace AIWorld.Quest

open Std Lib DynamicQuestRegistry DynamicQuestManager
open Memory (MemoryRecord PerceptionChannel)

/-! ### Outcomes that the giver remembers -/

inductive DynamicQuestOutcomeReactionKind where
  | completed | failed | expired
  deriving DecidableEq

structure DynamicQuestOutcomeReaction where
  kind : DynamicQuestOutcomeReactionKind
  sourceEventId : UInt64
  correlationId : UInt64
  observedAtMs : UInt64
  channel : PerceptionChannel

def toReactionKind : WorldEventType → Option DynamicQuestOutcomeReactionKind
  | .dynamicQuestCompleted => some .completed
  | .dynamicQuestFailed => some .failed
  | .dynamicQuestExpired => some .expired
  | _ => none

def DynamicQuestOutcomeReactionKind.toWorldEventType : DynamicQuestOutcomeReactionKind → WorldEventType
  | .completed => .dynamicQuestCompleted
  | .failed => .dynamicQuestFailed
  | .expired => .dynamicQuestExpired

/-- What a memory says of the end of a quest that its owner issued. -/
def eligibleOutcome (issuer : UInt64) (memory : MemoryRecord) : Option DynamicQuestOutcomeReactionKind :=
  if memory.owner ≠ issuer then none
  else if memory.type ≠ .worldEvent then none
  else if memory.target.agent ≠ issuer then none
  else memory.sourceEventType.bind toReactionKind

def isMoreRecent (candidate current : MemoryRecord) : Bool :=
  if candidate.lastObservedAtMs ≠ current.lastObservedAtMs then
    current.lastObservedAtMs < candidate.lastObservedAtMs
  else current.sourceEventId < candidate.sourceEventId

/-- The body of the loop over the memories. -/
def preferOutcome (issuer : UInt64) (best : Option (MemoryRecord × DynamicQuestOutcomeReactionKind))
    (memory : MemoryRecord) : Option (MemoryRecord × DynamicQuestOutcomeReactionKind) :=
  match eligibleOutcome issuer memory with
  | none => best
  | some kind =>
    match best with
    | none => some (memory, kind)
    | some (current, _) => if isMoreRecent memory current then some (memory, kind) else best

def selectDynamicQuestOutcomeReaction (issuer : UInt64) (memories : List MemoryRecord) :
    Option DynamicQuestOutcomeReaction :=
  if issuer = 0 then none
  else (memories.foldl (preferOutcome issuer) none).map fun (best, kind) => {
    kind
    sourceEventId := best.sourceEventId
    correlationId := best.correlationId
    observedAtMs := best.lastObservedAtMs
    channel := best.channel }

/-! ### The menu -/

inductive ContentKind where
  | noQuest | offered | active | readyToTurnIn | recentOutcome
  deriving DecidableEq

structure DynamicQuestGossipContent where
  kind : ContentKind := .noQuest
  id : UInt64 := 0
  title : String := ""
  description : String := ""
  progress : UInt32 := 0
  requiredCount : UInt32 := 0
  outcomeType : WorldEventType := .dynamicQuestCompleted
  sourceEventId : UInt64 := 0
  outcomeChannel : PerceptionChannel := .sight
  giverAgent : UInt64 := 0
  deriving DecidableEq

/-- The content that shows one stored quest. -/
def contentOf (kind : ContentKind) (q : DynamicQuestInstance) : DynamicQuestGossipContent where
  kind
  id := q.id
  title := q.title
  description := q.description
  progress := q.progress
  requiredCount := q.requiredCount

/-- A creature as a visitor finds it: the agent that its spawn belongs to, if any, and its identity. -/
structure Giver where
  agent : Option UInt64
  guid : ObjectGuid

/-- `memories` are the active memories of an agent at the time of the visit. -/
def getDynamicQuestGossipContent (s : DynamicQuestManager) (giver : Giver) (playerGuid : ObjectGuid)
    (memories : UInt64 → List MemoryRecord) (nowMs : UInt64) : DynamicQuestGossipContent :=
  match giver.agent with
  | none => {}
  | some agent =>
    match (s.registry.findActiveByGiverAndPlayer agent giver.guid playerGuid nowMs).filter
        fun q => !isDynamicQuestExpired q nowMs with
    | some q => contentOf (if isDynamicQuestObjectiveComplete q then .readyToTurnIn else .active) q
    | none =>
      match (s.registry.findOfferedByGiver agent giver.guid).filter
          fun q => !isDynamicQuestExpired q nowMs with
      | some q => contentOf .offered q
      | none =>
        match selectDynamicQuestOutcomeReaction agent (memories agent) with
        | none => {}
        | some reaction => {
          kind := .recentOutcome
          outcomeType := reaction.kind.toWorldEventType
          sourceEventId := reaction.sourceEventId
          outcomeChannel := reaction.channel
          giverAgent := agent }

def hasLiveDynamicQuestStateForGiver (s : DynamicQuestManager) (giver : Giver) (nowMs : UInt64) : Bool :=
  match giver.agent with
  | none => false
  | some agent => s.registry.hasLiveInstanceForGiver agent giver.guid nowMs

def hasDynamicQuestGossipContentForGiver (s : DynamicQuestManager) (giver : Giver)
    (memories : UInt64 → List MemoryRecord) (nowMs : UInt64) : Bool :=
  if hasLiveDynamicQuestStateForGiver s giver nowMs then true
  else match giver.agent with
    | none => false
    | some agent => (selectDynamicQuestOutcomeReaction agent (memories agent)).isSome

/-- `GOSSIP_ACTION_INFO_DEF`. -/
def gossipActionInfoDef : ℕ := 1000

def formatDynamicQuestProgressGossipLine (title : String) (progress requiredCount : UInt32) : String :=
  title ++ " - Progress: " ++ toString progress.toNat ++ "/" ++ toString requiredCount.toNat

def formatDynamicQuestReadyToTurnInGossipLine (title : String) : String := title ++ " - Objective complete"

def formatDynamicQuestOutcomeReaction : WorldEventType → String
  | .dynamicQuestCompleted => "The task was completed."
  | .dynamicQuestFailed => "The task failed."
  | .dynamicQuestExpired => "The task expired before it was completed."
  | _ => ""

structure GossipRow where
  text : String
  action : ℕ
  deriving DecidableEq

/-- The rows that are put on top of the creature's own menu; without any, that menu is left to the
server. -/
def onGossipHello (content : DynamicQuestGossipContent) : List GossipRow :=
  match content.kind with
  | .noQuest => []
  | .recentOutcome => [⟨formatDynamicQuestOutcomeReaction content.outcomeType, gossipActionInfoDef⟩]
  | kind =>
    let progressLine := if kind = .readyToTurnIn then formatDynamicQuestReadyToTurnInGossipLine content.title
      else formatDynamicQuestProgressGossipLine content.title content.progress content.requiredCount
    [⟨progressLine, gossipActionInfoDef⟩] ++
      (if content.description.isEmpty then [] else [⟨content.description, gossipActionInfoDef⟩]) ++
      (if kind = .offered then [⟨"Accept", gossipActionInfoDef + 1⟩]
       else if kind = .readyToTurnIn then [⟨"Turn in", gossipActionInfoDef + 2⟩] else [])

/-- The call that a click makes, if it makes one: the content is read again at the click. -/
def onGossipSelect (action : ℕ) (content : DynamicQuestGossipContent) (w : World) (playerGuid : ObjectGuid)
    (grant revert : MoneyChange) (nowMs : UInt64) : Option ManagerInput :=
  if action = gossipActionInfoDef + 1 then
    if content.kind = .offered then some (.accept w content.id playerGuid nowMs) else none
  else if action = gossipActionInfoDef + 2 then
    if content.kind = .readyToTurnIn then some (.complete w content.id playerGuid grant revert nowMs) else none
  else none

/-! ### The registry of a run -/

variable {c : Settings} {w : World} {s : DynamicQuestManager} {i : ManagerInput} {tr : Trace}
  {q : DynamicQuestInstance} {catalog : Catalog} {giver : Giver} {agent nowMs : UInt64}
  {playerGuid : ObjectGuid} {memories : UInt64 → List MemoryRecord}

theorem create_reaches (c : Settings) (w : World) (s : DynamicQuestManager) (proposal : ValidatedProposal)
    (nowMs : UInt64) : machine.Reachable s.registry (createDynamicQuestOffer c w s proposal nowMs).2.registry := by
  unfold createDynamicQuestOffer
  dsimp only
  split_ifs with hfull happlies hid hresult
  · exact Machine.Reachable.refl _
  · exact Machine.Reachable.refl _
  · exact Machine.Reachable.refl _
  · exact reaches_call _ (.offer _ _ _ _)
  · exact reaches_call _ (.offer _ _ _ _)

theorem respond_reaches (c : Settings) (w : World) (s : DynamicQuestManager) (requestId agent : UInt64)
    (success : Bool) (response : Option (Inference.DynamicTaskResponse Float32)) (nowMs offerMs : UInt64) :
    machine.Reachable s.registry
      (handleDynamicTaskResponse c w s requestId agent success response nowMs offerMs).2.registry := by
  unfold handleDynamicTaskResponse
  cases s.pending[agent]? with
  | none => exact Machine.Reachable.refl _
  | some pending =>
    dsimp only
    split_ifs
    · exact Machine.Reachable.refl _
    · exact Machine.Reachable.refl _
    · cases response with
      | none => exact Machine.Reachable.refl _
      | some answer =>
        dsimp only
        cases judgeResponse c w pending requestId agent answer.proposal nowMs with
        | none => exact Machine.Reachable.refl _
        | some judged =>
          rcases candidate_cases c w { s with pending := s.pending.erase agent } judged.1 judged.2 offerMs with
            hsame | ⟨proposal, -, hcreate⟩
          · dsimp only
            rw [hsame]
            exact Machine.Reachable.refl _
          · dsimp only
            rw [hcreate]
            exact create_reaches c w { s with pending := s.pending.erase agent } proposal offerMs

theorem expireOne_reaches (w : World) (nowMs : UInt64) (b : List Publication × DynamicQuestRegistry)
    (id : UInt64) : machine.Reachable b.2 (expireOne w nowMs b id).2 := by
  rw [expireOne_eq]
  cases b.2.judged (DynamicQuestInstance.expiring nowMs) id with
  | none => exact Machine.Reachable.refl _
  | some q => exact reaches_call _ (.remove id)

/-- Every call of the manager is a run of its registry. -/
theorem manager_reaches (c : Settings) (s : DynamicQuestManager) (i : ManagerInput) :
    machine.Reachable s.registry (managerStep c s i).2.registry := by
  cases i with
  | submit w record creature source retrieved nowMs requestId =>
    rcases submit_cases c w s record creature source retrieved nowMs requestId with
      hr | ⟨context, provenance, -, -, -, hr⟩ <;>
    · simp only [managerStep, hr]
      exact Machine.Reachable.refl _
  | respond w requestId agent success response nowMs offerMs =>
    exact respond_reaches c w s requestId agent success response nowMs offerMs
  | accept w id playerGuid nowMs =>
    simp only [managerStep, acceptDynamicQuestForPlayer]
    cases s.registry.find id with
    | none => exact Machine.Reachable.refl _
    | some q =>
      dsimp only
      split_ifs
      · exact Machine.Reachable.refl _
      · exact reaches_call _ (.accept id playerGuid nowMs)
      · exact reaches_call _ (.accept id playerGuid nowMs)
  | complete w id playerGuid grant revert nowMs =>
    have hcases := complete_cases c w s id playerGuid grant revert nowMs
    simp only [managerStep]
    generalize completeDynamicQuestForPlayer c w s id playerGuid grant revert nowMs = turnIn at hcases ⊢
    cases hcases with
    | refused => exact Machine.Reachable.refl _
    | contained => exact reaches_call _ (.remove id)
    | paid => exact reaches_call _ (.remove id)
  | maintain w nowMs =>
    have hfold := reaches_foldl Prod.snd (expireOne_reaches w nowMs) (discover c s).1
      ([], (discover c s).2.registry)
    rw [(discover_spec c s).2.1] at hfold
    simp only [managerStep, runDynamicQuestMaintenance, (discover_spec c s).2.1]
    exact hfold
  | kill event => exact Machine.Reachable.refl _
  | drain nowMs =>
    refine reaches_foldl id (fun r event => ?_) s.killEventBus.pending s.registry
    unfold processDynamicQuestKillProgress
    split_ifs
    · exact Machine.Reachable.refl _
    · exact reaches_foldl id
        (fun r id => reaches_call r (.applyProgress id event.killerGuid event.eventId (nowMs event))) _ r
  | reclaim w nowMs =>
    simp only [managerStep, reclaimDynamicQuestsAfterKillCreditLoss]
    split_ifs
    · exact Machine.Reachable.refl _
    · have hfail : machine.Reachable s.registry (s.registry.failAllActiveInstances nowMs).2 :=
        reaches_call s.registry (.failAllActiveInstances nowMs)
      have hremove (b : List Publication × DynamicQuestRegistry) (q : DynamicQuestInstance) :
          machine.Reachable b.2 (removeFailed w b q).2 := reaches_call b.2 (.remove q.id)
      exact reaches_trans hfail (reaches_foldl Prod.snd hremove
        (s.registry.failAllActiveInstances nowMs).1 ([], (s.registry.failAllActiveInstances nowMs).2))

theorem represents_of_run (hrun : (manager c).Run {} tr s) : ∃ catalog, Represents s.registry catalog := by
  have hreach : machine.Reachable {} s.registry := by
    refine hrun.history (P := fun _ s => machine.Reachable {} s.registry) (fun tr s i o s' ih hstep => ?_)
      (Machine.Reachable.refl _)
    obtain ⟨-, rfl⟩ := manager_step hstep
    exact reaches_trans ih (manager_reaches c s i)
  obtain ⟨tr', hrun'⟩ := hreach
  exact ⟨_, represents_empty.run hrun'⟩

/-! ### Lookups -/

/-- A stored quest of one giver's present incarnation. -/
structure GivenBy (r : DynamicQuestRegistry) (agent : UInt64) (guid : ObjectGuid) (q : DynamicQuestInstance) :
    Prop where
  stored : r.quests[q.id]? = some q
  giver : q.giver = agent
  guid : q.giverRuntimeGuid = guid

theorem Represents.mem_iff {r : DynamicQuestRegistry} (h : Represents r catalog) :
    q ∈ catalog ↔ r.quests[q.id]? = some q := by
  rw [h.quests]
  exact ⟨GroupIndex.find_name h.nodup, fun hq => List.mem_of_find?_eq_some hq⟩

theorem offered_spec {r : DynamicQuestRegistry} {guid : ObjectGuid} (h : Represents r catalog)
    (hq : r.findOfferedByGiver agent guid = some q) : GivenBy r agent guid q ∧ q.state = .offered := by
  rw [h.findOfferedByGiver] at hq
  have hfound := List.find?_some hq
  rw [decide_eq_true_eq] at hfound
  exact ⟨⟨h.mem_iff.mp (List.mem_of_find?_eq_some hq), hfound.2.1, hfound.2.2⟩, hfound.1⟩

/-- What a lookup of a live active quest looks for. -/
structure LiveFor (r : DynamicQuestRegistry) (agent : UInt64) (guid playerGuid : ObjectGuid) (nowMs : UInt64)
    (q : DynamicQuestInstance) : Prop where
  given : GivenBy r agent guid q
  active : q.state = .active
  owner : q.acceptedByPlayerGuid = playerGuid
  live : isDynamicQuestExpired q nowMs = false

/-- The live active quest of a player, when the lookup finds one. -/
def findLive (r : DynamicQuestRegistry) (agent : UInt64) (guid playerGuid : ObjectGuid) (nowMs : UInt64) :
    Option DynamicQuestInstance :=
  (r.findActiveByGiverAndPlayer agent guid playerGuid nowMs).filter fun q => !isDynamicQuestExpired q nowMs

theorem filter_or_find {α : Type*} (p : α → Bool) (xs : List α) (y : Option α)
    (hy : ∀ a, y = some a → a ∈ xs) : ((xs.find? p).or y).filter p = xs.find? p := by
  cases hfound : xs.find? p with
  | some a => simp [Option.filter, List.find?_some hfound]
  | none =>
    rw [Option.none_or]
    cases y with
    | none => rfl
    | some a =>
      have hno := List.find?_eq_none.mp hfound a (hy a rfl)
      simp [Option.filter, hno]

theorem findLive_eq {r : DynamicQuestRegistry} (h : Represents r catalog) (guid : ObjectGuid) :
    findLive r agent guid playerGuid nowMs = (catalog.filter fun q => q.state = .active ∧ q.giver = agent ∧
      q.giverRuntimeGuid = guid ∧ q.acceptedByPlayerGuid = playerGuid).find? fun q => !isDynamicQuestExpired q nowMs := by
  rw [findLive, h.findActiveByGiverAndPlayer, Catalog.activeBy]
  have hpred : (fun q => decide (¬ isDynamicQuestExpired q nowMs = true)) =
      fun q => !isDynamicQuestExpired q nowMs := funext fun q => by simp
  simp only [hpred]
  exact filter_or_find _ _ _ fun a ha => List.mem_of_head? ha

theorem findLive_some {r : DynamicQuestRegistry} {guid : ObjectGuid} (h : Represents r catalog)
    (hq : findLive r agent guid playerGuid nowMs = some q) : LiveFor r agent guid playerGuid nowMs q := by
  rw [findLive_eq h] at hq
  have hlive := List.find?_some hq
  obtain ⟨hmem, hfound⟩ := List.mem_filter.mp (List.mem_of_find?_eq_some hq)
  rw [decide_eq_true_eq] at hfound
  exact ⟨⟨h.mem_iff.mp hmem, hfound.2.1, hfound.2.2.1⟩, hfound.1, hfound.2.2.2, by simpa using hlive⟩

theorem findLive_none {r : DynamicQuestRegistry} {guid : ObjectGuid} (h : Represents r catalog)
    (hnone : findLive r agent guid playerGuid nowMs = none) : ¬ LiveFor r agent guid playerGuid nowMs q := by
  rintro ⟨⟨hstored, hgiver, hguid⟩, hactive, howner, hlive⟩
  rw [findLive_eq h, List.find?_eq_none] at hnone
  refine hnone q (List.mem_filter.mpr ⟨h.mem_iff.mpr hstored, ?_⟩) (by rw [hlive]; rfl)
  exact decide_eq_true ⟨hactive, hgiver, hguid, howner⟩

theorem hasLive_iff {r : DynamicQuestRegistry} {guid : ObjectGuid} (h : Represents r catalog) :
    r.hasLiveInstanceForGiver agent guid nowMs = true ↔ ∃ q, GivenBy r agent guid q ∧
      (q.state = .offered ∨ q.state = .active) ∧ isDynamicQuestExpired q nowMs = false := by
  rw [h.hasLiveInstanceForGiver, Catalog.hasLive, List.any_eq_true]
  constructor
  · rintro ⟨q, hmem, hq⟩
    rw [decide_eq_true_eq] at hq
    exact ⟨q, ⟨h.mem_iff.mp hmem, hq.1, hq.2.1⟩, hq.2.2.1, Bool.eq_false_iff.mpr hq.2.2.2⟩
  · rintro ⟨q, ⟨hstored, hgiver, hguid⟩, hstate, hlive⟩
    exact ⟨q, h.mem_iff.mpr hstored, decide_eq_true ⟨hgiver, hguid, hstate, Bool.eq_false_iff.mp hlive⟩⟩

/-! ### What is shown -/

/-- The content of a visit, with what it was read from. -/
inductive Shows (s : DynamicQuestManager) (agent : UInt64) (guid playerGuid : ObjectGuid)
    (memories : UInt64 → List MemoryRecord) (nowMs : UInt64) : DynamicQuestGossipContent → Prop
  | active {q : DynamicQuestInstance} (hq : LiveFor s.registry agent guid playerGuid nowMs q) :
      Shows s agent guid playerGuid memories nowMs
        (contentOf (if isDynamicQuestObjectiveComplete q then .readyToTurnIn else .active) q)
  | offered {q : DynamicQuestInstance} (hq : GivenBy s.registry agent guid q) (hstate : q.state = .offered)
      (hlive : isDynamicQuestExpired q nowMs = false)
      (hno : findLive s.registry agent guid playerGuid nowMs = none) :
      Shows s agent guid playerGuid memories nowMs (contentOf .offered q)
  | outcome {reaction : DynamicQuestOutcomeReaction}
      (hno : findLive s.registry agent guid playerGuid nowMs = none)
      (hreaction : selectDynamicQuestOutcomeReaction agent (memories agent) = some reaction) :
      Shows s agent guid playerGuid memories nowMs {
        kind := .recentOutcome
        outcomeType := reaction.kind.toWorldEventType
        sourceEventId := reaction.sourceEventId
        outcomeChannel := reaction.channel
        giverAgent := agent }
  | nothing (hno : findLive s.registry agent guid playerGuid nowMs = none)
      (hoffer : ∀ q, s.registry.findOfferedByGiver agent guid = some q → isDynamicQuestExpired q nowMs = true)
      (hreaction : selectDynamicQuestOutcomeReaction agent (memories agent) = none) :
      Shows s agent guid playerGuid memories nowMs {}

theorem content_shows (h : Represents s.registry catalog) (hagent : giver.agent = some agent)
    (playerGuid : ObjectGuid) (memories : UInt64 → List MemoryRecord) (nowMs : UInt64) :
    Shows s agent giver.guid playerGuid memories nowMs
      (getDynamicQuestGossipContent s giver playerGuid memories nowMs) := by
  unfold getDynamicQuestGossipContent
  rw [hagent]
  dsimp only
  change Shows s agent giver.guid playerGuid memories nowMs
    (match findLive s.registry agent giver.guid playerGuid nowMs with | some q => _ | none => _)
  cases hlive : findLive s.registry agent giver.guid playerGuid nowMs with
  | some q => exact .active (findLive_some h hlive)
  | none =>
    dsimp only
    cases hoffer : s.registry.findOfferedByGiver agent giver.guid with
    | none =>
      cases hreaction : selectDynamicQuestOutcomeReaction agent (memories agent) with
      | none => exact .nothing hlive (by simp [hoffer]) hreaction
      | some reaction => exact .outcome hlive hreaction
    | some q =>
      obtain ⟨hgiven, hstate⟩ := offered_spec h hoffer
      cases hexpired : isDynamicQuestExpired q nowMs with
      | false =>
        simp only [Option.filter, hexpired, Bool.not_false, if_true]
        exact .offered hgiven hstate hexpired hlive
      | true =>
        simp only [Option.filter, hexpired, Bool.not_true, Bool.false_eq_true, if_false]
        cases hreaction : selectDynamicQuestOutcomeReaction agent (memories agent) with
        | none =>
          refine .nothing hlive (fun q' hq' => ?_) hreaction
          rw [hoffer, Option.some.injEq] at hq'
          rw [← hq', hexpired]
        | some reaction => exact .outcome hlive hreaction

/-! ### Clicks -/

theorem playerFacts_isPlayerGuid (w : World) (playerGuid : ObjectGuid) :
    (playerFacts w playerGuid).isPlayerGuid = playerGuid.isPlayer := by
  unfold playerFacts
  cases online w playerGuid <;> rfl

theorem playerCompleteFacts_money (w : World) (playerGuid : ObjectGuid) :
    (playerCompleteFacts w playerGuid).money = balance w playerGuid := by
  unfold playerCompleteFacts balance
  cases online w playerGuid <;> rfl

/-- What must hold of the live world for a player to accept a quest. -/
def MayAccept (c : Settings) (w : World) (q : DynamicQuestInstance) (playerGuid : ObjectGuid) : Prop :=
  checkDynamicQuestPlayerAcceptApplicability q (playerFacts w playerGuid) (giverAcceptFacts w q.giver)
    (playerToGiverDistance w playerGuid q.giver) c.playerAcceptMaxRangeYards = .none

/-- What must hold of the live world for a player to turn a quest in. -/
def MayTurnIn (c : Settings) (w : World) (q : DynamicQuestInstance) (playerGuid : ObjectGuid) (nowMs : UInt64) :
    Prop :=
  checkDynamicQuestPlayerCompleteApplicability q playerGuid (playerCompleteFacts w playerGuid)
    (giverCompleteFacts w q.giver) (playerToGiverDistance w playerGuid q.giver) c.playerAcceptMaxRangeYards
    maxMoneyAmount nowMs = .none

theorem MayAccept.isPlayer (h : MayAccept c w q playerGuid) : playerGuid.isPlayer = true := by
  unfold MayAccept checkDynamicQuestPlayerAcceptApplicability at h
  have hplayer := ((left_unless (by decide)).mp h).1
  simp only [Bool.or_eq_true, Bool.not_eq_true', not_or, Bool.not_eq_false] at hplayer
  rw [← playerFacts_isPlayerGuid w]
  exact hplayer.1.1

/-- An offered instance once a player took it. -/
def DynamicQuestInstance.takenBy (q : DynamicQuestInstance) (playerGuid : ObjectGuid) : DynamicQuestInstance :=
  { q with state := .active, acceptedByPlayerGuid := playerGuid }

theorem accept_click (hq : s.registry.quests[q.id]? = some q) (hstate : q.state = .offered)
    (happlies : MayAccept c w q playerGuid) (nowMs : UInt64) :
    acceptDynamicQuestForPlayer c w s q.id playerGuid nowMs = if nowMs < q.expiresAtMs then
      (.none, { s with registry := s.registry.put q.id (q.takenBy playerGuid) }) else (.acceptRejected, s) := by
  have hplayer := happlies.isPlayer
  unfold MayAccept at happlies
  have hcommit : s.registry.accept q.id playerGuid nowMs = if nowMs < q.expiresAtMs then
      (accepted (q.takenBy playerGuid), s.registry.put q.id (q.takenBy playerGuid))
      else (reject .alreadyExpired, s.registry) := by
    have hexpired : isDynamicQuestExpired q nowMs = decide (¬ nowMs < q.expiresAtMs) := by
      rw [isDynamicQuestExpired]
      exact decide_eq_decide.mpr UInt64.not_lt.symm
    simp only [DynamicQuestRegistry.accept, commit, hq, acceptDynamicQuest, hstate, isTerminal, hplayer, hexpired]
    by_cases hlive : nowMs < q.expiresAtMs
    · simp [hlive, accepted_isAccepted, accepted_result, put, DynamicQuestInstance.takenBy]
    · simp [hlive, reject_isAccepted]
  unfold acceptDynamicQuestForPlayer DynamicQuestRegistry.find
  simp only [hq, happlies, hcommit, ne_eq, not_true, if_false]
  split_ifs with hlive <;> simp_all [accepted_isAccepted, reject_isAccepted]

theorem turn_in_click {id : UInt64} (hq : s.registry.quests[id]? = some q)
    (happlies : MayTurnIn c w q playerGuid nowMs) {grant : MoneyChange}
    (hgrant : q.rewardMoneyCopper ≠ 0 → grant (balance w playerGuid) q.rewardMoneyCopper.toNat =
      (true, balance w playerGuid + q.rewardMoneyCopper)) (revert : MoneyChange) :
    ∃ location, completeDynamicQuestForPlayer c w s id playerGuid grant revert nowMs =
      ⟨.none, balance w playerGuid + q.rewardMoneyCopper,
        publishDynamicQuestOutcome { q with state := .completed } location,
        { s with registry := (s.registry.remove id).2 }⟩ := by
  obtain ⟨-, -, hdone, hpay⟩ := preflight_none happlies
  rw [playerCompleteFacts_money] at hpay
  obtain ⟨hcommit, hremove⟩ := complete_of_completable hq hdone
  have hpaid : (if q.rewardMoneyCopper = 0 then (true, balance w playerGuid)
      else grant (balance w playerGuid) q.rewardMoneyCopper.toNat) =
        (true, balance w playerGuid + q.rewardMoneyCopper) := by
    split_ifs with hzero
    · rw [hzero, UInt32.add_zero]
    · exact hgrant hzero
  refine ⟨((giverCreature w q.giver).map LiveCreature.location).getD {}, ?_⟩
  unfold MayTurnIn at happlies
  unfold completeDynamicQuestForPlayer DynamicQuestRegistry.find
  simp only [hq, happlies, ne_eq, not_true, if_false, hdone.moves.2.2, accepted_isAccepted, Bool.not_true,
    Bool.false_eq_true, payReward, hpaid, hpay.toNat_add, decide_false, Bool.or_self, hcommit, accepted_result,
    hremove]

/-- After a click that accepted, the giver shows the quest to its player as active. -/
theorem shown_after_accept (hrun : (manager c).Run {} tr s) (hagent : giver.agent = some q.giver)
    (hguid : giver.guid = q.giverRuntimeGuid) (hq : s.registry.quests[q.id]? = some q) (hstate : q.state = .offered)
    (hno : findLive s.registry q.giver q.giverRuntimeGuid playerGuid nowMs = none) {w : World} {t : UInt64}
    (happlies : MayAccept c w q playerGuid) (ht : t < q.expiresAtMs) {u : UInt64} (hu : nowMs ≤ u)
    (hlive : u < q.expiresAtMs) (memories : UInt64 → List MemoryRecord) :
    getDynamicQuestGossipContent (managerStep c s (.accept w q.id playerGuid t)).2 giver playerGuid memories u =
      contentOf .active (q.takenBy playerGuid) := by
  have hregistry : (managerStep c s (.accept w q.id playerGuid t)).2.registry =
      s.registry.put q.id (q.takenBy playerGuid) := by
    simp only [managerStep, accept_click hq hstate happlies, if_pos ht]
  obtain ⟨catalog, hrep⟩ := represents_of_run (hrun.append (run_once c s (.accept w q.id playerGuid t)))
  have hfound : LiveFor (managerStep c s (.accept w q.id playerGuid t)).2.registry q.giver giver.guid playerGuid u
      (q.takenBy playerGuid) := by
    refine ⟨⟨?_, rfl, hguid.symm⟩, rfl, rfl, decide_eq_false (UInt64.not_le.mpr hlive)⟩
    rw [hregistry]
    exact (getElem?_put ..).trans (if_pos rfl)
  have hopen : isDynamicQuestObjectiveComplete (q.takenBy playerGuid) = false := by
    have haccounts := accounts_of_run hrun
    have hwithin := ((haccounts.still_open _ q hq).2.within hrun).required.1
    have hzero := ((haccounts.registry.good _ q hq).offered hstate).2
    refine decide_eq_false ?_
    show ¬ q.requiredCount ≤ q.progress
    rw [hzero]
    exact UInt32.not_le.mpr hwithin
  have hshows := content_shows hrep hagent playerGuid memories u
  generalize getDynamicQuestGossipContent (managerStep c s (.accept w q.id playerGuid t)).2 giver playerGuid memories u =
    content at hshows ⊢
  cases hshows with
  | @active q' hq' =>
    have hsame : q' = q.takenBy playerGuid := by
      have hstored := hq'.given.stored
      rw [hregistry, getElem?_put] at hstored
      split_ifs at hstored with hid
      · exact (Option.some.inj hstored).symm
      · obtain ⟨catalog₀, hrep₀⟩ := represents_of_run hrun
        refine absurd ⟨⟨hstored, hq'.given.giver, hq'.given.guid.trans hguid⟩, hq'.active, hq'.owner, ?_⟩
          (findLive_none (q := q') hrep₀ hno)
        have hlater := of_decide_eq_false hq'.live
        exact decide_eq_false fun h => hlater (UInt64.le_trans h hu)
    rw [hsame, hopen]
    rfl
  | offered _ _ _ hnone => exact absurd hfound (findLive_none hrep hnone)
  | outcome hnone => exact absurd hfound (findLive_none hrep hnone)
  | nothing hnone => exact absurd hfound (findLive_none hrep hnone)

/-! ### The contract -/

end AIWorld.Quest
