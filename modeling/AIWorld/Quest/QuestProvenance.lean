import AIWorld.Quest.QuestFate

/-! Where a quest comes from. A response only names a request, a token and numbers; the
giver, the event, the target and the limits of the quest that it becomes are those that
the server itself recorded when it sent the request or reads when it creates the quest.
No request makes more than one quest. -/

namespace AIWorld.Quest

open Std Lib DynamicQuestRegistry DynamicQuestManager
open Inference (QuestContext QuestProposalDraft QuestTargetCandidate DynamicTaskResponse
  questContractMaxDescriptionLength questContractMaxTitleLength)
open Memory (MemoryRecord RetrievedMemory)

variable {c : Settings} {w w₀ : World} {s s' : DynamicQuestManager} {i : ManagerInput}
  {o : ManagerOutput} {id nowMs : UInt64} {q : DynamicQuestInstance} {tr : Trace}
  {record : GiverRecord} {creature : LiveCreature} {source : MemoryRecord}
  {retrieved : List RetrievedMemory}

/-! ### Targets of a request -/

/-- A creature that the giver saw, as the request found it in the world. -/
structure Seen (w : World) (agent : UInt64) (creature : LiveCreature) (guid : ObjectGuid)
    (entry mapId : UInt32) (memory : MemoryRecord) (target : LiveTarget) : Prop where
  saw : memory.type = .creatureSeen
  found : w.target agent memory.target.guid = some target
  alive : target.alive = true
  not_self : target.isSelf = false
  attackable : target.attackable = true
  same_map : target.mapId = creature.mapId
  same_entry : target.entry = memory.target.entry
  named : guid = target.guid ∧ entry = target.entry ∧ mapId = target.mapId

theorem candidateTarget_seen {agent : UInt64} {memory : MemoryRecord} {target : LiveTarget}
    {age : UInt32} (h : candidateTarget w agent creature nowMs memory = some (target, age)) :
    Seen w agent creature target.guid target.entry target.mapId memory target := by
  unfold candidateTarget at h
  rw [Option.ite_none_left_eq_some, Option.ite_none_left_eq_some] at h
  obtain ⟨hsaw, -, h⟩ := h
  cases hfound : w.target agent memory.target.guid with
  | none => simp [hfound] at h
  | some found =>
    rw [hfound] at h
    dsimp only at h
    generalize (if memory.lastObservedAtMs ≤ nowMs then nowMs - memory.lastObservedAtMs else 0) = observed at h
    simp only [Option.ite_none_left_eq_some, Bool.not_eq_true', Bool.not_eq_false, Bool.not_eq_true,
      ne_eq, not_not] at h
    obtain ⟨halive, hself, hmap, hentry, hattack, -, -, -, h⟩ := h
    cases h
    exact ⟨not_not.mp hsaw, hfound, halive, hself, hattack, hmap, hentry, rfl, rfl, rfl⟩

/-- Every binding of a request is made from one of the memories. -/
theorem collectTargets_bindings {fits : MemoryRecord → Option (LiveTarget × UInt32)}
    {P : QuestTargetBinding → Prop} {memories : List MemoryRecord}
    {candidates : List (QuestTargetCandidate Float32)} {bindings : List QuestTargetBinding} {next : UInt32}
    (hmemories : ∀ memory ∈ memories, ∀ target age token, fits memory = some (target, age) →
      P ⟨token, target.guid, target.entry, target.mapId⟩)
    (hbindings : ∀ binding ∈ bindings, P binding) :
    ∀ binding ∈ (collectTargets fits memories candidates bindings next).2, P binding := by
  induction memories generalizing candidates bindings next with
  | nil => exact hbindings
  | cons memory memories ih =>
    obtain ⟨hmemory, hmemories⟩ := List.forall_mem_cons.mp hmemories
    unfold collectTargets
    split_ifs
    · exact hbindings
    · cases hfits : fits memory with
      | none => exact ih hmemories hbindings
      | some found =>
        apply ih hmemories
        intro binding hbinding
        rcases List.mem_append.mp hbinding with hbinding | hbinding
        · exact hbindings binding hbinding
        · rw [List.mem_singleton.mp hbinding]
          exact hmemory _ _ _ hfits

/-- What a request recorded of its giver, its event and its targets. -/
structure Recorded (c : Settings) (w : World) (record : GiverRecord) (creature : LiveCreature)
    (source : MemoryRecord) (nowMs : UInt64) (provenance : QuestRequestProvenance) : Prop where
  agent : provenance.agent = record.id
  guid : provenance.runtimeGuid = creature.guid
  event : provenance.sourceEventId = source.sourceEventId ∧
    provenance.sourceCorrelationId = source.correlationId ∧
    source.sourceEventType = some provenance.sourceEventType ∧
    provenance.sourceOccurredAtMs = source.sourceOccurredAtMs
  memory : source.owner = record.id ∧ source.type = .worldEvent ∧ source.sourceEventId ≠ 0
  member : record.member = true
  controlled : record.controlMode = .aiWorldControlled
  alive : creature.alive = true
  occurred : source.sourceOccurredAtMs ≤ nowMs
  targets : ∀ binding ∈ provenance.targetBindings, ∃ memory ∈ w.memories record.id, ∃ target,
    Seen w record.id creature binding.guid binding.entry binding.mapId memory target

theorem build_recorded {context : QuestContext Float32} {provenance : QuestRequestProvenance}
    (h : buildDynamicTaskRequest c w record creature source retrieved nowMs = some (context, provenance)) :
    Recorded c w record creature source nowMs provenance := by
  unfold buildDynamicTaskRequest at h
  cases htype : source.sourceEventType with
  | none => simp [htype] at h
  | some type =>
    rw [htype] at h
    dsimp only at h
    simp only [Option.ite_none_left_eq_some, Bool.not_eq_true', Bool.not_eq_false, ne_eq, not_not, not_or,
      UInt64.not_lt] at h
    obtain ⟨hmember, howner, hworld, hevent, htime, -, hmode, halive, -, -, h⟩ := h
    cases h
    refine ⟨rfl, rfl, ⟨rfl, rfl, htype, rfl⟩, ⟨howner, hworld, hevent⟩, hmember, hmode, halive, htime.2, ?_⟩
    exact collectTargets_bindings
      (fun memory hmemory target age token hfits => ⟨memory, hmemory, target, candidateTarget_seen hfits⟩)
      (by simp)

/-! ### Judging a response -/

/-- What a candidate owes to the live world that its response was judged in. -/
structure Judged (c : Settings) (w : World) (pending : PendingDynamicTaskRequest) (requestId agent : UInt64)
    (draft : QuestProposalDraft Float32) (nowMs : UInt64) (candidate : DynamicTaskCandidate)
    (facts : DynamicTaskAuthoritativeFacts) (live : LiveCreature) (target : LiveTarget) : Prop where
  candidate_eq : candidate.provenance = pending.provenance ∧ candidate.draft = draft
  giver : w.creature agent = some live ∧ live.guid = pending.provenance.runtimeGuid
  controlled : ∃ record, w.record agent = some record ∧ record.member = true ∧
    record.controlMode = .aiWorldControlled ∧ record.snapshotSequence = pending.provenance.snapshotSequence
  remembers : ∃ memory ∈ w.memories agent, memory.owner = pending.provenance.agent ∧
    memory.sourceEventId = pending.provenance.sourceEventId ∧
    memory.correlationId = pending.provenance.sourceCorrelationId ∧
    memory.sourceOccurredAtMs = pending.provenance.sourceOccurredAtMs ∧
    memory.sourceEventType = some pending.provenance.sourceEventType
  fresh : pending.submittedAtMs ≤ nowMs ∧ nowMs - pending.submittedAtMs ≤ c.responseMaxAgeMs ∧
    nowMs - pending.provenance.sourceOccurredAtMs ≤ c.sourceMaxAgeMs
  bound : ∃ binding, firstBinding pending.provenance.targetBindings draft.targetToken = some binding ∧
    w.target agent binding.guid = some target ∧ target.entry = binding.entry ∧ target.mapId = binding.mapId
  target_live : target.alive = true ∧ target.isSelf = false ∧ target.attackable = true ∧
    target.mapId = live.mapId
  facts_eq : facts.target = ⟨target.entry, target.mapId, target.distanceYards⟩

theorem acceptance_fresh {pending : PendingDynamicTaskRequest} {draft : QuestProposalDraft Float32}
    {state : DynamicTaskAcceptanceState}
    (h : checkDynamicTaskResponseAcceptance pending draft state = .none) :
    pending.provenance.snapshotSequence = state.currentSnapshotSequence ∧
      pending.submittedAtMs ≤ state.nowMs ∧
      state.nowMs - pending.submittedAtMs ≤ state.responseMaxAgeMs ∧
      state.nowMs - pending.provenance.sourceOccurredAtMs ≤ state.sourceEventMaxAgeMs := by
  unfold checkDynamicTaskResponseAcceptance at h
  rw [left_unless (by decide), left_unless (by decide), left_unless (by decide), left_unless (by decide),
    left_unless (by decide)] at h
  obtain ⟨hsequence, -, -, hsource, hage, -⟩ := h
  simp only [Bool.or_eq_true, decide_eq_true_eq, not_or, UInt64.not_lt] at hsource hage
  exact ⟨not_not.mp hsequence, hage.1, hage.2, hsource.2⟩

theorem sourceMemory_spec {memories : List MemoryRecord} {provenance : QuestRequestProvenance}
    {memory : MemoryRecord} (h : sourceMemory memories provenance = some memory) :
    memory ∈ memories ∧ memory.owner = provenance.agent ∧
      memory.sourceEventId = provenance.sourceEventId ∧
      memory.correlationId = provenance.sourceCorrelationId ∧
      memory.sourceOccurredAtMs = provenance.sourceOccurredAtMs ∧
      memory.sourceEventType = some provenance.sourceEventType := by
  have hfound := List.find?_some h
  exact ⟨List.mem_of_find?_eq_some h, of_decide_eq_true hfound⟩

theorem judgeResponse_spec {pending : PendingDynamicTaskRequest} {requestId agent : UInt64}
    {draft : QuestProposalDraft Float32} {candidate : DynamicTaskCandidate}
    {facts : DynamicTaskAuthoritativeFacts}
    (h : judgeResponse c w pending requestId agent draft nowMs = some (candidate, facts)) :
    ∃ live target, Judged c w pending requestId agent draft nowMs candidate facts live target := by
  unfold judgeResponse at h
  cases hrecord : w.record agent with
  | none => simp [hrecord] at h
  | some found =>
    simp only [hrecord] at h
    split_ifs at h with hoff
    cases hcreature : w.creature agent with
    | none => simp [hcreature] at h
    | some live =>
      simp only [hcreature] at h
      split_ifs at h with hguid haccept
      obtain ⟨hsequence, hage⟩ := acceptance_fresh (not_not.mp haccept)
      split at h
      next binding memory hbinding hmemory =>
        split at h
        next target type htarget htype =>
          split_ifs at h with hlive
          cases h
          simp only [Bool.or_eq_true, Bool.not_eq_true', decide_eq_true_eq, not_or, not_not,
            Bool.not_eq_false, Bool.not_eq_true] at hlive hoff hguid
          obtain ⟨⟨⟨⟨⟨halive, hentry⟩, hmap⟩, hgivermap⟩, hself⟩, hattack⟩ := hlive
          exact ⟨live, target, ⟨rfl, rfl⟩, ⟨hcreature, hguid.2⟩,
            ⟨found, hrecord, hoff.1.1.2, hoff.2, hsequence.symm⟩,
            ⟨memory, (sourceMemory_spec hmemory).1, (sourceMemory_spec hmemory).2⟩, hage,
            ⟨binding, hbinding, htarget, hentry, hmap⟩, ⟨halive, hself, hattack, hgivermap⟩, rfl⟩
        next => simp at h
      next => simp at h

/-! ### Validation -/

/-- Text without control characters and without the character that opens the client's own markup. -/
def Plain (text : String) : Prop := ∀ ch ∈ text.toList, 0x20 ≤ ch.toNat ∧ ch.toNat ≠ 0x7F ∧ ch ≠ '|'

/-- What the server allows of a quest, whatever the response asks for. -/
structure Within (limits : DynamicTaskAuthoritativeLimits) (q : DynamicQuestInstance) : Prop where
  objective : q.objective = .killCreature
  required : 0 < q.requiredCount ∧ q.requiredCount ≤ limits.maxRequiredCount
  reward : q.rewardMoneyCopper ≤ limits.maxRewardMoneyCopper
  expiry : ∃ expiryMs, 0 < expiryMs ∧ expiryMs ≤ limits.maxExpiryMs ∧
    q.expiresAtMs = saturatingAddMs q.createdAtMs expiryMs
  title : 0 < q.title.length ∧ q.title.length ≤ questContractMaxTitleLength ∧ Plain q.title
  description : 0 < q.description.length ∧ q.description.length ≤ questContractMaxDescriptionLength ∧
    Plain q.description

theorem plain_textOf {text : Lib.Json.Bytes} {maxLength : ℕ} (h : isValidProposalText text maxLength = true) :
    0 < (textOf text).length ∧ (textOf text).length ≤ maxLength ∧ Plain (textOf text) := by
  unfold isValidProposalText at h
  split_ifs at h with hlength
  simp only [Bool.or_eq_true, List.isEmpty_iff, decide_eq_true_eq, not_or, Nat.not_lt] at hlength
  have hlist : (textOf text).toList = text.map fun b => Char.ofNat b.toNat := String.toList_ofList
  have hsize : (textOf text).length = text.length := by
    rw [← String.length_toList, hlist, List.length_map]
  refine ⟨?_, ?_, fun ch hch => ?_⟩
  · rw [hsize]
    exact List.length_pos_iff.mpr hlength.1
  · rw [hsize]
    exact hlength.2
  · rw [hlist, List.mem_map] at hch
    obtain ⟨b, hb, rfl⟩ := hch
    have hbyte := List.all_eq_true.mp h b hb
    have hsmall := b.toNat_lt
    have hvalid : b.toNat.isValidChar := .inl (by omega)
    have hnat : (Char.ofNat b.toNat).toNat = b.toNat := by
      rw [Char.toNat_ofNat, if_pos hvalid]
    simp only [Bool.not_eq_true', Bool.or_eq_false_iff, decide_eq_false_iff_not, UInt8.lt_iff_toNat_lt] at hbyte
    obtain ⟨⟨hcontrol, hdelete⟩, hpipe⟩ := hbyte
    refine ⟨?_, ?_, ?_⟩
    · rw [hnat]
      exact Nat.not_lt.mp hcontrol
    · rw [hnat]
      exact fun heq => hdelete (UInt8.toNat_inj.mp heq)
    · intro heq
      have hcode := congrArg Char.toNat heq
      rw [hnat] at hcode
      exact hpipe (UInt8.toNat_inj.mp hcode)

theorem findBinding_found {token : UInt32} {bindings : List QuestTargetBinding}
    {found : Option QuestTargetBinding} {binding : QuestTargetBinding} {ambiguous : Bool}
    (h : findBinding token bindings found = (some binding, ambiguous)) :
    (found = some binding ∧ ∀ b ∈ bindings, b.token ≠ token) ∨
      found = none ∧ firstBinding bindings token = some binding := by
  induction bindings generalizing found with
  | nil =>
    cases h
    exact .inl ⟨rfl, by simp⟩
  | cons head bindings ih =>
    unfold findBinding at h
    split_ifs at h with hne hfound
    · rcases ih h with ⟨hsome, hrest⟩ | ⟨hnone, hfirst⟩
      · exact .inl ⟨hsome, List.forall_mem_cons.mpr ⟨hne, hrest⟩⟩
      · refine .inr ⟨hnone, ?_⟩
        rwa [firstBinding, List.find?_cons_of_neg (by simpa using hne)]
    · cases h
    · have hnone : found = none := by simpa using hfound
      rcases ih h with ⟨hsome, -⟩ | ⟨hcontra, -⟩
      · refine .inr ⟨hnone, ?_⟩
        rw [firstBinding, List.find?_cons_of_pos (by simpa using hne)]
        exact hsome
      · contradiction

/-- What a validated proposal takes from its candidate, and what is checked of the rest. -/
structure Validated (candidate : DynamicTaskCandidate) (limits : DynamicTaskAuthoritativeLimits)
    (facts : DynamicTaskAuthoritativeFacts) (proposal : ValidatedProposal) : Prop where
  giver : proposal.giver = candidate.provenance.agent ∧
    proposal.giverRuntimeGuid = candidate.provenance.runtimeGuid
  event : proposal.sourceEventId = candidate.provenance.sourceEventId ∧
    proposal.sourceCorrelationId = candidate.provenance.sourceCorrelationId ∧
    proposal.sourceEventType = candidate.provenance.sourceEventType
  target : ∃ binding,
    firstBinding candidate.provenance.targetBindings candidate.draft.targetToken = some binding ∧
    proposal.targetGuid = binding.guid ∧ proposal.targetEntry = binding.entry ∧
    proposal.targetMapId = binding.mapId
  range : ¬ proposal.maxRangeYards < facts.target.giverToTargetDistanceYards ∧
    ¬ limits.maxRangeYards < proposal.maxRangeYards
  within : ∀ (id nowMs : UInt64) (location : WorldEventLocation) (q : DynamicQuestInstance),
    offerDynamicQuest id proposal.toQuestProposal location nowMs = accepted q → Within limits q

theorem validate_spec {candidate : DynamicTaskCandidate} {limits : DynamicTaskAuthoritativeLimits}
    {facts : DynamicTaskAuthoritativeFacts} {proposal : ValidatedProposal}
    (h : validateDynamicTaskCandidate candidate limits facts = (.none, some proposal)) :
    Validated candidate limits facts proposal := by
  unfold validateDynamicTaskCandidate at h
  dsimp only at h
  rw [left_unless (by simp), left_unless (by simp)] at h
  obtain ⟨hobjective, -, h⟩ := h
  split at h
  next => simp at h
  next binding ambiguous hbinding =>
    rw [left_unless (by simp), left_unless (by simp), left_unless (by simp), left_unless (by simp),
      left_unless (by simp), left_unless (by simp), left_unless (by simp)] at h
    obtain ⟨hmatch, hcount, hrange, hexpiry, hreward, htext, hdistance, h⟩ := h
    have hfirst : firstBinding candidate.provenance.targetBindings candidate.draft.targetToken = some binding := by
      rcases findBinding_found hbinding with ⟨hsome, -⟩ | ⟨-, hfirst⟩
      · cases hsome
      · exact hfirst
    simp only [not_or, not_not, Bool.or_eq_true, Bool.not_eq_true', Bool.not_eq_false, decide_eq_true_eq,
      UInt32.not_lt] at hmatch hcount hrange hexpiry hreward htext hdistance
    cases h
    refine ⟨⟨rfl, rfl⟩, ⟨rfl, rfl, rfl⟩, ⟨binding, hfirst, rfl, hmatch.1.symm, hmatch.2.symm⟩,
      ⟨hdistance.2, hrange.2⟩, fun id nowMs location q hq => ?_⟩
    unfold offerDynamicQuest at hq
    split_ifs at hq <;> cases hq
    exact ⟨not_not.mp hobjective, ⟨UInt32.pos_iff_ne_zero.mpr hcount.1, hcount.2⟩, hreward,
      ⟨_, UInt32.pos_iff_ne_zero.mpr hexpiry.1, hexpiry.2, rfl⟩, plain_textOf htext.1, plain_textOf htext.2⟩

/-! ### Requests of a run -/

/-- A call that answers one request of one agent. -/
def ManagerInput.Answers (requestId agent : UInt64) : ManagerInput → Prop
  | .respond _ named namedAgent _ _ _ _ => named = requestId ∧ namedAgent = agent
  | _ => False

/-- The call that sent a request. -/
structure Sends (c : Settings) (e : Event DynamicQuestManager ManagerInput ManagerOutput) (w : World)
    (record : GiverRecord) (creature : LiveCreature) (source : MemoryRecord)
    (retrieved : List RetrievedMemory) (pending : PendingDynamicTaskRequest) : Prop where
  input : e.input = .submit w record creature source retrieved pending.submittedAtMs pending.requestId
  submitted : e.output.submitted = true
  built : buildDynamicTaskRequest c w record creature source retrieved pending.submittedAtMs =
    some (pending.context, pending.provenance)

/-- A request that was sent in a run and has not been answered since. -/
def Asked (c : Settings) (tr : Trace) (agent : UInt64) (pending : PendingDynamicTaskRequest) : Prop :=
  ∃ tr₁ e tr₂ w record creature source retrieved, tr = tr₁ ++ e :: tr₂ ∧
    Sends c e w record creature source retrieved pending ∧ record.id = agent ∧
    ∀ e' ∈ tr₂, ¬ e'.input.Answers pending.requestId agent

theorem pending_step {agent : UInt64} {pending : PendingDynamicTaskRequest}
    (h : (managerStep c s i).2.pending[agent]? = some pending) :
    (∃ w record creature source retrieved,
      Sends c (callEvent c s i) w record creature source retrieved pending ∧
        record.id = agent) ∨
      s.pending[agent]? = some pending ∧ ¬ i.Answers pending.requestId agent := by
  cases i with
  | submit w record creature source retrieved nowMs requestId =>
    rcases submit_cases c w s record creature source retrieved nowMs requestId with
      hr | ⟨context, provenance, -, -, hbuild, hr⟩
    · simp only [managerStep, hr] at h
      exact .inr ⟨h, not_false⟩
    · simp only [managerStep, hr, OrdMap.getElem?_insert] at h
      split_ifs at h with hagent
      · cases h
        exact .inl ⟨w, record, creature, source, retrieved, ⟨rfl, by simp [managerStep, hr], hbuild⟩, hagent⟩
      · exact .inr ⟨h, not_false⟩
  | respond w requestId responder success response nowMs offerMs =>
    right
    have hcases := respond_cases c w s requestId responder success response nowMs offerMs
    simp only [managerStep] at h
    generalize handleDynamicTaskResponse c w s requestId responder success response nowMs offerMs = res
      at hcases h
    obtain ⟨created, s'⟩ := res
    dsimp only at hcases h
    have herase {old : PendingDynamicTaskRequest} (hold : s.pending[responder]? = some old)
        (h : (s.pending.erase responder)[agent]? = some pending) :
        s.pending[agent]? = some pending ∧
          ¬ (ManagerInput.respond w requestId responder success response nowMs offerMs).Answers
            pending.requestId agent := by
      rw [OrdMap.getElem?_erase] at h
      split_ifs at h with hagent
      exact ⟨h, fun hanswers => hagent hanswers.2⟩
    cases hcases with
    | ignored hno =>
      refine ⟨h, ?_⟩
      rintro ⟨hnamed, rfl⟩
      exact hno pending h hnamed.symm
    | refused hpending => exact herase hpending h
    | created hpending _ _ _ _ hcreates =>
      cases hcreates with
      | offered => exact herase hpending h
  | accept w id playerGuid nowMs =>
    rcases accept_cases c w s id playerGuid nowMs with ⟨reason, -, hr⟩ | ⟨q, q', -, -, hr⟩ <;>
    · simp only [managerStep, hr] at h
      exact .inr ⟨h, not_false⟩
  | complete w id playerGuid grant revert nowMs =>
    have hcases := complete_cases c w s id playerGuid grant revert nowMs
    simp only [managerStep] at h
    generalize completeDynamicQuestForPlayer c w s id playerGuid grant revert nowMs = turnIn at hcases h
    cases hcases <;> exact .inr ⟨h, not_false⟩
  | maintain w nowMs =>
    refine .inr ⟨?_, not_false⟩
    rw [← (discover_spec c s).2.2.2.1]
    exact h
  | kill event => exact .inr ⟨h, not_false⟩
  | drain nowMs => exact .inr ⟨h, not_false⟩
  | reclaim w nowMs =>
    refine .inr ⟨?_, not_false⟩
    simp only [managerStep, reclaimDynamicQuestsAfterKillCreditLoss] at h
    split_ifs at h <;> exact h

theorem asked_of_run (hrun : (manager c).Run {} tr s) :
    ∀ (agent : UInt64) (pending : PendingDynamicTaskRequest),
      s.pending[agent]? = some pending → Asked c tr agent pending := by
  refine hrun.history (P := fun tr s => ∀ (agent : UInt64) (pending : PendingDynamicTaskRequest),
    s.pending[agent]? = some pending → Asked c tr agent pending)
    (fun tr s i o s' ih hstep agent pending hpending => ?_) (by simp)
  obtain ⟨rfl, rfl⟩ := manager_step hstep
  rcases pending_step hpending with ⟨w, record, creature, source, retrieved, hsends, hagent⟩ | ⟨hold, hanswers⟩
  · exact ⟨tr, _, [], w, record, creature, source, retrieved, rfl, hsends, hagent, by simp⟩
  · obtain ⟨tr₁, e, tr₂, w, record, creature, source, retrieved, rfl, hsends, hagent, hunanswered⟩ :=
      ih agent pending hold
    refine ⟨tr₁, e, tr₂ ++ [callEvent c s i], w, record, creature, source,
      retrieved, by simp, hsends, hagent, ?_⟩
    intro e' he'
    rcases List.mem_append.mp he' with he' | he'
    · exact hunanswered e' he'
    · rw [List.mem_singleton.mp he']
      exact hanswers

/-! ### Provenance -/

/-- What a quest owes to the call that sent its request, in the world `w₀`, and to the call that
answered it, in the world `w`. -/
structure Provenance (c : Settings) (w₀ : World) (record : GiverRecord) (creature : LiveCreature)
    (source : MemoryRecord) (sentMs : UInt64) (w : World) (nowMs : UInt64) (q : DynamicQuestInstance) :
    Prop where
  giver : q.giver = record.id ∧ q.giverRuntimeGuid = creature.guid ∧ record.member = true ∧
    record.controlMode = .aiWorldControlled ∧ creature.alive = true
  event : q.sourceEventId = source.sourceEventId ∧ q.sourceCorrelationId = source.correlationId ∧
    source.sourceEventType = some q.sourceEventType
  memory : source.owner = record.id ∧ source.type = .worldEvent ∧ source.sourceEventId ≠ 0
  remembered : ∃ memory ∈ w.memories record.id, memory.owner = record.id ∧
    memory.sourceEventId = source.sourceEventId ∧ memory.correlationId = source.correlationId ∧
    memory.sourceOccurredAtMs = source.sourceOccurredAtMs ∧ memory.sourceEventType = source.sourceEventType
  fresh : sentMs ≤ nowMs ∧ nowMs - sentMs ≤ c.responseMaxAgeMs ∧
    nowMs - source.sourceOccurredAtMs ≤ c.sourceMaxAgeMs
  target : ∃ memory ∈ w₀.memories record.id, ∃ target,
    Seen w₀ record.id creature q.targetGuid q.targetEntry q.targetMapId memory target
  live : ∃ giver target, w.creature record.id = some giver ∧ giver.guid = q.giverRuntimeGuid ∧
    w.target record.id q.targetGuid = some target ∧ target.entry = q.targetEntry ∧
    target.mapId = q.targetMapId ∧ target.mapId = giver.mapId ∧ target.alive = true ∧
    target.isSelf = false ∧ target.attackable = true ∧
    ∃ range : Float32, ¬ range < target.distanceYards ∧ ¬ c.limits.maxRangeYards < range
  within : Within c.limits q

theorem provenance_of_checks {pending : PendingDynamicTaskRequest} {requestId : UInt64}
    {draft : QuestProposalDraft Float32} {candidate : DynamicTaskCandidate}
    {facts : DynamicTaskAuthoritativeFacts} {proposal : ValidatedProposal} {live : LiveCreature}
    {target : LiveTarget} {location : WorldEventLocation} {offerMs : UInt64}
    (hrecorded : Recorded c w₀ record creature source pending.submittedAtMs pending.provenance)
    (hjudged : Judged c w pending requestId record.id draft nowMs candidate facts live target)
    (hvalid : Validated candidate c.limits facts proposal)
    (hq : offerDynamicQuest id proposal.toQuestProposal location offerMs = accepted q) :
    Provenance c w₀ record creature source pending.submittedAtMs w nowMs q := by
  have hwithin := hvalid.within id offerMs location q hq
  obtain ⟨hagent, hguid, ⟨hevent, hcorrelation, htype, hoccurred⟩, hmemory, hmember, hmode, halive, -, htargets⟩ :=
    hrecorded
  obtain ⟨⟨hprovenance, hdraft⟩, ⟨hlive, hliveguid⟩, -, hremembers, hfresh, ⟨binding, hbinding, hfound, hentry, hmap⟩,
    ⟨htargetalive, hself, hattack, hsame⟩, hfacts⟩ := hjudged
  obtain ⟨⟨hgiver, hgiverguid⟩, ⟨hsource, hcorr, hsourcetype⟩, ⟨binding', hbinding', hbguid, hbentry, hbmap⟩,
    ⟨hrange, hmax⟩, -⟩ := hvalid
  rw [hprovenance, hdraft, hbinding, Option.some.injEq] at hbinding'
  subst hbinding'
  rw [hprovenance] at hgiver hgiverguid hsource hcorr hsourcetype
  rw [hfacts] at hrange
  unfold offerDynamicQuest at hq
  split_ifs at hq <;> cases hq
  refine ⟨⟨hgiver.trans hagent, hgiverguid.trans hguid, hmember, hmode, halive⟩,
    ⟨hsource.trans hevent, hcorr.trans hcorrelation, ?_⟩, hmemory, ?_, ⟨hfresh.1, hfresh.2.1, ?_⟩, ?_, ?_, hwithin⟩
  · rw [htype]
    exact congrArg some hsourcetype.symm
  · rwa [hagent, hevent, hcorrelation, hoccurred, ← htype] at hremembers
  · rw [← hoccurred]
    exact hfresh.2.2
  · obtain ⟨memory, hmem, seen, hseen⟩ := htargets binding (List.mem_of_find?_eq_some hbinding)
    refine ⟨memory, hmem, seen, { hseen with named := ?_ }⟩
    obtain ⟨hguid, hentry, hmap⟩ := hseen.named
    exact ⟨hbguid.trans hguid, hbentry.trans hentry, hbmap.trans hmap⟩
  · refine ⟨live, target, hlive, hliveguid.trans hgiverguid.symm, ?_, hentry.trans hbentry.symm,
      hmap.trans hbmap.symm, hsame, htargetalive, hself, hattack, _, hrange, hmax⟩
    rw [← hfound]
    exact congrArg _ hbguid

end AIWorld.Quest
