import AIWorld.AiServer.DynamicTask

/-! The AI server and the game server about answers to dynamic tasks. The AI server counts the characters of
texts and the game server their bytes, and a range is a double for one and a float for the other; where both
measures are kept, the game server reads what was answered. -/

namespace AIWorld.AiServer

open Lib.Json
open Lib.Python hiding Value
open Inference (FloatConversion IsWritten integerMember numberMember objectMember wordMember)
open DynamicTask

variable {D F : Type} {runtime : Runtime D} {config : ModelProviderConfig} {conversion : FloatConversion D F}

/-! ### Steps of the endpoint -/

/-- A request that is received has the version of the server. -/
theorem receiveTask_version {chunks : List Bytes} {request : DynamicTaskRequest runtime.floats}
    (h : receiveTask runtime config chunks = .ok request) :
    request.protocolVersion.1 = currentDynamicTaskProtocolVersion := by
  unfold receiveTask at h
  split at h
  · contradiction
  split at h
  · contradiction
  · contradiction
  rename_i payload _
  split_ifs at h with hversion
  rw [Bool.not_eq_true', Bool.not_eq_false] at hversion
  split at h
  · contradiction
  rename_i request' hrequest
  cases h
  simp only [DynamicTaskRequest.modelValidate, Option.bind_eq_bind, Option.bind_eq_some_iff, field] at hrequest
  obtain ⟨members, hmembers, version, ⟨value, hvalue, hstrict⟩, _, -, _, -, hrequest⟩ := hrequest
  cases hrequest
  obtain rfl := dict_of_model hmembers
  rw [member, hvalue, Option.any_some] at hversion
  obtain ⟨n, rfl, hn⟩ := int_of_strictInt hstrict
  have hone : n = (currentDynamicTaskProtocolVersion : ℤ) := of_decide_eq_true hversion
  exact Int.ofNat_inj.mp (hn.trans hone)

theorem dynamicTask_ok {backend : QuestContext runtime.floats → Except HttpxError ProviderAnswer} {chunks : List Bytes}
    {response : DynamicTaskResponse runtime.floats} (h : dynamicTask runtime config backend chunks = .ok response) :
    ∃ request draft, receiveTask runtime config chunks = .ok request ∧
      generate runtime config (backend request.context) = .ok draft ∧
      response = ⟨currentDynamicTaskProtocolVersion, request.requestId, request.context.agentId,
        request.context.snapshotSequence, draft⟩ := by
  unfold dynamicTask at h
  cases hrequest : receiveTask runtime config chunks with
  | error error =>
    rw [hrequest] at h
    contradiction
  | ok request =>
    rw [hrequest] at h
    change (if _ then _ else _) = _ at h
    split_ifs at h
    split at h
    · contradiction
    rename_i draft hdraft
    split at h
    · contradiction
    cases h
    exact ⟨request, draft, rfl, hdraft, rfl⟩

/-! ### The body is a text of the grammar -/

theorem encodeCodepoint_control {n : ℕ} (h : n < 0x20) : Inference.encodeCodepoint n = [n.toUInt8] := by
  rw [Inference.encodeCodepoint, if_pos (by omega)]

theorem isWritten_dumped {levels : ℕ} {key : String} (hkey : ∀ c ∈ ascii key, IsPlain c) {text : List ℕ}
    (htext : ∀ c ∈ text, Lib.Utf8.IsScalar c) : IsWritten (levels + 1) (dumpedMember key text) :=
  ⟨hkey, isString_dumps (fun _ => encodeCodepoint_control) htext⟩

/-- Printing and reading a float: what is printed is a number of JSON, is read as the same float if it is read at
all, and is read unless it is too small for a float of the game server. -/
structure ExactFloats (runtime : Runtime D) (conversion : FloatConversion D F) : Prop where
  isNumber : ∀ d, runtime.floats.isFinite d = true → IsNumber (runtime.repr d)
  isFinite : ∀ d, conversion.isFinite d = runtime.floats.isFinite d
  exact : ∀ d e consumed, runtime.floats.isFinite d = true → conversion.stod (runtime.repr d) = some (e, consumed) →
    e = d ∧ consumed = (runtime.repr d).length
  reads : ∀ d, runtime.floats.isFinite d = true → conversion.isPositive (conversion.narrow d) = true →
    conversion.stod (runtime.repr d) = some (d, (runtime.repr d).length)

theorem nodup_draft (draft : QuestProposalDraft runtime.floats) :
    ((draftFields runtime draft).map Field.key).Nodup := by
  change (["objective", "target_token", "required_count", "max_range_yards", "expiry_ms", "reward_money_copper", "title",
    "description"].map ascii).Nodup
  decide

theorem nodup_task (response : DynamicTaskResponse runtime.floats) :
    ((taskFields runtime response).map Field.key).Nodup := by
  change (["protocol_version", "request_id", "agent_id", "snapshot_sequence", "proposal"].map ascii).Nodup
  decide

section Grammar
variable (hexact : ExactFloats runtime conversion)
include hexact

theorem isWritten_draft {levels : ℕ} (draft : QuestProposalDraft runtime.floats) :
    ∀ field ∈ draftFields runtime draft, IsWritten (levels + 1) field := by
  have hrange := hexact.isNumber _ draft.maxRangeYards.2.1
  simp only [draftFields, List.forall_mem_cons]
  refine ⟨?_, Inference.isWritten_integer (by decide) _, Inference.isWritten_integer (by decide) _,
    Inference.isWritten_number (by decide) hrange, Inference.isWritten_integer (by decide) _,
    Inference.isWritten_integer (by decide) _, isWritten_dumped (by decide) draft.title.2.1,
    isWritten_dumped (by decide) draft.description.2.1, by simp⟩
  cases draft.objective
  exact Inference.isWritten_word (by decide) (by decide)

theorem isText_body (response : DynamicTaskResponse runtime.floats) :
    IsText Inference.encodeCodepoint (Inference.maxDepth + 1) (response.body runtime)
      (.object ((taskFields runtime response).map Field.member)) := by
  refine ⟨[], _, [], by simp [DynamicTaskResponse.body], white_nil, white_nil,
    Inference.spells_fields (nodup_task response) ?_⟩
  simp only [taskFields, List.forall_mem_cons]
  exact ⟨Inference.isWritten_integer (by decide) _, Inference.isWritten_integer (by decide) _,
    Inference.isWritten_integer (by decide) _, Inference.isWritten_integer (by decide) _,
    Inference.isWritten_object (by decide) (nodup_draft _) (isWritten_draft hexact response.proposal), by simp⟩

end Grammar

/-! ### What the game server reads -/

/-- What is read has the version and the identifiers of the request and the integers and texts of the draft. -/
structure Answers (parsed : Inference.DynamicTaskResponse F) (request : DynamicTaskRequest runtime.floats)
    (draft : QuestProposalDraft runtime.floats) : Prop where
  version : parsed.version.toNat = request.protocolVersion.1
  requestId : parsed.requestId.toNat = request.requestId.1
  agent : parsed.agent.toNat = request.context.agentId.1
  snapshotSequence : parsed.snapshotSequence.toNat = request.context.snapshotSequence.1
  objective : parsed.proposal.objective = .killCreature
  targetToken : parsed.proposal.targetToken.toNat = draft.targetToken.1
  requiredCount : parsed.proposal.requiredCount.toNat = draft.requiredCount.1
  expiryMs : parsed.proposal.expiryMs.toNat = draft.expiryMs.1
  rewardMoneyCopper : parsed.proposal.rewardMoneyCopper.toNat = draft.rewardMoneyCopper.1
  title : parsed.proposal.title = Lib.Utf8.encodeAll draft.title.1
  description : parsed.proposal.description = Lib.Utf8.encodeAll draft.description.1

def IsReadable (conversion : FloatConversion D F) (request : DynamicTaskRequest runtime.floats)
    (draft : QuestProposalDraft runtime.floats) (body : Bytes) : Prop :=
  ∃ parsed, (∀ blank, Inference.parseDynamicTaskResponse conversion body blank = (true, parsed)) ∧
    Answers parsed request draft

/-- The texts are short enough in bytes, and the range is a positive float. -/
structure FitsGameServer (conversion : FloatConversion D F) (draft : QuestProposalDraft runtime.floats) : Prop where
  title : (Lib.Utf8.encodeAll draft.title.1).length ≤ Inference.questContractMaxTitleLength
  description : (Lib.Utf8.encodeAll draft.description.1).length ≤ Inference.questContractMaxDescriptionLength
  inFloatRange : conversion.inFloatRange draft.maxRangeYards.1 = true
  isFiniteFloat : conversion.isFiniteFloat (conversion.narrow draft.maxRangeYards.1) = true
  isPositive : conversion.isPositive (conversion.narrow draft.maxRangeYards.1) = true

/-- A positive float is read from a range exactly if the range narrows to it. -/
theorem convert_repr_iff (hexact : ExactFloats runtime conversion) {d : D} (hd : runtime.floats.isFinite d = true)
    {f : F} : conversion.convert (runtime.repr d) = some f ∧ conversion.isPositive f = true ↔
      f = conversion.narrow d ∧ conversion.inFloatRange d = true ∧
        conversion.isFiniteFloat (conversion.narrow d) = true ∧ conversion.isPositive (conversion.narrow d) = true := by
  simp only [FloatConversion.convert, Option.bind_eq_bind, Option.bind_eq_some_iff]
  constructor
  · rintro ⟨⟨⟨e, consumed⟩, hstod, hf⟩, hpositive⟩
    obtain ⟨rfl, rfl⟩ := hexact.exact d e consumed hd hstod
    simp only [Option.ite_none_left_eq_some, Option.some.injEq, Bool.not_eq_true', Bool.not_eq_false] at hf
    obtain ⟨-, hrange, hfinite, rfl⟩ := hf
    exact ⟨rfl, hrange, hfinite, hpositive⟩
  · rintro ⟨rfl, hrange, hfinite, hpositive⟩
    refine ⟨⟨_, hexact.reads d hd hpositive, ?_⟩, hpositive⟩
    have hread : conversion.isFinite d = true := by rw [hexact.isFinite, hd]
    simp [hread, hrange, hfinite]

theorem toNat_uint32 {low : ℕ} (n : Ranged low uint32Max) : n.1.toUInt32.toNat = n.1 := by
  have hle : n.1 ≤ 2 ^ 32 - 1 := n.2.2
  refine UInt32.toNat_ofNat_of_lt' ?_
  change n.1 < 2 ^ 32
  omega

theorem toNat_uint64 (n : UInt64Field) : n.1.toUInt64.toNat = n.1 := by
  have hle : n.1 ≤ 2 ^ 64 - 1 := n.2.2
  refine UInt64.toNat_ofNat_of_lt' ?_
  change n.1 < 2 ^ 64
  omega

/-- The value of a member, by its key. -/
theorem value_of_mem {fields : List Field} (hkeys : (fields.map Field.key).Nodup) (field : Field)
    (hfield : field ∈ fields) {v : Value} (h : (field.key, v) ∈ fields.map Field.member) : v = field.value := by
  obtain ⟨other, hother, heq⟩ := List.mem_map.mp h
  have hkey : other.key = field.key := congrArg Prod.fst heq
  cases List.inj_on_of_nodup_map hkeys hother hfield hkey
  exact (congrArg Prod.snd heq).symm

section Reading
variable {request : DynamicTaskRequest runtime.floats} {draft : QuestProposalDraft runtime.floats}

/-- What is read from an answer that the game server can read. -/
def readProposal (conversion : FloatConversion D F) (draft : QuestProposalDraft runtime.floats) :
    Inference.QuestProposalDraft F where
  objective := .killCreature
  targetToken := draft.targetToken.1.toUInt32
  requiredCount := draft.requiredCount.1.toUInt32
  maxRangeYards := conversion.narrow draft.maxRangeYards.1
  expiryMs := draft.expiryMs.1.toUInt32
  rewardMoneyCopper := draft.rewardMoneyCopper.1.toUInt32
  title := Lib.Utf8.encodeAll draft.title.1
  description := Lib.Utf8.encodeAll draft.description.1

theorem ne_zero_of_positive (n : Ranged 1 uint32Max) : n.1.toUInt32 ≠ 0 := by
  intro hzero
  have hpos := n.2.1
  have hnat := toNat_uint32 n
  rw [hzero] at hnat
  change 0 = n.1 at hnat
  omega

variable (hexact : ExactFloats runtime conversion)
include hexact

theorem isProposal_of_fits (hfits : FitsGameServer conversion draft) :
    Inference.IsProposal conversion ((draftFields runtime draft).map Field.member) (readProposal conversion draft) := by
  obtain ⟨hconvert, hpositive⟩ := (convert_repr_iff hexact draft.maxRangeYards.2.1).mpr
    ⟨rfl, hfits.inFloatRange, hfits.isFiniteFloat, hfits.isPositive⟩
  have hmem (field : Field) (h : field ∈ draftFields runtime draft) :
      field.member ∈ (draftFields runtime draft).map Field.member := List.mem_map_of_mem h
  have hinteger {key : String} {low : ℕ} (n : Ranged low uint32Max)
      (h : integerMember key n.1 ∈ draftFields runtime draft) :
      (ascii key, Value.number (decimal n.1.toUInt32.toNat)) ∈ (draftFields runtime draft).map Field.member := by
    rw [toNat_uint32]
    exact hmem _ h
  refine ⟨.refl _, ⟨?_, rfl⟩, hinteger _ (by simp [draftFields]), hinteger _ (by simp [draftFields]),
    ne_zero_of_positive _, ⟨_, hmem (numberMember "max_range_yards" (runtime.repr draft.maxRangeYards.1))
      (by simp [draftFields]), hconvert, hpositive⟩, hinteger _ (by simp [draftFields]), ne_zero_of_positive _,
    hinteger _ (by simp [draftFields]),
    ⟨hmem (dumpedMember "title" draft.title.1) (by simp [draftFields]), hfits.title⟩,
    ⟨hmem (dumpedMember "description" draft.description.1) (by simp [draftFields]), hfits.description⟩⟩
  have hobjective := hmem (wordMember "objective" (ascii draft.objective.name)) (by simp [draftFields])
  cases hkind : draft.objective
  rw [hkind] at hobjective
  exact hobjective

theorem fits_of_isProposal {proposal : Inference.QuestProposalDraft F}
    (h : Inference.IsProposal conversion ((draftFields runtime draft).map Field.member) proposal) :
    FitsGameServer conversion draft := by
  obtain ⟨text, htext, hconvert, hpositive⟩ := h.maxRangeYards
  have hrange := value_of_mem (nodup_draft draft)
    (numberMember "max_range_yards" (runtime.repr draft.maxRangeYards.1)) (by simp [draftFields]) htext
  cases hrange
  obtain ⟨-, hinRange, hfinite, hnarrow⟩ :=
    (convert_repr_iff hexact draft.maxRangeYards.2.1).mp ⟨hconvert, hpositive⟩
  have htitle := value_of_mem (nodup_draft draft) (dumpedMember "title" draft.title.1) (by simp [draftFields])
    h.title.1
  have hdescription := value_of_mem (nodup_draft draft) (dumpedMember "description" draft.description.1)
    (by simp [draftFields]) h.description.1
  refine ⟨?_, ?_, hinRange, hfinite, hnarrow⟩
  · rw [← Value.string.inj htitle]
    exact h.title.2
  · rw [← Value.string.inj hdescription]
    exact h.description.2

end Reading

/-! ### Agreement -/

theorem accepted_iff {json : Bytes} {parsed : Inference.DynamicTaskResponse F} :
    (∀ blank, Inference.parseDynamicTaskResponse conversion json blank = (true, parsed)) ↔
      Inference.readDynamicTaskResponse conversion json = some parsed := by
  unfold Inference.parseDynamicTaskResponse
  constructor
  · intro h
    have hparsed := h parsed
    cases hread : Inference.readDynamicTaskResponse conversion json with
    | none =>
      rw [hread] at hparsed
      exact absurd (congrArg Prod.fst hparsed) Bool.false_ne_true
    | some read =>
      rw [hread] at hparsed
      exact congrArg some (Prod.mk.inj hparsed).2
  · intro h blank
    rw [h]

/-- What is read from an answer that fits. -/
def readResponse (conversion : FloatConversion D F) (response : DynamicTaskResponse runtime.floats) :
    Inference.DynamicTaskResponse F where
  version := response.protocolVersion.toUInt32
  requestId := response.requestId.1.toUInt64
  agent := response.agentId.1.toUInt64
  snapshotSequence := response.snapshotSequence.1.toUInt64
  proposal := readProposal conversion response.proposal

theorem isResponse_of_fits (hexact : ExactFloats runtime conversion) {response : DynamicTaskResponse runtime.floats}
    (hversion : response.protocolVersion = currentDynamicTaskProtocolVersion)
    (hfits : FitsGameServer conversion response.proposal) :
    Inference.IsResponse conversion (.object ((taskFields runtime response).map Field.member))
      (readResponse conversion response) := by
  have hinteger {key : String} (n : UInt64Field) (h : integerMember key n.1 ∈ taskFields runtime response) :
      (ascii key, Value.number (decimal n.1.toUInt64.toNat)) ∈ (taskFields runtime response).map Field.member := by
    rw [toNat_uint64]
    exact List.mem_map_of_mem h
  have hnumber : integerMember "protocol_version" response.protocolVersion ∈ taskFields runtime response := by
    simp [taskFields]
  have hproposal : objectMember "proposal" (draftFields runtime response.proposal) ∈ taskFields runtime response := by
    simp [taskFields]
  refine ⟨_, _, rfl, .refl _, ?_, hinteger _ (by simp [taskFields]), hinteger _ (by simp [taskFields]),
    hinteger _ (by simp [taskFields]), List.mem_map_of_mem hproposal, isProposal_of_fits hexact hfits⟩
  rw [hversion] at hnumber
  rw [readResponse, hversion]
  exact List.mem_map_of_mem hnumber

theorem answers_readResponse {request : DynamicTaskRequest runtime.floats} {draft : QuestProposalDraft runtime.floats}
    (hversion : request.protocolVersion.1 = currentDynamicTaskProtocolVersion) :
    Answers (readResponse conversion ⟨currentDynamicTaskProtocolVersion, request.requestId, request.context.agentId,
      request.context.snapshotSequence, draft⟩) request draft :=
  ⟨hversion.symm, toNat_uint64 _, toNat_uint64 _, toNat_uint64 _, rfl, toNat_uint32 _, toNat_uint32 _, toNat_uint32 _,
    toNat_uint32 _, rfl, rfl⟩

/-- An answer of the AI server can be read by the game server, with everything as it was asked and drafted, exactly
if the texts of its draft are short enough in bytes and its range is a positive float. -/
theorem dynamicTask_readable_iff {D F : Type} (runtime : Runtime D) (conversion : FloatConversion D F)
    (hexact : ExactFloats runtime conversion) (config : ModelProviderConfig)
    (backend : QuestContext runtime.floats → Except HttpxError ProviderAnswer) (chunks : List Bytes)
    (response : DynamicTaskResponse runtime.floats) (h : dynamicTask runtime config backend chunks = .ok response) :
    ∃ request draft, receiveTask runtime config chunks = .ok request ∧
      generate runtime config (backend request.context) = .ok draft ∧
      (IsReadable conversion request draft (response.body runtime) ↔ FitsGameServer conversion draft) := by
  obtain ⟨request, draft, hrequest, hdraft, rfl⟩ := dynamicTask_ok h
  refine ⟨request, draft, hrequest, hdraft, ?_⟩
  have htext := isText_body hexact ⟨currentDynamicTaskProtocolVersion, request.requestId, request.context.agentId,
    request.context.snapshotSequence, draft⟩
  constructor
  · rintro ⟨parsed, hparsed, -⟩
    have hread := accepted_iff.mp hparsed
    obtain ⟨members, proposal, hobject, hresponse⟩ := (Inference.readDynamicTaskResponse_iff htext).mp hread
    cases hobject
    have hproposal := value_of_mem (nodup_task _) (objectMember "proposal" (draftFields runtime draft))
      (by simp [taskFields]) hresponse.hasProposal
    cases hproposal
    exact fits_of_isProposal hexact hresponse.isProposal
  · intro hfits
    refine ⟨_, accepted_iff.mpr ((Inference.readDynamicTaskResponse_iff htext).mpr
      (isResponse_of_fits hexact rfl hfits)), answers_readResponse (receiveTask_version hrequest)⟩

/-! ### Two answers -/

/-- Whole floats that are printed with one decimal. -/
def sampleRepr (n : ℕ) : Bytes := decimal n ++ ascii ".0"

def sampleConversion : FloatConversion ℕ ℕ where
  stod token :=
    let whole := token.take (token.length - 2)
    if whole.all isDigit ∧ token.drop (token.length - 2) = ascii ".0" then some (digitsValue whole, token.length)
    else none
  isFinite _ := true
  inFloatRange _ := true
  narrow := id
  isFiniteFloat _ := true
  isPositive n := n ≠ 0

def sampleTask : Bytes :=
  ["\x7b\"protocol_version\":1,\"request_id\":7,", "\"context\":\x7b\"agent_id\":9,\"snapshot_sequence\":3,",
    "\"problem\":\x7b\"type\":\"WOLF_PACK_MOVED\",", "\"actor_entry\":1,\"target_entry\":0,",
    "\"map_id\":0,\"age_ms\":500\x7d,", "\"candidate_targets\":[\x7b\"token\":2,\"entry\":299,",
    "\"display_name\":\"Wolf\",\"map_id\":0,", "\"distance_yards\":30,\"observation_age_ms\":5\x7d],",
    "\"limits\":\x7b\"max_required_count\":10,", "\"max_range_yards\":100,\"max_expiry_ms\":60000,",
    "\"max_reward_money_copper\":500\x7d\x7d\x7d"].flatMap ascii

section Samples
open Lib.Python (Value)

def sampleMembers (members : List (String × Value ℕ)) : Value ℕ :=
  .dict (members.map fun member => (codePoints member.1, member.2))

def sampleTaskValue : Value ℕ := sampleMembers
  [("protocol_version", .int 1), ("request_id", .int 7), ("context", sampleMembers
    [("agent_id", .int 9), ("snapshot_sequence", .int 3), ("problem", sampleMembers
      [("type", .str (codePoints "WOLF_PACK_MOVED")), ("actor_entry", .int 1), ("target_entry", .int 0),
        ("map_id", .int 0), ("age_ms", .int 500)]),
      ("candidate_targets", .list [sampleMembers
        [("token", .int 2), ("entry", .int 299), ("display_name", .str (codePoints "Wolf")), ("map_id", .int 0),
          ("distance_yards", .int 30), ("observation_age_ms", .int 5)]]),
      ("limits", sampleMembers
        [("max_required_count", .int 10), ("max_range_yards", .int 100), ("max_expiry_ms", .int 60000),
          ("max_reward_money_copper", .int 500)])])]

/-- What the model writes for some title. -/
def sampleContent (title : List ℕ) : List ℕ :=
  ["\x7b\"objective\":\"KILL_CREATURE\",", "\"target_token\":2,\"required_count\":5,", "\"max_range_yards\":40,",
    "\"expiry_ms\":60000,\"reward_money_copper\":0,", "\"title\":\""].flatMap codePoints ++
    (title ++ codePoints "\",\"description\":\"\"\x7d")

def sampleContentValue (title : List ℕ) : Value ℕ := sampleMembers
  [("objective", .str (codePoints "KILL_CREATURE")), ("target_token", .int 2), ("required_count", .int 5),
    ("max_range_yards", .int 40), ("expiry_ms", .int 60000), ("reward_money_copper", .int 0), ("title", .str title),
    ("description", .str [])]

def sampleCompletion (title : List ℕ) : Bytes :=
  ascii "\x7b\"choices\":[\x7b\"message\":\x7b\"content\":" ++ (dumps (sampleContent title) ++ ascii "\x7d\x7d]\x7d")

def sampleCompletionValue (title : List ℕ) : Value ℕ := sampleMembers
  [("choices", .list [sampleMembers [("message", sampleMembers [("content", .str (sampleContent title))])]])]

/-- The libraries, as far as the samples need them. -/
def sampleRuntime (title : List ℕ) : Runtime ℕ where
  floats :=
    { ofInt := fun n => if 0 ≤ n then some n.toNat else none
      isFinite := fun _ => true
      zero := 0
      one := 1
      le := fun a b => a ≤ b
      lt := fun a b => a < b }
  loadsBytes bytes :=
    if bytes = sampleTask then .ok sampleTaskValue
    else if bytes = sampleCompletion title then .ok (sampleCompletionValue title)
    else .error .jsonDecodeError
  loadsText text := if text = sampleContent title then .ok (sampleContentValue title) else .error .jsonDecodeError
  repr := sampleRepr
  report _ := ""

def sampleConfig : ModelProviderConfig := ⟨true, "http://model/v1/chat/completions", "local", 32768, 16384⟩

def sampleAnswer (title : List ℕ) : ProviderAnswer := ⟨200, [sampleCompletion title], none⟩

theorem isNumber_sampleRepr (n : ℕ) : IsNumber (sampleRepr n) :=
  ⟨[], decimal n, ascii ".0", [], by simp [sampleRepr], .inl rfl, isInteger_decimal n,
    .inr ⟨ascii "0", by decide, by decide, by decide⟩, .inl rfl⟩

theorem stod_sampleRepr (n : ℕ) : sampleConversion.stod (sampleRepr n) = some (n, (sampleRepr n).length) := by
  have hlength : (sampleRepr n).length - 2 = (decimal n).length := by
    rw [sampleRepr, List.length_append]
    exact Nat.add_sub_cancel _ _
  have htake : (sampleRepr n).take ((sampleRepr n).length - 2) = decimal n := by
    rw [hlength, sampleRepr, List.take_left]
  have hdrop : (sampleRepr n).drop ((sampleRepr n).length - 2) = ascii ".0" := by
    rw [hlength, sampleRepr, List.drop_left]
  have hdigits : (decimal n).all isDigit = true := List.all_eq_true.mpr (isDigits_decimal n).2
  simp only [sampleConversion, htake, hdrop, hdigits, digitsValue_decimal, and_self, if_true]

theorem exactFloats_sample (title : List ℕ) : ExactFloats (sampleRuntime title) sampleConversion where
  isNumber n _ := isNumber_sampleRepr n
  isFinite _ := rfl
  exact d e consumed _ h := by
    rw [show (sampleRuntime title).repr d = sampleRepr d from rfl, stod_sampleRepr] at h
    cases h
    exact ⟨rfl, rfl⟩
  reads d _ _ := stod_sampleRepr d

theorem ok_of_toOption {ε α : Type} {result : Except ε α} {x : α} (h : result.toOption = some x) : result = .ok x := by
  cases result with
  | error e => contradiction
  | ok y =>
    cases h
    rfl

def umlauts : List ℕ := List.replicate 80 0xE4

/-- Eighty letters with an umlaut are a title for the AI server and too long for the game server. -/
theorem dynamicTask_unreadable : ∃ response,
    dynamicTask (sampleRuntime umlauts) sampleConfig (fun _ => .ok (sampleAnswer umlauts)) [sampleTask] = .ok response ∧
      ∀ blank, (Inference.parseDynamicTaskResponse sampleConversion (response.body _) blank).1 = false := by
  have hrun : (dynamicTask (sampleRuntime umlauts) sampleConfig (fun _ => .ok (sampleAnswer umlauts))
      [sampleTask]).toOption.any
        (fun response => (Inference.readDynamicTaskResponse sampleConversion (response.body _)).isNone) = true := by
    decide +kernel
  obtain ⟨response, hresponse, hnone⟩ := (Option.any_eq_true _ _).mp hrun
  refine ⟨response, ok_of_toOption hresponse, fun blank => ?_⟩
  rw [Inference.parseDynamicTaskResponse, Option.isNone_iff_eq_none.mp hnone]

theorem dynamicTask_readable_iff_sample : ∃ request draft,
    receiveTask (sampleRuntime (codePoints "Cull")) sampleConfig [sampleTask] = .ok request ∧
      generate (sampleRuntime (codePoints "Cull")) sampleConfig (.ok (sampleAnswer (codePoints "Cull"))) = .ok draft ∧
      ∃ response, dynamicTask (sampleRuntime (codePoints "Cull")) sampleConfig
          (fun _ => .ok (sampleAnswer (codePoints "Cull"))) [sampleTask] = .ok response ∧
        (IsReadable sampleConversion request draft (response.body _) ↔ FitsGameServer sampleConversion draft) := by
  have hrun : (dynamicTask (sampleRuntime (codePoints "Cull")) sampleConfig
      (fun _ => .ok (sampleAnswer (codePoints "Cull"))) [sampleTask]).toOption.isSome = true := by
    decide +kernel
  obtain ⟨response, hresponse⟩ := Option.isSome_iff_exists.mp hrun
  have hok := ok_of_toOption hresponse
  obtain ⟨request, draft, hrequest, hdraft, hiff⟩ := dynamicTask_readable_iff (sampleRuntime (codePoints "Cull"))
    sampleConversion (exactFloats_sample _) sampleConfig (fun _ => .ok (sampleAnswer (codePoints "Cull")))
    [sampleTask] response hok
  exact ⟨request, draft, hrequest, hdraft, response, hok, hiff⟩

end Samples

end AIWorld.AiServer
