import AIWorld.Inference.DynamicTaskGrammar
import AIWorld.Inference.DynamicTaskRequest

/-! What is written for a request is a text of the grammar, and reading it gives back every
integer and string of the request. -/

namespace AIWorld.Inference

open Lib.Json
open Quest (WorldEventType)

/-! ### Escaped strings -/

theorem hexNumber_control {n : ℕ} (h : n < 32) :
    hexNumber '0'.toUInt8 '0'.toUInt8 (hexChar (n / 16)) (hexChar (n % 16)) = some n := by
  revert n
  decide

/-- Every byte is escaped to something that decodes to it. -/
theorem chars_escapeByte (c : UInt8) {t s : Bytes} (h : Chars encodeCodepoint t s) :
    Chars encodeCodepoint (escapeByte c ++ t) (c :: s) := by
  unfold escapeByte
  split_ifs with hquote hbackslash hb hf hn hr ht hcontrol
  · subst hquote
    exact .short (by decide) h
  · subst hbackslash
    exact .short (by decide) h
  · subst hb
    exact .short (by decide) h
  · subst hf
    exact .short (by decide) h
  · subst hn
    exact .short (by decide) h
  · subst hr
    exact .short (by decide) h
  · subst ht
    exact .short (by decide) h
  · have hlt : c.toNat < 32 := UInt8.lt_iff_toNat_lt.mp hcontrol
    have hone : encodeCodepoint c.toNat = [c] := by
      rw [encodeCodepoint, if_pos (by omega)]
      simp
    have hunicode := Chars.unicode (hexNumber_control hlt) h
    rw [hone] at hunicode
    exact hunicode
  · exact .plain (UInt8.not_lt.mp hcontrol) hquote hbackslash h

theorem isString_append (out value : Bytes) : ∃ literal,
    appendEscapedJsonString out value = out ++ literal ∧ IsString encodeCodepoint literal value := by
  refine ⟨_, rfl, _, rfl, ?_⟩
  induction value with
  | nil => exact .nil
  | cons c value ih => exact chars_escapeByte c ih

/-! ### The text of a request -/

theorem plain_eventTypeName (type : WorldEventType) : ∀ c ∈ eventTypeName type, IsPlain c := by
  cases type <;> decide

/-- A member that is written as a plain text, an integer, an escaped text, or a float. -/
def wordMember (key : String) (word : Bytes) : Field := ⟨ascii key, quote :: (word ++ [quote]), .string word⟩

def integerMember (key : String) (n : ℕ) : Field := ⟨ascii key, decimal n, .number (decimal n)⟩

def textMember (key : String) (text : Bytes) : Field := ⟨ascii key, appendEscapedJsonString [] text, .string text⟩

def numberMember (key : String) (number : Bytes) : Field := ⟨ascii key, number, .number number⟩

def problemFields (problem : QuestProblemContext) : List Field :=
  [wordMember "type" (eventTypeName problem.type), integerMember "actor_entry" problem.actorEntry.toNat,
    integerMember "target_entry" problem.targetEntry.toNat, integerMember "map_id" problem.mapId.toNat,
    integerMember "age_ms" problem.ageMs.toNat]

theorem serializeQuestProblemContext_eq (problem : QuestProblemContext) :
    serializeQuestProblemContext problem = writeObject (problemFields problem) := by
  simp only [serializeQuestProblemContext, problemFields, wordMember, integerMember, writeObject, joined, Field.write,
    List.append_assoc, List.cons_append, List.nil_append]
  rfl

section Floats
variable {F : Type} (format : F → Bytes)

def eventFields (event : QuestRelevantEvent F) : List Field :=
  [wordMember "type" (eventTypeName event.type), integerMember "actor_entry" event.actorEntry.toNat,
    integerMember "target_entry" event.targetEntry.toNat, numberMember "importance" (format event.importance),
    numberMember "relevance" (format event.relevance), integerMember "age_ms" event.ageMs.toNat]

theorem serializeQuestRelevantEvent_eq (event : QuestRelevantEvent F) :
    serializeQuestRelevantEvent format event = writeObject (eventFields format event) := by
  simp only [serializeQuestRelevantEvent, eventFields, wordMember, integerMember, numberMember, writeObject, joined,
    Field.write, List.append_assoc, List.cons_append, List.nil_append]
  rfl

def candidateFields (candidate : QuestTargetCandidate F) : List Field :=
  [integerMember "token" candidate.token.toNat, integerMember "entry" candidate.entry.toNat,
    textMember "display_name" candidate.displayName, integerMember "map_id" candidate.mapId.toNat,
    numberMember "distance_yards" (format candidate.distanceYards),
    integerMember "observation_age_ms" candidate.observationAgeMs.toNat]

theorem serializeQuestTargetCandidate_eq (candidate : QuestTargetCandidate F) :
    serializeQuestTargetCandidate format candidate = writeObject (candidateFields format candidate) := by
  simp only [serializeQuestTargetCandidate, appendEscapedJsonString, candidateFields, textMember, integerMember,
    numberMember, writeObject, joined, Field.write, List.append_assoc, List.cons_append, List.nil_append]
  rfl

def limitsFields (limits : QuestProposalLimits F) : List Field :=
  [integerMember "max_required_count" limits.maxRequiredCount.toNat,
    numberMember "max_range_yards" (format limits.maxRangeYards),
    integerMember "max_expiry_ms" limits.maxExpiryMs.toNat,
    integerMember "max_reward_money_copper" limits.maxRewardMoneyCopper.toNat]

theorem serializeQuestProposalLimits_eq (limits : QuestProposalLimits F) :
    serializeQuestProposalLimits format limits = writeObject (limitsFields format limits) := by
  simp only [serializeQuestProposalLimits, limitsFields, integerMember, numberMember, writeObject, joined,
    Field.write, List.append_assoc, List.cons_append]
  rfl

/-- A member that is an object, written by its fields. -/
def objectMember (key : String) (fields : List Field) : Field :=
  ⟨ascii key, writeObject fields, .object (fields.map Field.member)⟩

/-- A member that is an array of objects. -/
def arrayMember {α : Type} (key : String) (fields : α → List Field) (items : List α) : Field :=
  ⟨ascii key, writeArray (fun x => writeObject (fields x)) items,
    .array (items.map fun x => .object ((fields x).map Field.member))⟩

def contextFields (context : QuestContext F) : List Field :=
  [integerMember "agent_id" context.agent.toNat, integerMember "snapshot_sequence" context.snapshotSequence.toNat,
    objectMember "problem" (problemFields context.problem),
    arrayMember "relevant_events" (eventFields format) context.relevantEvents,
    arrayMember "candidate_targets" (candidateFields format) context.candidateTargets,
    objectMember "limits" (limitsFields format context.limits)]

theorem serializeQuestContext_eq (context : QuestContext F) :
    serializeQuestContext format context = writeObject (contextFields format context) := by
  have hevents : serializeQuestRelevantEvent format = fun event => writeObject (eventFields format event) :=
    funext (serializeQuestRelevantEvent_eq format)
  have hcandidates : serializeQuestTargetCandidate format = fun candidate => writeObject (candidateFields format candidate) :=
    funext (serializeQuestTargetCandidate_eq format)
  simp only [serializeQuestContext, hevents, hcandidates, serializeQuestProblemContext_eq,
    serializeQuestProposalLimits_eq, contextFields, objectMember, arrayMember, writeArray,
    integerMember]
  generalize writeObject (problemFields context.problem) = problem
  generalize writeObject (limitsFields format context.limits) = limits
  generalize joined (fun event => writeObject (eventFields format event)) context.relevantEvents = events
  generalize joined (fun candidate => writeObject (candidateFields format candidate)) context.candidateTargets =
    candidates
  simp only [writeObject, joined, Field.write, List.append_assoc, List.cons_append, List.nil_append]
  rfl

def requestFields (request : DynamicTaskRequest F) : List Field :=
  [integerMember "protocol_version" request.version.toNat, integerMember "request_id" request.requestId.toNat,
    objectMember "context" (contextFields format request.context)]

theorem serializeDynamicTaskRequest_eq (request : DynamicTaskRequest F) :
    serializeDynamicTaskRequest format request = writeObject (requestFields format request) := by
  rw [serializeDynamicTaskRequest, serializeQuestContext_eq, requestFields, objectMember]
  generalize writeObject (contextFields format request.context) = context
  simp only [writeObject, joined, Field.write, integerMember, List.append_assoc, List.cons_append]
  rfl

end Floats

/-! ### Keys -/

theorem nodup_problem (problem : QuestProblemContext) : ((problemFields problem).map Field.key).Nodup := by
  change (["type", "actor_entry", "target_entry", "map_id", "age_ms"].map ascii).Nodup
  decide

section Floats
variable {F : Type} (format : F → Bytes)

theorem nodup_event (event : QuestRelevantEvent F) : ((eventFields format event).map Field.key).Nodup := by
  change (["type", "actor_entry", "target_entry", "importance", "relevance", "age_ms"].map ascii).Nodup
  decide

theorem nodup_candidate (candidate : QuestTargetCandidate F) : ((candidateFields format candidate).map Field.key).Nodup := by
  change (["token", "entry", "display_name", "map_id", "distance_yards", "observation_age_ms"].map ascii).Nodup
  decide

theorem nodup_limits (limits : QuestProposalLimits F) : ((limitsFields format limits).map Field.key).Nodup := by
  change (["max_required_count", "max_range_yards", "max_expiry_ms", "max_reward_money_copper"].map ascii).Nodup
  decide

theorem nodup_context (context : QuestContext F) : ((contextFields format context).map Field.key).Nodup := by
  change (["agent_id", "snapshot_sequence", "problem", "relevant_events", "candidate_targets", "limits"].map ascii).Nodup
  decide

theorem nodup_request (request : DynamicTaskRequest F) : ((requestFields format request).map Field.key).Nodup := by
  change (["protocol_version", "request_id", "context"].map ascii).Nodup
  decide

end Floats

/-! ### It is a text of the grammar -/

/-- A member whose key is plain and whose text is one of its value. -/
def IsWritten (levels : ℕ) (field : Field) : Prop :=
  (∀ c ∈ field.key, IsPlain c) ∧ Spells encodeCodepoint levels field.text field.value

variable {levels : ℕ} {key : String}

theorem isWritten_word (hkey : ∀ c ∈ ascii key, IsPlain c) {word : Bytes} (hword : ∀ c ∈ word, IsPlain c) :
    IsWritten (levels + 1) (wordMember key word) := ⟨hkey, isString_plain hword⟩

theorem isWritten_integer (hkey : ∀ c ∈ ascii key, IsPlain c) (n : ℕ) : IsWritten (levels + 1) (integerMember key n) :=
  ⟨hkey, rfl, isNumber_decimal n⟩

theorem isWritten_text (hkey : ∀ c ∈ ascii key, IsPlain c) (text : Bytes) :
    IsWritten (levels + 1) (textMember key text) := by
  obtain ⟨literal, hliteral, hstring⟩ := isString_append [] text
  refine ⟨hkey, ?_⟩
  rw [textMember, hliteral]
  exact hstring

theorem isWritten_number (hkey : ∀ c ∈ ascii key, IsPlain c) {number : Bytes} (hnumber : IsNumber number) :
    IsWritten (levels + 1) (numberMember key number) := ⟨hkey, rfl, hnumber⟩

theorem spells_fields {fields : List Field} (hkeys : (fields.map Field.key).Nodup)
    (h : ∀ field ∈ fields, IsWritten levels field) :
    Spells encodeCodepoint (levels + 1) (writeObject fields) (.object (fields.map Field.member)) :=
  spells_writeObject hkeys (fun field hfield => (h field hfield).1) fun field hfield => (h field hfield).2

theorem isWritten_object (hkey : ∀ c ∈ ascii key, IsPlain c) {fields : List Field}
    (hkeys : (fields.map Field.key).Nodup) (h : ∀ field ∈ fields, IsWritten levels field) :
    IsWritten (levels + 1) (objectMember key fields) := ⟨hkey, spells_fields hkeys h⟩

theorem isWritten_array (hkey : ∀ c ∈ ascii key, IsPlain c) {α : Type} {fields : α → List Field} {items : List α}
    (hkeys : ∀ x ∈ items, ((fields x).map Field.key).Nodup)
    (h : ∀ x ∈ items, ∀ field ∈ fields x, IsWritten levels field) :
    IsWritten (levels + 2) (arrayMember key fields items) :=
  ⟨hkey, spells_writeArray fun x hx => spells_fields (hkeys x hx) (h x hx)⟩

section Floats
variable {F : Type} {format : F → Bytes} {finite : F → Prop} (hformat : ∀ f, finite f → IsNumber (format f))

/-- All floats of a request are finite. -/
structure FiniteFloats (finite : F → Prop) (context : QuestContext F) : Prop where
  events : ∀ event ∈ context.relevantEvents, finite event.importance ∧ finite event.relevance
  candidates : ∀ candidate ∈ context.candidateTargets, finite candidate.distanceYards
  limits : finite context.limits.maxRangeYards

theorem isWritten_problem (problem : QuestProblemContext) :
    ∀ field ∈ problemFields problem, IsWritten (levels + 1) field := by
  simp only [problemFields, List.forall_mem_cons]
  exact ⟨isWritten_word (by decide) (plain_eventTypeName _), isWritten_integer (by decide) _,
    isWritten_integer (by decide) _, isWritten_integer (by decide) _, isWritten_integer (by decide) _, by simp⟩

include hformat

theorem isWritten_event {event : QuestRelevantEvent F} (h : finite event.importance ∧ finite event.relevance) :
    ∀ field ∈ eventFields format event, IsWritten (levels + 1) field := by
  simp only [eventFields, List.forall_mem_cons]
  exact ⟨isWritten_word (by decide) (plain_eventTypeName _), isWritten_integer (by decide) _,
    isWritten_integer (by decide) _, isWritten_number (by decide) (hformat _ h.1),
    isWritten_number (by decide) (hformat _ h.2), isWritten_integer (by decide) _, by simp⟩

theorem isWritten_candidate {candidate : QuestTargetCandidate F} (h : finite candidate.distanceYards) :
    ∀ field ∈ candidateFields format candidate, IsWritten (levels + 1) field := by
  simp only [candidateFields, List.forall_mem_cons]
  exact ⟨isWritten_integer (by decide) _, isWritten_integer (by decide) _, isWritten_text (by decide) _,
    isWritten_integer (by decide) _, isWritten_number (by decide) (hformat _ h), isWritten_integer (by decide) _,
    by simp⟩

theorem isWritten_limits {limits : QuestProposalLimits F} (h : finite limits.maxRangeYards) :
    ∀ field ∈ limitsFields format limits, IsWritten (levels + 1) field := by
  simp only [limitsFields, List.forall_mem_cons]
  exact ⟨isWritten_integer (by decide) _, isWritten_number (by decide) (hformat _ h), isWritten_integer (by decide) _,
    isWritten_integer (by decide) _, by simp⟩

theorem isWritten_context {context : QuestContext F} (h : FiniteFloats finite context) :
    ∀ field ∈ contextFields format context, IsWritten (levels + 3) field := by
  simp only [contextFields, List.forall_mem_cons]
  refine ⟨isWritten_integer (by decide) _, isWritten_integer (by decide) _, ?_, ?_, ?_, ?_, by simp⟩
  · exact isWritten_object (by decide) (nodup_problem _) (isWritten_problem context.problem)
  · exact isWritten_array (by decide) (fun event _ => nodup_event format event) fun event hevent =>
      isWritten_event hformat (h.events event hevent)
  · exact isWritten_array (by decide) (fun candidate _ => nodup_candidate format candidate) fun candidate hcandidate =>
      isWritten_candidate hformat (h.candidates candidate hcandidate)
  · exact isWritten_object (by decide) (nodup_limits format _) (isWritten_limits hformat h.limits)

theorem isText_request {request : DynamicTaskRequest F} (h : FiniteFloats finite request.context) :
    IsText encodeCodepoint (maxDepth + 1) (serializeDynamicTaskRequest format request)
      (.object ((requestFields format request).map Field.member)) := by
  rw [serializeDynamicTaskRequest_eq]
  refine ⟨[], _, [], by simp, white_nil, white_nil, spells_fields (nodup_request format request) ?_⟩
  simp only [requestFields, List.forall_mem_cons]
  exact ⟨isWritten_integer (by decide) _, isWritten_integer (by decide) _,
    isWritten_object (by decide) (nodup_context format _) (isWritten_context hformat h), by simp⟩

end Floats

/-! ### Reading it back -/

/-- Where the elements of a field stand that is an array. -/
def arrayField (json : Bytes) (members : List JsonObjectMember) (key : String) (depth : ℕ) :
    Option (List (ℕ × ℕ)) := do
  let member ← findMember members (ascii key)
  let (spans, stop) ← parseJsonArray (parseJsonValue json (maxDepth - depth)) json member.valueStart
  if stop = member.valueEnd then some spans else none

section Reads
variable {F : Type} (json : Bytes) (members : List JsonObjectMember)

structure ReadsProblem (problem : QuestProblemContext) : Prop where
  type : stringField json members "type" = some (eventTypeName problem.type)
  actorEntry : uint32Field json members "actor_entry" = some problem.actorEntry
  targetEntry : uint32Field json members "target_entry" = some problem.targetEntry
  mapId : uint32Field json members "map_id" = some problem.mapId
  ageMs : uint32Field json members "age_ms" = some problem.ageMs

structure ReadsEvent (event : QuestRelevantEvent F) : Prop where
  type : stringField json members "type" = some (eventTypeName event.type)
  actorEntry : uint32Field json members "actor_entry" = some event.actorEntry
  targetEntry : uint32Field json members "target_entry" = some event.targetEntry
  ageMs : uint32Field json members "age_ms" = some event.ageMs

structure ReadsCandidate (candidate : QuestTargetCandidate F) : Prop where
  token : uint32Field json members "token" = some candidate.token
  entry : uint32Field json members "entry" = some candidate.entry
  displayName : stringField json members "display_name" = some candidate.displayName
  mapId : uint32Field json members "map_id" = some candidate.mapId
  observationAgeMs : uint32Field json members "observation_age_ms" = some candidate.observationAgeMs

structure ReadsLimits (limits : QuestProposalLimits F) : Prop where
  maxRequiredCount : uint32Field json members "max_required_count" = some limits.maxRequiredCount
  maxExpiryMs : uint32Field json members "max_expiry_ms" = some limits.maxExpiryMs
  maxRewardMoneyCopper : uint32Field json members "max_reward_money_copper" = some limits.maxRewardMoneyCopper

/-- An element of an array, at some depth, whose own members are read. -/
def ReadsItem {α : Type} (depth : ℕ) (reads : List JsonObjectMember → α → Prop) (span : ℕ × ℕ) (x : α) : Prop :=
  ∃ inner, parseObjectAt json span.1 depth = some (inner, span.2) ∧ reads inner x

structure ReadsContext (context : QuestContext F) : Prop where
  agent : uint64Field json members "agent_id" = some context.agent
  snapshotSequence : uint64Field json members "snapshot_sequence" = some context.snapshotSequence
  problem : ∃ inner, objectField json members "problem" 2 = some inner ∧ ReadsProblem json inner context.problem
  relevantEvents : ∃ spans, arrayField json members "relevant_events" 2 = some spans ∧
    List.Forall₂ (ReadsItem json 3 (ReadsEvent json)) spans context.relevantEvents
  candidateTargets : ∃ spans, arrayField json members "candidate_targets" 2 = some spans ∧
    List.Forall₂ (ReadsItem json 3 (ReadsCandidate json)) spans context.candidateTargets
  limits : ∃ inner, objectField json members "limits" 2 = some inner ∧ ReadsLimits json inner context.limits

structure ReadsRequest (request : DynamicTaskRequest F) : Prop where
  version : uint32Field json members "protocol_version" = some request.version
  requestId : uint64Field json members "request_id" = some request.requestId
  context : ∃ inner, objectField json members "context" 1 = some inner ∧ ReadsContext json inner request.context

end Reads

section Members
variable {json : Bytes} {ms : List JsonObjectMember} {fields : List Field}

/-- An object that was written stands in the text with its members. -/
structure Written (json : Bytes) (levels : ℕ) (ms : List JsonObjectMember) (fields : List Field) : Prop where
  members : List.Forall₂ (MemberStands json levels) ms (fields.map Field.member)
  distinct : DistinctKeys (fields.map Field.member)

variable (h : Written json levels ms fields)
include h

theorem Written.uint32 {n : UInt32} (hmem : integerMember key n.toNat ∈ fields) :
    uint32Field json ms key = some n :=
  (uint32Field_iff h.members h.distinct).mpr (List.mem_map_of_mem hmem)

theorem Written.uint64 {n : UInt64} (hmem : integerMember key n.toNat ∈ fields) :
    uint64Field json ms key = some n :=
  (uint64Field_iff h.members h.distinct).mpr (List.mem_map_of_mem hmem)

theorem Written.word {word : Bytes} (hmem : wordMember key word ∈ fields) : stringField json ms key = some word :=
  (stringField_iff h.members h.distinct).mpr (List.mem_map_of_mem hmem)

theorem Written.text {text : Bytes} (hmem : textMember key text ∈ fields) : stringField json ms key = some text :=
  (stringField_iff h.members h.distinct).mpr (List.mem_map_of_mem hmem)

end Members

section Nested
variable {json : Bytes} {ms : List JsonObjectMember} {fields : List Field} {depth : ℕ}
  (hdepth : maxDepth - depth = levels) (h : Written json (levels + 1) ms fields)
include hdepth h

theorem Written.object {inner : List Field} (hmem : objectMember key inner ∈ fields) :
    ∃ ms', objectField json ms key depth = some ms' ∧ Written json levels ms' inner := by
  have hmember : (ascii key, .object (inner.map Field.member)) ∈ fields.map Field.member := List.mem_map_of_mem hmem
  obtain ⟨ms', hms', hmembers, hdistinct⟩ := objectField_eq hdepth h.members h.distinct hmember
  exact ⟨ms', hms', hmembers, hdistinct⟩

end Nested

/-- The elements of an array are read at their places. -/
theorem Written.array {json : Bytes} {ms : List JsonObjectMember} {fields : List Field} {depth : ℕ}
    (hdepth : maxDepth - depth = levels + 1) (h : Written json (levels + 2) ms fields) {α : Type} {inner : α → List Field}
    {items : List α} (hmem : arrayMember key inner items ∈ fields) :
    ∃ spans, arrayField json ms key depth = some spans ∧ List.Forall₂
      (ReadsItem json (depth + 1) fun ms' x => Written json levels ms' (inner x)) spans items := by
  have hmember : (ascii key, .array (items.map fun x => .object ((inner x).map Field.member))) ∈
    fields.map Field.member := List.mem_map_of_mem hmem
  obtain ⟨m, hm, hstands⟩ := exists_findMember h.members h.distinct hmember
  obtain ⟨spans, hspans, hitems⟩ := hstands.parseJsonArray
  refine ⟨spans, by simp [arrayField, hm, hdepth, hspans], ?_⟩
  refine (List.forall₂_map_right_iff.mp hitems).imp fun span x hitem => ?_
  obtain ⟨ms', hms', hmembers, hdistinct⟩ := Stands.parseJsonObject hitem
  refine ⟨ms', ?_, hmembers, hdistinct⟩
  have hlevels : maxDepth - (depth + 1) = levels := by omega
  rw [parseObjectAt, hlevels]
  exact hms'

section Floats
variable {F : Type} {format : F → Bytes} {json : Bytes} {ms : List JsonObjectMember}

theorem readsProblem {problem : QuestProblemContext} (h : Written json levels ms (problemFields problem)) :
    ReadsProblem json ms problem :=
  ⟨h.word (by simp [problemFields]), h.uint32 (by simp [problemFields]), h.uint32 (by simp [problemFields]),
    h.uint32 (by simp [problemFields]), h.uint32 (by simp [problemFields])⟩

theorem readsEvent {event : QuestRelevantEvent F} (h : Written json levels ms (eventFields format event)) :
    ReadsEvent json ms event :=
  ⟨h.word (by simp [eventFields]), h.uint32 (by simp [eventFields]), h.uint32 (by simp [eventFields]),
    h.uint32 (by simp [eventFields])⟩

theorem readsCandidate {candidate : QuestTargetCandidate F}
    (h : Written json levels ms (candidateFields format candidate)) : ReadsCandidate json ms candidate :=
  ⟨h.uint32 (by simp [candidateFields]), h.uint32 (by simp [candidateFields]), h.text (by simp [candidateFields]),
    h.uint32 (by simp [candidateFields]), h.uint32 (by simp [candidateFields])⟩

theorem readsLimits {limits : QuestProposalLimits F} (h : Written json levels ms (limitsFields format limits)) :
    ReadsLimits json ms limits :=
  ⟨h.uint32 (by simp [limitsFields]), h.uint32 (by simp [limitsFields]), h.uint32 (by simp [limitsFields])⟩

theorem readsContext {context : QuestContext F} (h : Written json 31 ms (contextFields format context)) :
    ReadsContext json ms context := by
  have hroom : maxDepth - 2 = 30 := rfl
  have hproblem : objectMember "problem" (problemFields context.problem) ∈ contextFields format context := by
    simp [contextFields]
  have hevents : arrayMember "relevant_events" (eventFields format) context.relevantEvents ∈
    contextFields format context := by simp [contextFields]
  have hcandidates : arrayMember "candidate_targets" (candidateFields format) context.candidateTargets ∈
    contextFields format context := by simp [contextFields]
  have hlimits : objectMember "limits" (limitsFields format context.limits) ∈ contextFields format context := by
    simp [contextFields]
  refine ⟨h.uint64 (by simp [contextFields]), h.uint64 (by simp [contextFields]), ?_, ?_, ?_, ?_⟩
  · obtain ⟨inner, hinner, hread⟩ := h.object hroom hproblem
    exact ⟨inner, hinner, readsProblem hread⟩
  · obtain ⟨spans, hspans, hitems⟩ := Written.array hroom h hevents
    exact ⟨spans, hspans, hitems.imp fun _ _ ⟨inner, hinner, hread⟩ => ⟨inner, hinner, readsEvent hread⟩⟩
  · obtain ⟨spans, hspans, hitems⟩ := Written.array hroom h hcandidates
    exact ⟨spans, hspans, hitems.imp fun _ _ ⟨inner, hinner, hread⟩ => ⟨inner, hinner, readsCandidate hread⟩⟩
  · obtain ⟨inner, hinner, hread⟩ := h.object hroom hlimits
    exact ⟨inner, hinner, readsLimits hread⟩

theorem readsRequest {request : DynamicTaskRequest F}
    (h : Written json maxDepth ms (requestFields format request)) : ReadsRequest json ms request := by
  have hroom : maxDepth - 1 = 31 := rfl
  have hcontext : objectMember "context" (contextFields format request.context) ∈ requestFields format request := by
    simp [requestFields]
  refine ⟨h.uint32 (by simp [requestFields]), h.uint64 (by simp [requestFields]), ?_⟩
  obtain ⟨inner, hinner, hread⟩ := h.object hroom hcontext
  exact ⟨inner, hinner, readsContext hread⟩

end Floats

/-! ### Round trip -/

/-- An escaped text is skipped as a whole, wherever it stands, and decodes to what was escaped. -/
theorem escaped_read (s pre post : Bytes) :
    skipJsonStringLiteral (pre ++ appendEscapedJsonString [] s ++ post) pre.length =
        some (pre.length + (appendEscapedJsonString [] s).length) ∧
      unescapeJsonString (appendEscapedJsonString [] s) = some s := by
  obtain ⟨literal, hliteral, hstring⟩ := isString_append [] s
  rw [hliteral, List.nil_append]
  have hdrop : (pre ++ literal ++ post).drop pre.length = literal ++ post := by
    rw [List.append_assoc, List.drop_left]
  exact ⟨skipJsonStringLiteral_eq hstring hdrop, unescapeJsonString_eq hstring⟩

theorem written_request {F : Type} {format : F → Bytes} {finite : F → Prop}
    (hformat : ∀ f, finite f → IsNumber (format f)) {request : DynamicTaskRequest F}
    (hfinite : FiniteFloats finite request.context) : ∃ ms,
    parseJsonRootObjectMembers (serializeDynamicTaskRequest format request) = some ms ∧
      Written (serializeDynamicTaskRequest format request) maxDepth ms (requestFields format request) := by
  obtain ⟨ms, hms, hmembers, hdistinct⟩ := parseJsonRootObjectMembers_eq (isText_request hformat hfinite)
  exact ⟨ms, hms, hmembers, hdistinct⟩

/-- Strings are read back as they were escaped, and a request with finite floats is read back as it was
written. -/
theorem serializeDynamicTaskRequest_reads {F : Type} (format : F → Bytes) (finite : F → Prop)
    (hformat : ∀ f, finite f → IsNumber (format f)) :
    (∀ out s post : Bytes, ∃ literal, appendEscapedJsonString out s = out ++ literal ∧
      skipJsonStringLiteral (out ++ literal ++ post) out.length = some (out.length + literal.length) ∧
      unescapeJsonString literal = some s) ∧
    ∀ request : DynamicTaskRequest F, FiniteFloats finite request.context →
      ∃ ms, parseJsonRootObjectMembers (serializeDynamicTaskRequest format request) = some ms ∧
        ReadsRequest (serializeDynamicTaskRequest format request) ms request := by
  refine ⟨fun out s post => ?_, fun request hfinite => ?_⟩
  · obtain ⟨hskip, hdecode⟩ := escaped_read s out post
    exact ⟨appendEscapedJsonString [] s, rfl, hskip, hdecode⟩
  · obtain ⟨ms, hms, hwritten⟩ := written_request hformat hfinite
    exact ⟨ms, hms, readsRequest hwritten⟩

/-- With a name that has a quote, a backslash, a line break and letters outside ASCII. -/
def sampleContext : QuestContext ℕ where
  agent := 7
  snapshotSequence := 18446744073709551615
  problem := ⟨.wolfPackMoved, 1, 2, 0, 500⟩
  relevantEvents := [⟨.npcDied, 1, 2, 3, 4, 5⟩, ⟨.foodShortage, 6, 7, 8, 9, 10⟩]
  candidateTargets := [⟨1, 2, ascii "\"Old\\\n" ++ [0xC3, 0xA9], 0, 30, 5⟩]
  limits := ⟨10, 100, 60000, 5000⟩

theorem serializeDynamicTaskRequest_reads_sample :
    ∃ ms, parseJsonRootObjectMembers (serializeDynamicTaskRequest decimal ⟨1, 3, sampleContext⟩) = some ms ∧
      ReadsRequest (serializeDynamicTaskRequest decimal ⟨1, 3, sampleContext⟩) ms ⟨1, 3, sampleContext⟩ := by
  have hfinite : FiniteFloats (fun _ => True) sampleContext :=
    ⟨fun _ _ => ⟨trivial, trivial⟩, fun _ _ => trivial, trivial⟩
  exact (serializeDynamicTaskRequest_reads decimal (fun _ => True) fun n _ => isNumber_decimal n).2
    ⟨1, 3, sampleContext⟩ hfinite

end AIWorld.Inference
