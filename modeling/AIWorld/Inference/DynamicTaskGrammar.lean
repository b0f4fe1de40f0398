import AIWorld.Inference.DynamicTaskResponse

/-! What an answer to a dynamic task request has to be, said about its members as a set, and
that the parser answers for nothing else and for all of it. -/

namespace AIWorld.Inference

open Lib.Json

variable {D F : Type} {conversion : FloatConversion D F} {json : Bytes} {levels : ℕ} {v v' : Value}
  {members : List (Bytes × Value)} {ms : List JsonObjectMember} {key : String}

/-- The members of a proposal. Integers are written in decimal and fit into their fields. -/
structure IsProposal (conversion : FloatConversion D F) (members : List (Bytes × Value))
    (draft : QuestProposalDraft F) : Prop where
  keys : (members.map Prod.fst).Perm proposalKeys
  objective : (ascii "objective", .string (ascii "KILL_CREATURE")) ∈ members ∧ draft.objective = .killCreature
  targetToken : (ascii "target_token", .number (decimal draft.targetToken.toNat)) ∈ members
  requiredCount : (ascii "required_count", .number (decimal draft.requiredCount.toNat)) ∈ members
  requiredCount_ne : draft.requiredCount ≠ 0
  maxRangeYards : ∃ text, (ascii "max_range_yards", .number text) ∈ members ∧
    conversion.convert text = some draft.maxRangeYards ∧ conversion.isPositive draft.maxRangeYards = true
  expiryMs : (ascii "expiry_ms", .number (decimal draft.expiryMs.toNat)) ∈ members
  expiryMs_ne : draft.expiryMs ≠ 0
  rewardMoneyCopper : (ascii "reward_money_copper", .number (decimal draft.rewardMoneyCopper.toNat)) ∈ members
  title : (ascii "title", .string draft.title) ∈ members ∧ draft.title.length ≤ 80
  description : (ascii "description", .string draft.description) ∈ members ∧ draft.description.length ≤ 400

/-- The members of a response, and those of its proposal. -/
structure IsResponseObject (conversion : FloatConversion D F) (members proposal : List (Bytes × Value))
    (response : DynamicTaskResponse F) : Prop where
  keys : (members.map Prod.fst).Perm responseKeys
  version : (ascii "protocol_version", .number (decimal response.version.toNat)) ∈ members
  requestId : (ascii "request_id", .number (decimal response.requestId.toNat)) ∈ members
  agent : (ascii "agent_id", .number (decimal response.agent.toNat)) ∈ members
  snapshotSequence : (ascii "snapshot_sequence", .number (decimal response.snapshotSequence.toNat)) ∈ members
  hasProposal : (ascii "proposal", .object proposal) ∈ members
  isProposal : IsProposal conversion proposal response.proposal

def IsResponse (conversion : FloatConversion D F) (v : Value) (response : DynamicTaskResponse F) : Prop :=
  ∃ members proposal, v = .object members ∧ IsResponseObject conversion members proposal response

/-! ### Fields -/

theorem parseFloatValue_iff {start stop : ℕ} {w : Value} (h : Stands json levels start stop w) {f : F} :
    parseFloatValue conversion json start stop = some f ↔
      ∃ text, w = .number text ∧ conversion.convert text = some f := by
  obtain ⟨t, c, tail, ht, hcons, hc, hsubstr, hlt, -⟩ := h.exists_text
  have hhead : t.head? = some c := by rw [hcons, List.head?_cons]
  rw [parseFloatValue, if_neg (not_le.mpr hlt), hsubstr]
  simp only [hhead, Option.some.injEq, Option.any_some, Bool.or_eq_true, decide_eq_true_eq]
  constructor
  · intro hparse
    split_ifs at hparse with hnumber
    obtain ⟨text, rfl⟩ := number_of_begins hc hnumber
    obtain ⟨rfl, -⟩ := Spells.number ht
    exact ⟨t, rfl, hparse⟩
  · rintro ⟨text, rfl, hconvert⟩
    obtain ⟨rfl, -⟩ := Spells.number ht
    rw [if_pos (show c = '-'.toUInt8 ∨ isDigit c = true from hc), hconvert]

section Fields
variable (h : List.Forall₂ (MemberStands json levels) ms members) (hdistinct : DistinctKeys members)
include h hdistinct

/-- A field that is read at its place is read exactly if the object has a value for it of its kind. -/
theorem field_iff {α : Type} (key : Bytes) (read : JsonObjectMember → Option α) (kind : Value → Prop) (x : α)
    (hread : ∀ m w, Stands json levels m.valueStart m.valueEnd w → (read m = some x ↔ kind w)) :
    (findMember ms key).bind read = some x ↔ ∃ w, (key, w) ∈ members ∧ kind w := by
  rw [Option.bind_eq_some_iff]
  constructor
  · rintro ⟨m, hm, hx⟩
    obtain ⟨w, hw, hstands⟩ := findMember_stands h hm
    exact ⟨w, hw, (hread m w hstands).mp hx⟩
  · rintro ⟨w, hw, hx⟩
    obtain ⟨m, hm, hstands⟩ := exists_findMember h hdistinct hw
    exact ⟨m, hm, (hread m w hstands).mpr hx⟩

theorem uint64Field_iff {n : UInt64} :
    uint64Field json ms key = some n ↔ (ascii key, .number (decimal n.toNat)) ∈ members := by
  refine (field_iff h hdistinct (ascii key) _ (fun w => w = .number (decimal n.toNat)) n
    fun m w hw => parseUInt64Value_iff hw).trans ?_
  simp

theorem uint32Field_iff {n : UInt32} :
    uint32Field json ms key = some n ↔ (ascii key, .number (decimal n.toNat)) ∈ members := by
  have hwide : n.toUInt64.toNat = n.toNat := UInt32.toNat_toUInt64 n
  rw [← hwide, ← uint64Field_iff h hdistinct, uint32Field, Option.bind_eq_bind, Option.bind_eq_some_iff]
  constructor
  · rintro ⟨value, hvalue, hn⟩
    split_ifs at hn with hlarge
    cases hn
    rw [hvalue]
    have hle := UInt64.le_iff_toNat_le.mp (UInt64.not_lt.mp hlarge)
    change value.toNat ≤ 4294967295 at hle
    refine congrArg some (UInt64.toNat_inj.mp ?_)
    rw [UInt32.toNat_toUInt64, UInt64.toNat_toUInt32]
    omega
  · intro hvalue
    have hle : ¬ n.toUInt64 > 0xFFFFFFFF := by
      refine UInt64.not_lt.mpr (UInt64.le_iff_toNat_le.mpr ?_)
      rw [hwide]
      have := n.toNat_lt
      change n.toNat ≤ 4294967295
      omega
    refine ⟨_, hvalue, ?_⟩
    rw [if_neg hle]
    simp

theorem stringField_iff {s : Bytes} : stringField json ms key = some s ↔ (ascii key, .string s) ∈ members := by
  refine (field_iff h hdistinct (ascii key) _ (fun w => w = .string s) s
    fun m w hw => parseStringValue_iff hw).trans ?_
  simp

theorem floatField_iff {f : F} : floatField conversion json ms key = some f ↔
    ∃ text, (ascii key, .number text) ∈ members ∧ conversion.convert text = some f := by
  refine (field_iff h hdistinct (ascii key) _ (fun w => ∃ text, w = .number text ∧ conversion.convert text = some f) f
    fun m w hw => parseFloatValue_iff hw).trans ?_
  constructor
  · rintro ⟨w, hw, text, rfl, htext⟩
    exact ⟨text, hw, htext⟩
  · rintro ⟨text, hw, htext⟩
    exact ⟨_, hw, text, rfl, htext⟩

end Fields

section ObjectField
variable {depth : ℕ} (hdepth : maxDepth - depth = levels)
  (h : List.Forall₂ (MemberStands json (levels + 1)) ms members) (hdistinct : DistinctKeys members)
include hdepth h hdistinct

/-- A field that is an object is walked over again, for its own members. -/
theorem objectField_eq {inner : List (Bytes × Value)} (hmem : (ascii key, .object inner) ∈ members) :
    ∃ ms', objectField json ms key depth = some ms' ∧ List.Forall₂ (MemberStands json levels) ms' inner ∧
      DistinctKeys inner := by
  obtain ⟨m, hm, hstands⟩ := exists_findMember h hdistinct hmem
  obtain ⟨t, c, tail, -, -, hc, -, hlt, hfirst⟩ := hstands.exists_text
  obtain ⟨ms', hms', hmatch⟩ := hstands.parseJsonObject
  cases hc
  have hplace : ¬ (m.valueEnd ≤ m.valueStart ∨ json[m.valueStart]? ≠ some 0x7B) := by
    rintro (hle | hne)
    · exact absurd hlt (not_lt.mpr hle)
    · exact hne hfirst
  refine ⟨ms', ?_, hmatch⟩
  simp only [objectField, hm, Option.bind_eq_bind, Option.bind_some, if_neg hplace, parseObjectAt, hdepth, hms',
    if_true]

theorem objectField_sound {ms' : List JsonObjectMember} (hfield : objectField json ms key depth = some ms') :
    ∃ inner, (ascii key, .object inner) ∈ members ∧ List.Forall₂ (MemberStands json levels) ms' inner ∧
      DistinctKeys inner := by
  obtain ⟨m, hm, hrest⟩ := Option.bind_eq_some_iff.mp hfield
  obtain ⟨w, hw, hstands⟩ := findMember_stands h hm
  obtain ⟨t, c, tail, -, -, hc, -, -, hfirst⟩ := hstands.exists_text
  split_ifs at hrest with hplace
  cases hfirst.symm.trans (not_not.mp (not_or.mp hplace).2)
  obtain ⟨inner, rfl⟩ := object_of_begins hc
  obtain ⟨ms'', hms'', hmatch⟩ := objectField_eq hdepth h hdistinct hw
  cases hfield.symm.trans hms''
  exact ⟨inner, hw, hmatch⟩

end ObjectField

/-! ### The schema -/

theorem parseQuestObjectiveType_eq_some {text : Bytes} {objective : Quest.QuestObjectiveType} :
    parseQuestObjectiveType text = some objective ↔ text = ascii "KILL_CREATURE" ∧ objective = .killCreature := by
  rw [parseQuestObjectiveType, Option.ite_none_right_eq_some, Option.some.injEq, eq_comm (b := objective)]

theorem readProposal_iff (h : List.Forall₂ (MemberStands json levels) ms members) (hdistinct : DistinctKeys members)
    {draft : QuestProposalDraft F} :
    readProposal conversion json ms = some draft ↔ IsProposal conversion members draft := by
  have hkeys : hasExactKeySet ms proposalKeys = true ↔ _ := hasExactKeySet_iff h (by decide)
  simp only [readProposal, Option.bind_eq_bind, Option.bind_eq_some_iff, Option.ite_none_left_eq_some,
    Bool.not_eq_true', Bool.not_eq_false, hkeys, uint32Field_iff h hdistinct, stringField_iff h hdistinct,
    floatField_iff h hdistinct, parseQuestObjectiveType_eq_some, not_lt, Option.some.injEq]
  constructor
  · rintro ⟨hkeys, text, hobjective, _, ⟨rfl, rfl⟩, token, htoken, count, hcount, hcount', range, hrange, hpositive,
      expiry, hexpiry, hexpiry', money, hmoney, title, htitle, htitle', description, hdescription, hdescription', rfl⟩
    obtain ⟨text, htext, hconvert⟩ := hrange
    exact ⟨hkeys, ⟨hobjective, rfl⟩, htoken, hcount, hcount', ⟨text, htext, hconvert, hpositive⟩, hexpiry, hexpiry',
      hmoney, ⟨htitle, htitle'⟩, hdescription, hdescription'⟩
  · rintro ⟨hkeys, ⟨hobjective, hkind⟩, htoken, hcount, hcount', ⟨text, htext, hconvert, hpositive⟩, hexpiry, hexpiry',
      hmoney, ⟨htitle, htitle'⟩, hdescription, hdescription'⟩
    refine ⟨hkeys, _, hobjective, _, ⟨rfl, rfl⟩, _, htoken, _, hcount, hcount', _, ⟨text, htext, hconvert⟩, hpositive,
      _, hexpiry, hexpiry', _, hmoney, _, htitle, htitle', _, hdescription, hdescription', ?_⟩
    rw [← hkind]

/-- On the text of an object the parser reads exactly what the object says. -/
theorem readDynamicTaskResponse_iff (h : IsText encodeCodepoint (maxDepth + 1) json v)
    {response : DynamicTaskResponse F} :
    readDynamicTaskResponse conversion json = some response ↔ IsResponse conversion v response := by
  by_cases hobject : ∃ members, v = .object members
  · obtain ⟨members, rfl⟩ := hobject
    obtain ⟨ms, hms, hmatch, hdistinct⟩ := parseJsonRootObjectMembers_eq h
    have hkeys : hasExactKeySet ms responseKeys = true ↔ _ := hasExactKeySet_iff hmatch (by decide)
    simp only [readDynamicTaskResponse, hms, Option.bind_eq_bind, Option.bind_some, Option.bind_eq_some_iff,
      Option.ite_none_left_eq_some, Bool.not_eq_true', Bool.not_eq_false, hkeys, uint32Field_iff hmatch hdistinct,
      uint64Field_iff hmatch hdistinct, Option.some.injEq]
    have hroom : maxDepth - 1 = 31 := rfl
    constructor
    · rintro ⟨hkeys, version, hversion, requestId, hrequestId, agent, hagent, sequence, hsequence, inner, hinner,
        draft, hdraft, rfl⟩
      obtain ⟨proposal, hproposal, hmatch', hdistinct'⟩ := objectField_sound hroom hmatch hdistinct hinner
      exact ⟨members, proposal, rfl, hkeys, hversion, hrequestId, hagent, hsequence, hproposal,
        (readProposal_iff hmatch' hdistinct').mp hdraft⟩
    · rintro ⟨_, proposal, heq, hkeys, hversion, hrequestId, hagent, hsequence, hproposal, hdraft⟩
      cases heq
      obtain ⟨inner, hinner, hmatch', hdistinct'⟩ := objectField_eq hroom hmatch hdistinct hproposal
      exact ⟨hkeys, _, hversion, _, hrequestId, _, hagent, _, hsequence, inner, hinner, _,
        (readProposal_iff hmatch' hdistinct').mpr hdraft, rfl⟩
  · rw [readDynamicTaskResponse, parseJsonRootObjectMembers_other h fun members heq => hobject ⟨members, heq⟩]
    constructor
    · intro hnone
      contradiction
    · rintro ⟨members, _, heq, _⟩
      exact absurd ⟨members, heq⟩ hobject

/-! ### Order -/

theorem IsProposal.reordered {members' : List (Bytes × Value)} {draft : QuestProposalDraft F}
    (h : IsProposal conversion members draft) (hkeys : (members'.map Prod.fst).Perm (members.map Prod.fst))
    (hmembers : ∀ key v, (key, v) ∈ members → ∃ w, (key, w) ∈ members' ∧ Reordered v w) :
    IsProposal conversion members' draft := by
  have hnumber {key text : Bytes} (hmem : (key, .number text) ∈ members) : (key, .number text) ∈ members' := by
    obtain ⟨w, hw, hreordered⟩ := hmembers key _ hmem
    rwa [hreordered.scalar (by simp) (by simp)] at hw
  have hstring {key text : Bytes} (hmem : (key, .string text) ∈ members) : (key, .string text) ∈ members' := by
    obtain ⟨w, hw, hreordered⟩ := hmembers key _ hmem
    rwa [hreordered.scalar (by simp) (by simp)] at hw
  obtain ⟨text, htext, hconvert⟩ := h.maxRangeYards
  exact ⟨hkeys.trans h.keys, h.objective.imp_left hstring, hnumber h.targetToken, hnumber h.requiredCount,
    h.requiredCount_ne, ⟨text, hnumber htext, hconvert⟩, hnumber h.expiryMs, h.expiryMs_ne,
    hnumber h.rewardMoneyCopper, h.title.imp_left hstring, h.description.imp_left hstring⟩

/-- What a text says does not depend on the order of its members. -/
theorem IsResponse.reordered {response : DynamicTaskResponse F} (h : IsResponse conversion v response)
    (hv : Reordered v v') : IsResponse conversion v' response := by
  obtain ⟨members, proposal, rfl, h⟩ := h
  obtain ⟨members', rfl, hkeys, hmembers⟩ := hv.object
  have hnumber {key text : Bytes} (hmem : (key, .number text) ∈ members) : (key, .number text) ∈ members' := by
    obtain ⟨w, hw, hreordered⟩ := hmembers key _ hmem
    rwa [hreordered.scalar (by simp) (by simp)] at hw
  obtain ⟨w, hw, hreordered⟩ := hmembers _ _ h.hasProposal
  obtain ⟨proposal', rfl, hkeys', hmembers'⟩ := hreordered.object
  exact ⟨members', proposal', rfl, hkeys.trans h.keys, hnumber h.version, hnumber h.requestId, hnumber h.agent,
    hnumber h.snapshotSequence, hw, h.isProposal.reordered hkeys' hmembers'⟩

/-! ### The parser -/

/-- The parser answers for exactly the texts of a response with at most 32 levels of nesting, whatever
the order and spacing, and leaves the response alone when it does not answer. -/
theorem parseDynamicTaskResponse_exact (conversion : FloatConversion D F) (json : Bytes)
    (response : DynamicTaskResponse F) :
    ((parseDynamicTaskResponse conversion json response).1 = true ↔
      ∃ v parsed, IsText encodeCodepoint (maxDepth + 1) json v ∧ IsResponse conversion v parsed) ∧
    (∀ v parsed, IsText encodeCodepoint (maxDepth + 1) json v → IsResponse conversion v parsed →
      parseDynamicTaskResponse conversion json response = (true, parsed)) ∧
    ((parseDynamicTaskResponse conversion json response).1 = false →
      (parseDynamicTaskResponse conversion json response).2 = response) ∧
    ∀ json' v v', IsText encodeCodepoint (maxDepth + 1) json v → IsText encodeCodepoint (maxDepth + 1) json' v' →
      Reordered v v' →
      parseDynamicTaskResponse conversion json' response = parseDynamicTaskResponse conversion json response := by
  have hread {json : Bytes} {parsed} (h : readDynamicTaskResponse conversion json = some parsed) :
      parseDynamicTaskResponse conversion json response = (true, parsed) := by
    rw [parseDynamicTaskResponse, h]
  refine ⟨⟨fun htrue => ?_, ?_⟩, fun v parsed hv hparsed => ?_, fun hfalse => ?_, fun json' v v' hv hv' horder => ?_⟩
  · cases hparsed : readDynamicTaskResponse conversion json with
    | none =>
      rw [parseDynamicTaskResponse, hparsed] at htrue
      contradiction
    | some parsed =>
      obtain ⟨ms, hms, -⟩ := Option.bind_eq_some_iff.mp hparsed
      obtain ⟨members, hmembers⟩ := parseJsonRootObjectMembers_sound hms
      exact ⟨_, parsed, hmembers, (readDynamicTaskResponse_iff hmembers).mp hparsed⟩
  · rintro ⟨v, parsed, hv, hparsed⟩
    rw [hread ((readDynamicTaskResponse_iff hv).mpr hparsed)]
  · exact hread ((readDynamicTaskResponse_iff hv).mpr hparsed)
  · cases hparsed : readDynamicTaskResponse conversion json with
    | none => rw [parseDynamicTaskResponse, hparsed]
    | some parsed =>
      rw [hread hparsed] at hfalse
      contradiction
  · have hsame : readDynamicTaskResponse conversion json' = readDynamicTaskResponse conversion json := by
      refine Option.ext fun parsed => ?_
      rw [readDynamicTaskResponse_iff hv, readDynamicTaskResponse_iff hv']
      exact ⟨fun h => h.reordered horder.symm, fun h => h.reordered horder⟩
    rw [parseDynamicTaskResponse, hsame, ← parseDynamicTaskResponse]

/-- Numbers that are read as integers. -/
def wholeNumbers : FloatConversion ℕ ℕ where
  stod token := if token.all isDigit then some (digitsValue token, token.length) else none
  isFinite _ := true
  inFloatRange _ := true
  narrow := id
  isFiniteFloat _ := true
  isPositive n := n ≠ 0

/-- With white space, escapes, and the members in some order. -/
def sampleResponse : Bytes := ascii <|
  " \x7b\"proposal\":\x7b\"title\": \"A \\u0041\\n\", \"objective\":\"KILL_CREATURE\",\"description\":\"\"," ++
  "\"target_token\":3,\"required_count\":5,\"max_range_yards\":40,\"expiry_ms\":60000," ++
  "\"reward_money_copper\":0\x7d,\n\"protocol_version\":1,\"request_id\":18446744073709551615," ++
  "\"agent_id\":9,\"snapshot_sequence\":0\x7d"

theorem parseDynamicTaskResponse_exact_sample : ∃ v parsed, IsText encodeCodepoint 33 sampleResponse v ∧
    IsResponse wholeNumbers v parsed := by
  let blank : DynamicTaskResponse ℕ := ⟨1, 0, 0, 0, ⟨.invalid, 0, 0, 0, 0, 0, [], []⟩⟩
  have haccepted : (parseDynamicTaskResponse wholeNumbers sampleResponse blank).1 = true := by decide +kernel
  exact (parseDynamicTaskResponse_exact wholeNumbers sampleResponse blank).1.mp haccepted

end AIWorld.Inference
