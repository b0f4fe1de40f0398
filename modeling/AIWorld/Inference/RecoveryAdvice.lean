import AIWorld.Inference.DynamicTaskRoundTrip
import AIWorld.Lib.Binary32Text

/-! Advice on recovery: the options that the game server offers, how they are written for the AI server, and how
its choice is read. Floats are written by the stream with its six digits. -/

namespace AIWorld.Inference

open Lib.Json
open Lib (Binary32.text Binary32.value Binary32.exists_text)

/-- The token is local to its request; geometry and bindings stay with the server. -/
structure RecoveryAdviceOption where
  token : UInt32
  strategy : Bytes
  x : Float32
  y : Float32
  z : Float32
  distance : Float32
  homeGain : Float32
  nearbyPrey : UInt32
  visits : UInt32
  successes : UInt32

structure RecoveryAdviceRequest where
  requestId : UInt64
  episode : UInt64
  agent : UInt64
  role : Bytes
  problem : Bytes
  failure : Bytes
  hunger : Float32
  homeDistance : Float32
  failures : UInt32
  stalledMs : UInt64
  options : List RecoveryAdviceOption

/-- The token zero declines all offered options. -/
structure RecoveryAdviceResponse where
  requestId : UInt64
  episode : UInt64
  agent : UInt64
  token : UInt32
  deriving DecidableEq

/-! ### Writing -/

def serializeOption (option : RecoveryAdviceOption) : Bytes :=
  let head := ascii "\x7b\"token\":" ++ decimal option.token.toNat ++ ascii ",\"strategy\":"
  appendEscapedJsonString head option.strategy ++
    ascii ",\"dx\":" ++ Binary32.text option.x ++ ascii ",\"dy\":" ++ Binary32.text option.y ++
    ascii ",\"dz\":" ++ Binary32.text option.z ++
    ascii ",\"distance\":" ++ Binary32.text option.distance ++
    ascii ",\"home_gain\":" ++ Binary32.text option.homeGain ++
    ascii ",\"nearby_prey\":" ++ decimal option.nearbyPrey.toNat ++
    ascii ",\"visits\":" ++ decimal option.visits.toNat ++
    ascii ",\"successes\":" ++ decimal option.successes.toNat ++ ascii "\x7d"

/-- The three texts, one after the other. -/
def appendTexts (out : Bytes) (request : RecoveryAdviceRequest) : Bytes :=
  [("role", request.role), ("problem", request.problem), ("failure", request.failure)].foldl
    (fun out field => appendEscapedJsonString (out ++ ascii ",\"" ++ ascii field.1 ++ ascii "\":") field.2) out

def serializeRecoveryAdvice (request : RecoveryAdviceRequest) : Bytes :=
  let head := ascii "\x7b\"protocol_version\":1,\"request_id\":" ++ decimal request.requestId.toNat ++
    ascii ",\"agent_id\":" ++ decimal request.agent.toNat ++ ascii ",\"episode\":" ++ decimal request.episode.toNat
  appendTexts head request ++
    ascii ",\"hunger\":" ++ Binary32.text request.hunger ++
    ascii ",\"home_distance\":" ++ Binary32.text request.homeDistance ++
    ascii ",\"stalled_ms\":" ++ decimal request.stalledMs.toNat ++
    ascii ",\"failures\":" ++ decimal request.failures.toNat ++ ascii ",\"options\":[" ++
    joined serializeOption request.options ++ ascii "]\x7d"

/-! ### Reading -/

def adviceKeys : List Bytes := ["protocol_version", "request_id", "agent_id", "episode", "choice"].map ascii

def parseRecoveryAdvice (json : Bytes) : Option RecoveryAdviceResponse :=
  if json.length > 4096 then none
  else do
    let members ← parseJsonRootObjectMembers json
    if !hasExactKeySet members adviceKeys then none
    else
      let version ← uint64Field json members "protocol_version"
      let requestId ← uint64Field json members "request_id"
      let agent ← uint64Field json members "agent_id"
      let episode ← uint64Field json members "episode"
      let choice ← uint64Field json members "choice"
      if version ≠ 1 ∨ requestId = 0 ∨ agent = 0 ∨ episode = 0 ∨ choice > 8 then none
      else some { requestId, episode, agent, token := choice.toUInt32 }

def matchesRecoveryAdvice (request : RecoveryAdviceRequest) (response : RecoveryAdviceResponse) : Bool :=
  if request.requestId = 0 ∨ response.requestId ≠ request.requestId ∨ response.agent ≠ request.agent ∨
      response.episode ≠ request.episode then false
  else if response.token = 0 then true
  else request.options.any fun option => option.token = response.token

/-! ### The text as an object -/

def optionFields (option : RecoveryAdviceOption) : List Field :=
  [integerMember "token" option.token.toNat, textMember "strategy" option.strategy,
    numberMember "dx" (Binary32.text option.x), numberMember "dy" (Binary32.text option.y),
    numberMember "dz" (Binary32.text option.z), numberMember "distance" (Binary32.text option.distance),
    numberMember "home_gain" (Binary32.text option.homeGain), integerMember "nearby_prey" option.nearbyPrey.toNat,
    integerMember "visits" option.visits.toNat, integerMember "successes" option.successes.toNat]

def adviceFields (request : RecoveryAdviceRequest) : List Field :=
  [integerMember "protocol_version" 1, integerMember "request_id" request.requestId.toNat,
    integerMember "agent_id" request.agent.toNat, integerMember "episode" request.episode.toNat,
    textMember "role" request.role, textMember "problem" request.problem, textMember "failure" request.failure,
    numberMember "hunger" (Binary32.text request.hunger),
    numberMember "home_distance" (Binary32.text request.homeDistance),
    integerMember "stalled_ms" request.stalledMs.toNat, integerMember "failures" request.failures.toNat,
    arrayMember "options" optionFields request.options]

theorem serializeOption_eq (option : RecoveryAdviceOption) :
    serializeOption option = writeObject (optionFields option) := by
  simp only [serializeOption, appendEscapedJsonString, optionFields, textMember, integerMember, numberMember,
    writeObject, joined, Field.write, List.append_assoc, List.cons_append, List.nil_append]
  rfl

theorem serializeRecoveryAdvice_eq (request : RecoveryAdviceRequest) :
    serializeRecoveryAdvice request = writeObject (adviceFields request) := by
  have hoptions : serializeOption = fun option => writeObject (optionFields option) := funext serializeOption_eq
  have hversion : decimal 1 = ascii "1" := by decide
  simp only [serializeRecoveryAdvice, appendTexts, List.foldl_cons, List.foldl_nil, hoptions, adviceFields, arrayMember,
    writeArray, integerMember, hversion]
  generalize joined (fun option => writeObject (optionFields option)) request.options = options
  simp only [appendEscapedJsonString, writeObject, joined, Field.write, textMember, numberMember, List.append_assoc,
    List.cons_append, List.nil_append]
  rfl

theorem nodup_option (option : RecoveryAdviceOption) : ((optionFields option).map Field.key).Nodup := by
  change (["token", "strategy", "dx", "dy", "dz", "distance", "home_gain", "nearby_prey", "visits",
    "successes"].map ascii).Nodup
  decide

theorem nodup_advice (request : RecoveryAdviceRequest) : ((adviceFields request).map Field.key).Nodup := by
  change (["protocol_version", "request_id", "agent_id", "episode", "role", "problem", "failure", "hunger",
    "home_distance", "stalled_ms", "failures", "options"].map ascii).Nodup
  decide

/-- All floats of an option are finite. -/
def FiniteOption (option : RecoveryAdviceOption) : Prop :=
  ∀ f ∈ [option.x, option.y, option.z, option.distance, option.homeGain], (Binary32.value f).isSome = true

structure FiniteAdvice (request : RecoveryAdviceRequest) : Prop where
  hunger : (Binary32.value request.hunger).isSome = true
  homeDistance : (Binary32.value request.homeDistance).isSome = true
  options : ∀ option ∈ request.options, FiniteOption option

theorem isNumber_text {f : Float32} (h : (Binary32.value f).isSome = true) : IsNumber (Binary32.text f) := by
  obtain ⟨q, hq⟩ := Option.isSome_iff_exists.mp h
  obtain ⟨negative, magnitude, -, htext, -⟩ := Binary32.exists_text hq
  rw [htext]
  exact Lib.Significant.isNumber_sixDigitText negative magnitude

theorem isWritten_option {levels : ℕ} {option : RecoveryAdviceOption} (h : FiniteOption option) :
    ∀ field ∈ optionFields option, IsWritten (levels + 1) field := by
  simp only [FiniteOption, List.forall_mem_cons] at h
  obtain ⟨hx, hy, hz, hdistance, hgain, -⟩ := h
  simp only [optionFields, List.forall_mem_cons]
  exact ⟨isWritten_integer (by decide) _, isWritten_text (by decide) _, isWritten_number (by decide) (isNumber_text hx),
    isWritten_number (by decide) (isNumber_text hy), isWritten_number (by decide) (isNumber_text hz),
    isWritten_number (by decide) (isNumber_text hdistance), isWritten_number (by decide) (isNumber_text hgain),
    isWritten_integer (by decide) _, isWritten_integer (by decide) _, isWritten_integer (by decide) _, by simp⟩

/-- The text is one object without duplicate keys. -/
theorem isText_advice {levels : ℕ} {request : RecoveryAdviceRequest} (h : FiniteAdvice request) :
    Lib.Json.IsText encodeCodepoint (levels + 4) (serializeRecoveryAdvice request)
      (.object ((adviceFields request).map Field.member)) := by
  rw [serializeRecoveryAdvice_eq]
  refine ⟨[], _, [], by simp, white_nil, white_nil, spells_fields (nodup_advice request) ?_⟩
  simp only [adviceFields, List.forall_mem_cons]
  exact ⟨isWritten_integer (by decide) _, isWritten_integer (by decide) _, isWritten_integer (by decide) _,
    isWritten_integer (by decide) _, isWritten_text (by decide) _, isWritten_text (by decide) _,
    isWritten_text (by decide) _, isWritten_number (by decide) (isNumber_text h.hunger),
    isWritten_number (by decide) (isNumber_text h.homeDistance), isWritten_integer (by decide) _,
    isWritten_integer (by decide) _, isWritten_array (by decide) (fun option _ => nodup_option option)
      fun option hoption => isWritten_option (h.options option hoption), by simp⟩

/-! ### What is read -/

/-- The members of an answer. -/
def choiceFields (requestId agent episode choice : ℕ) : List Field :=
  [integerMember "protocol_version" 1, integerMember "request_id" requestId, integerMember "agent_id" agent,
    integerMember "episode" episode, integerMember "choice" choice]

theorem nodup_choice (requestId agent episode choice : ℕ) :
    ((choiceFields requestId agent episode choice).map Field.key).Nodup := by
  change adviceKeys.Nodup
  decide

theorem isWritten_choice (requestId agent episode choice : ℕ) :
    ∀ field ∈ choiceFields requestId agent episode choice, IsWritten maxDepth field := by
  simp only [choiceFields, List.forall_mem_cons]
  exact ⟨isWritten_integer (by decide) _, isWritten_integer (by decide) _, isWritten_integer (by decide) _,
    isWritten_integer (by decide) _, isWritten_integer (by decide) _, by simp⟩

theorem length_member (key : String) {n : ℕ} (hn : n < 2 ^ 64) (hkey : (ascii key).length ≤ 16) :
    (integerMember key n).write.length ≤ 39 := by
  have hdigits := Lib.Significant.length_decimal_le (by decide : 1 ≤ 20) (lt_trans hn (by norm_num) : n < 10 ^ 20)
  simp only [integerMember, Field.write, List.length_cons, List.length_append]
  omega

/-- An object that is written is the root of its text. -/
theorem written_root {fields : List Field} (hnodup : (fields.map Field.key).Nodup)
    (h : ∀ field ∈ fields, IsWritten maxDepth field) :
    ∃ ms, parseJsonRootObjectMembers (writeObject fields) = some ms ∧ Written (writeObject fields) maxDepth ms fields := by
  have htext : Lib.Json.IsText encodeCodepoint (maxDepth + 1) (writeObject fields) (.object (fields.map Field.member)) :=
    ⟨[], _, [], by simp, white_nil, white_nil, spells_fields hnodup h⟩
  obtain ⟨ms, hms, hmatch, hdistinct⟩ := parseJsonRootObjectMembers_eq htext
  exact ⟨ms, hms, hmatch, hdistinct⟩

/-- An answer for a positive request, agent and episode with a choice among eight tokens is read as it is. -/
theorem parseRecoveryAdvice_choice {requestId agent episode : UInt64} {choice : UInt32} (hrequest : requestId ≠ 0)
    (hagent : agent ≠ 0) (hepisode : episode ≠ 0) (hchoice : choice ≤ 8) :
    parseRecoveryAdvice (writeObject (choiceFields requestId.toNat agent.toNat episode.toNat choice.toNat)) =
      some ⟨requestId, episode, agent, choice⟩ := by
  have hwide : choice.toUInt64.toNat = choice.toNat := UInt32.toNat_toUInt64 choice
  have hsmall : ¬choice.toUInt64 > 8 := by
    rw [gt_iff_lt, UInt64.not_lt, UInt64.le_iff_toNat_le, hwide]
    exact UInt32.le_iff_toNat_le.mp hchoice
  have hlength : (writeObject (choiceFields requestId.toNat agent.toNat episode.toNat choice.toNat)).length ≤ 4096 := by
    have hversion : (integerMember "protocol_version" 1).write.length ≤ 39 := length_member _ (by decide) (by decide)
    have hrequest' := length_member "request_id" requestId.toNat_lt (by decide)
    have hagent' := length_member "agent_id" agent.toNat_lt (by decide)
    have hepisode' := length_member "episode" episode.toNat_lt (by decide)
    have hchoice' := length_member "choice" (lt_trans choice.toNat_lt (by decide)) (by decide)
    simp only [choiceFields, writeObject, joined, List.length_cons, List.length_append, List.length_nil]
    omega
  rw [← hwide] at hlength ⊢
  obtain ⟨ms, hms, hwritten⟩ := written_root (nodup_choice requestId.toNat agent.toNat episode.toNat _)
    (isWritten_choice requestId.toNat agent.toNat episode.toNat choice.toUInt64.toNat)
  have hkeys : hasExactKeySet ms adviceKeys = true := by
    refine (hasExactKeySet_iff hwritten.members (by decide)).mpr ?_
    rw [List.map_map]
    exact .refl _
  have hversion : uint64Field _ ms "protocol_version" = some 1 := hwritten.uint64 (by simp [choiceFields])
  have hrequest' : uint64Field _ ms "request_id" = some requestId := hwritten.uint64 (by simp [choiceFields])
  have hagent' : uint64Field _ ms "agent_id" = some agent := hwritten.uint64 (by simp [choiceFields])
  have hepisode' : uint64Field _ ms "episode" = some episode := hwritten.uint64 (by simp [choiceFields])
  have hchoice' : uint64Field _ ms "choice" = some choice.toUInt64 := hwritten.uint64 (by simp [choiceFields])
  rw [parseRecoveryAdvice, if_neg (not_lt.mpr hlength), hms]
  simp only [Option.bind_eq_bind, Option.bind_some, hkeys, Bool.not_true, Bool.false_eq_true, if_false, hversion,
    hrequest', hagent', hepisode', hchoice']
  rw [if_neg (by simp [hrequest, hagent, hepisode, UInt64.not_lt.mp hsmall])]
  simp

end AIWorld.Inference
