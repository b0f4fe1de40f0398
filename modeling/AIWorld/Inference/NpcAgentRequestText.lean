import AIWorld.Inference.NpcAgentJsonCodec
import AIWorld.Lib.Json.Decimal
import AIWorld.Lib.Json.Render
import AIWorld.Lib.Shedding
import Mathlib.Algebra.Order.BigOperators.Group.List
import Mathlib.Data.Prod.Lex

/-! The text of an agent's request. A request that is too long is written once more without its least
relevant memory, until it fits or has no memory left. Floats are written by the stream, which is left open. -/

namespace AIWorld.Inference

open Lib
open Lib.Json (Bytes ascii decimal joined)
open Lib.Selection (select)
open Lib.Shedding (kept shed shed_of_fits shed_of_select shed_nil shed_spec)

def npcAgentRequestBodyLimit : ℕ := 32768

/-! ### Writing -/

def truth (b : Bool) : Bytes := if b then ascii "true" else ascii "false"

def dialogueText (line : NpcAgentDialogue) : Bytes :=
  ascii "\x7b\"speaker\":" ++ quoted line.speaker ++ ascii ",\"text\":" ++ quoted line.text ++
    ascii ",\"kind\":" ++ quoted line.kind ++ ascii "\x7d"

def actionText (action : NpcAgentAction) : Bytes :=
  ascii "\x7b\"token\":" ++ decimal action.token.toNat ++ ascii ",\"type\":" ++ quoted action.type ++
    ascii ",\"description\":" ++ quoted action.description ++ ascii "\x7d"

def turnText (turn : NpcAgentSpeechTurn) : Bytes :=
  ascii "\x7b\"id\":" ++ decimal turn.id.toNat ++ ascii ",\"speaker\":" ++ quoted turn.speaker ++
    ascii ",\"recipient_token\":" ++ decimal turn.recipientToken.toNat ++ ascii ",\"text\":" ++ quoted turn.text ++
    ascii "\x7d"

def speechText (speech : NpcAgentSpeechContext) : Bytes :=
  ascii ",\"speech\":\x7b\"mode\":" ++ quoted speech.mode ++ ascii ",\"turn\":" ++
    speech.turn.elim (ascii "null") turnText ++ ascii "\x7d"

def memoryText (memory : NpcAgentMemory) : Bytes :=
  ascii "\x7b\"id\":" ++ decimal memory.id.toNat ++ ascii ",\"age_ms\":" ++ decimal memory.ageMs.toNat ++
    ascii ",\"kind\":" ++ quoted memory.kind ++ ascii ",\"speaker\":" ++ quoted memory.speaker ++
    ascii ",\"text\":" ++ quoted memory.text ++ ascii ",\"response\":" ++ quoted memory.response ++ ascii "\x7d"

def memoriesText (memories : List NpcAgentMemory) : Bytes :=
  if memories.isEmpty then [] else ascii ",\"memories\":[" ++ joined memoryText memories ++ ascii "]"

section Floats
variable {F : Type} (format : F → Bytes)

def nearbyText (entity : NpcAgentNearby F) : Bytes :=
  ascii "\x7b\"token\":" ++ decimal entity.token.toNat ++ ascii ",\"name\":" ++ quoted entity.name ++
    ascii ",\"kind\":" ++ quoted entity.kind ++ ascii ",\"distance\":" ++ format entity.distance ++ ascii "\x7d"

def profileText (profile : NpcAgentProfileContext) : Bytes :=
  ascii "\x7b\"name\":" ++ quoted profile.name ++ ascii ",\"backstory\":" ++ quoted profile.backstory ++
    ascii ",\"personality\":" ++ quoted profile.personality ++ ascii "\x7d"

def needsText (needs : NeedsState F) : Bytes :=
  ascii "\x7b\"health_pressure\":" ++ format needs.healthPressure ++ ascii ",\"hunger\":" ++ format needs.hunger ++
    ascii ",\"fatigue\":" ++ format needs.fatigue ++ ascii ",\"safety_pressure\":" ++ format needs.safetyPressure ++
    ascii ",\"resource_pressure\":" ++ format needs.resourcePressure ++ ascii "\x7d"

def selfText (self : NpcAgentSelf F) : Bytes :=
  ascii "\x7b\"map_id\":" ++ decimal self.mapId.toNat ++ ascii ",\"position\":\x7b\"x\":" ++ format self.x ++
    ascii ",\"y\":" ++ format self.y ++ ascii ",\"z\":" ++ format self.z ++
    ascii ",\"orientation\":" ++ format self.orientation ++ ascii "\x7d,\"health\":" ++ decimal self.health.toNat ++
    ascii ",\"max_health\":" ++ decimal self.maxHealth.toNat ++ ascii ",\"alive\":" ++ truth self.alive ++
    ascii ",\"in_combat\":" ++ truth self.inCombat ++ ascii ",\"current_action\":" ++ quoted self.currentAction ++
    ascii ",\"last_action_result\":" ++ quoted self.lastActionResult ++ ascii "\x7d"

def contextText (context : NpcAgentContext F) : Bytes :=
  ascii "\x7b\"profile\":" ++ profileText context.profile ++ ascii ",\"needs\":" ++ needsText format context.needs ++
    ascii ",\"self\":" ++ selfText format context.self ++
    ascii ",\"recent_dialogue\":[" ++ joined dialogueText context.recentDialogue ++
    ascii "],\"nearby\":[" ++ joined (nearbyText format) context.nearby ++
    ascii "],\"actions\":[" ++ joined actionText context.actions ++
    ascii "],\"emotes\":[" ++ joined quoted context.emotes ++
    ascii "],\"speech_targets\":[" ++ joined (fun target => decimal target.toNat) context.speechTargets ++ ascii "]" ++
    context.speech.elim [] speechText ++ memoriesText context.memories ++ ascii "\x7d"

/-- The text, whatever its length. -/
def requestText (request : NpcAgentRequest F) : Bytes :=
  ascii "\x7b\"protocol_version\":" ++ decimal request.protocolVersion.toNat ++
    ascii ",\"request_id\":" ++ decimal request.requestId.toNat ++ ascii ",\"agent_id\":" ++ decimal request.agent.toNat ++
    ascii ",\"snapshot_sequence\":" ++ decimal request.snapshotSequence.toNat ++
    ascii ",\"context\":" ++ contextText format request.context ++ ascii "\x7d"

end Floats

/-! ### Shedding -/

/-- The comparison by which the memory to shed is chosen. -/
def lessRelevant (a b : NpcAgentMemory) : Bool :=
  if a.relevance ≠ b.relevance then a.relevance < b.relevance else a.id < b.id

def NpcAgentRequest.withMemories {F : Type} (request : NpcAgentRequest F) (memories : List NpcAgentMemory) :
    NpcAgentRequest F :=
  { request with context := { request.context with memories } }

section Serialize
variable {F : Type}

/-- The recursion, over how a request is checked and how it is written. -/
def serializeLoop (valid : NpcAgentRequest F → Bool) (text : NpcAgentRequest F → Bytes)
    (request : NpcAgentRequest F) : Bytes :=
  if !valid request then []
  else
    let result := text request
    if result.length ≤ npcAgentRequestBodyLimit then result
    else
      match _h : select lessRelevant request.context.memories with
      | none => []
      | some least => serializeLoop valid text (request.withMemories (request.context.memories.erase least))
termination_by request.context.memories.length
decreasing_by
  have hleast := Shedding.select_mem _h
  have hpos := List.length_pos_of_mem hleast
  rw [NpcAgentRequest.withMemories, List.length_erase_of_mem hleast]
  omega

def serializeNpcAgentRequest (tests : FloatTests F) (format : F → Bytes) (request : NpcAgentRequest F) : Bytes :=
  serializeLoop (validRequest tests) (requestText format) request

/-- The rank of a memory: relevance first, then the id. -/
def memoryRank (memory : NpcAgentMemory) : ℕ ×ₗ ℕ := toLex (memory.relevance.toNat, memory.id.toNat)

theorem lessRelevant_iff (a b : NpcAgentMemory) : lessRelevant a b = true ↔ memoryRank a < memoryRank b := by
  rw [memoryRank, memoryRank, Prod.Lex.toLex_lt_toLex]
  unfold lessRelevant
  split_ifs with hne
  · rw [decide_eq_true_eq, UInt32.lt_iff_toNat_lt]
    have hne' : a.relevance.toNat ≠ b.relevance.toNat := fun heq => hne (UInt32.toNat_inj.mp heq)
    exact ⟨.inl, fun h => h.resolve_right fun h => hne' h.1⟩
  · rw [decide_eq_true_eq, UInt64.lt_iff_toNat_lt, not_not.mp hne]
    simp

/-- Memories with ids of their own have ranks of their own. -/
theorem nodup_rank {memories : List NpcAgentMemory} (h : (memories.map NpcAgentMemory.id).Nodup) :
    (memories.map memoryRank).Nodup := by
  refine List.Nodup.of_map (fun rank => (ofLex rank).2) ?_
  rw [List.map_map]
  have hnat : ((memories.map NpcAgentMemory.id).map UInt64.toNat).Nodup := h.map fun a b => UInt64.toNat_inj.mp
  rwa [List.map_map] at hnat

/-- A request with these memories is short enough. -/
def fitsWith (text : NpcAgentRequest F → Bytes) (request : NpcAgentRequest F) (memories : List NpcAgentMemory) :
    Bool :=
  (text (request.withMemories memories)).length ≤ npcAgentRequestBodyLimit

section Loop
variable {valid : NpcAgentRequest F → Bool} {text : NpcAgentRequest F → Bytes} {request : NpcAgentRequest F}

theorem serializeLoop_of_fits (h : valid request = true) (hfits : (text request).length ≤ npcAgentRequestBodyLimit) :
    serializeLoop valid text request = text request := by
  rw [serializeLoop, h]
  exact if_pos hfits

theorem serializeLoop_of_long (h : valid request = true) (hlong : ¬(text request).length ≤ npcAgentRequestBodyLimit)
    {least : NpcAgentMemory} (hselect : select lessRelevant request.context.memories = some least) :
    serializeLoop valid text request =
      serializeLoop valid text (request.withMemories (request.context.memories.erase least)) := by
  rw [serializeLoop, h, Bool.not_true, if_neg Bool.false_ne_true]
  dsimp only
  rw [if_neg hlong]
  split
  next hnone =>
    rw [hselect] at hnone
    contradiction
  next b hb =>
    rw [hselect] at hb
    cases hb
    rfl

theorem serializeLoop_of_none (h : valid request = true) (hlong : ¬(text request).length ≤ npcAgentRequestBodyLimit)
    (hselect : select lessRelevant request.context.memories = none) : serializeLoop valid text request = [] := by
  rw [serializeLoop, h, Bool.not_true, if_neg Bool.false_ne_true]
  dsimp only
  rw [if_neg hlong]
  split
  · rfl
  next b hb =>
    rw [hselect] at hb
    contradiction

/-- What is written is the request with the memories that shedding leaves, as long as every request on the
way is valid. -/
theorem serializeLoop_eq_shed {memories : List NpcAgentMemory}
    (h : ∀ memories', memories'.Sublist memories → valid (request.withMemories memories') = true) :
    serializeLoop valid text (request.withMemories memories) =
      (shed (fitsWith text request) lessRelevant memories).elim []
        fun memories => text (request.withMemories memories) := by
  induction hn : memories.length using Nat.strong_induction_on generalizing memories with
  | _ n ih =>
    have hvalid := h memories (List.Sublist.refl _)
    by_cases hfits : (text (request.withMemories memories)).length ≤ npcAgentRequestBodyLimit
    · rw [serializeLoop_of_fits hvalid hfits, shed_of_fits (decide_eq_true hfits), Option.elim_some]
    · cases hselect : select lessRelevant memories with
      | none =>
        cases Selection.select_eq_none_iff.mp hselect
        rw [serializeLoop_of_none hvalid hfits hselect, shed_nil (decide_eq_false hfits), Option.elim_none]
      | some least =>
        have hleast := Shedding.select_mem hselect
        have hlength : (memories.erase least).length < n := by
          have hpos := List.length_pos_of_mem hleast
          rw [List.length_erase_of_mem hleast]
          omega
        rw [serializeLoop_of_long hvalid hfits hselect, shed_of_select (decide_eq_false hfits) hselect]
        exact ih _ hlength (fun memories' hsub => h memories' (hsub.trans List.erase_sublist)) rfl

end Loop

section Request
variable {tests : FloatTests F} {format : F → Bytes} {request : NpcAgentRequest F}

theorem validMemories_sublist {speech : Option NpcAgentSpeechContext} {memories memories' : List NpcAgentMemory}
    (h : validMemories speech memories = true) (hsub : memories'.Sublist memories) :
    validMemories speech memories' = true := by
  rw [validMemories_iff] at h ⊢
  obtain ⟨hlength, hall, hids, hbytes⟩ := h
  refine ⟨hsub.length_le.trans hlength, fun memory hmem => hall memory (hsub.subset hmem), hids.sublist (hsub.map _), ?_⟩
  exact ((hsub.map NpcAgentMemory.bytes).sum_le_sum fun _ _ => Nat.zero_le _).trans hbytes

/-- A valid request stays valid with fewer memories. -/
theorem validRequest_withMemories {memories : List NpcAgentMemory} (h : validRequest tests request = true)
    (hsub : memories.Sublist request.context.memories) :
    validRequest tests (request.withMemories memories) = true := by
  simp only [validRequest, Bool.and_eq_true] at h ⊢
  exact ⟨h.1, validMemories_sublist h.2 hsub⟩

theorem nodup_memoryRank (h : validRequest tests request = true) :
    (request.context.memories.map memoryRank).Nodup := by
  simp only [validRequest, Bool.and_eq_true] at h
  exact nodup_rank (validMemories_iff.mp h.2).2.2.1

theorem requestText_ne_nil (format : F → Bytes) (request : NpcAgentRequest F) : requestText format request ≠ [] := by
  exact List.append_ne_nil_of_right_ne_nil _ (List.cons_ne_nil _ _)

/-- The text of a valid request is the one without the fewest of its least ranked memories that leave a text
short enough. There is none only where even a text without memories is too long. -/
theorem serialize_sheds (h : validRequest tests request = true) :
    (serializeNpcAgentRequest tests format request).length ≤ npcAgentRequestBodyLimit ∧
    (∃ k ≤ request.context.memories.length,
      (∀ j < k, npcAgentRequestBodyLimit <
        (requestText format (request.withMemories (kept memoryRank request.context.memories j))).length) ∧
      (serializeNpcAgentRequest tests format request =
          requestText format (request.withMemories (kept memoryRank request.context.memories k)) ∨
        k = request.context.memories.length ∧ serializeNpcAgentRequest tests format request = [])) ∧
    (serializeNpcAgentRequest tests format request = [] →
      npcAgentRequestBodyLimit < (requestText format (request.withMemories [])).length) := by
  have heq : serializeNpcAgentRequest tests format request =
      (shed (fitsWith (requestText format) request) lessRelevant request.context.memories).elim []
        fun memories => requestText format (request.withMemories memories) :=
    serializeLoop_eq_shed fun memories hsub => validRequest_withMemories h hsub
  obtain ⟨k, hk, hbefore, hend⟩ := shed_spec (fitsWith (requestText format) request) (nodup_memoryRank h)
    fun a _ b _ => lessRelevant_iff a b
  simp only [fitsWith, decide_eq_false_iff_not, not_le, decide_eq_true_eq] at hbefore hend
  rw [heq]
  rcases hend with ⟨hfits, hshed⟩ | ⟨hk', hlong, hshed⟩
  · rw [hshed, Option.elim_some]
    exact ⟨hfits, ⟨k, hk, hbefore, .inl rfl⟩, fun hnil => absurd hnil (requestText_ne_nil _ _)⟩
  · rw [hshed, Option.elim_none]
    exact ⟨Nat.zero_le _, ⟨k, hk, hbefore, .inr ⟨hk', rfl⟩⟩, fun _ => hlong⟩

end Request

/-- Floats that are small natural numbers. -/
def naturalTests : FloatTests ℕ where
  isFinite := fun _ => true
  zero := 0
  one := 1
  le := fun a b => a ≤ b
  lt := fun a b => a < b

def sampleRequest : NpcAgentRequest ℕ where
  protocolVersion := 1
  requestId := 7
  agent := 5
  snapshotSequence := 3
  context := {
    profile := { name := ascii "Mira", backstory := [], personality := [] }
    needs := { healthPressure := 0, hunger := 1, fatigue := 0, safetyPressure := 0, resourcePressure := 0 }
    self := {
      mapId := 0, x := 10, y := 20, z := 30, orientation := 0, health := 100, maxHealth := 100, alive := true
      inCombat := false, currentAction := ascii "NONE", lastActionResult := [] }
    recentDialogue := []
    nearby := []
    actions := [{ token := 1, type := ascii "EAT", description := [] }]
    emotes := [ascii "NONE"]
    speechTargets := []
    speech := none
    memories := [
      { id := 1, ageMs := 4000, kind := ascii "ACTION_RESULT", speaker := ascii "Mira", text := ascii "OK", response := [] }] }

theorem serialize_sheds_sample : validRequest naturalTests sampleRequest = true ∧
    (serializeNpcAgentRequest naturalTests decimal sampleRequest).length ≤ npcAgentRequestBodyLimit := by
  have hvalid : validRequest naturalTests sampleRequest = true := by decide +kernel
  exact ⟨hvalid, (serialize_sheds hvalid).1⟩

end Serialize

end AIWorld.Inference
