import AIWorld.Agent.PlainText

/-! What an agent's request holds, and the check that it passes before it is written. Floats stay abstract
under the comparisons that the check makes. -/

namespace AIWorld.Inference

open Lib.Json (Bytes ascii)
open Agent (scanScalars validateNpcAgentPlainText)

/-! ### The request -/

structure NpcAgentProfileContext where
  name : Bytes
  backstory : Bytes
  personality : Bytes

structure NeedsState (F : Type) where
  healthPressure : F
  hunger : F
  fatigue : F
  safetyPressure : F
  resourcePressure : F

structure NpcAgentSelf (F : Type) where
  mapId : UInt32
  x : F
  y : F
  z : F
  orientation : F
  health : UInt32
  maxHealth : UInt32
  alive : Bool
  inCombat : Bool
  currentAction : Bytes
  lastActionResult : Bytes

structure NpcAgentDialogue where
  speaker : Bytes
  text : Bytes
  kind : Bytes

structure NpcAgentNearby (F : Type) where
  token : UInt32
  name : Bytes
  kind : Bytes
  distance : F

structure NpcAgentAction where
  token : UInt32
  type : Bytes
  description : Bytes

structure NpcAgentSpeechTurn where
  id : UInt64
  speaker : Bytes
  recipientToken : UInt32
  text : Bytes

structure NpcAgentSpeechContext where
  mode : Bytes := ascii "SILENT"
  turn : Option NpcAgentSpeechTurn := none

/-- A recalled episode. Its relevance is never written. -/
structure NpcAgentMemory where
  id : UInt64
  ageMs : UInt64
  kind : Bytes
  speaker : Bytes
  text : Bytes
  response : Bytes
  relevance : UInt32 := 0
  deriving DecidableEq

structure NpcAgentContext (F : Type) where
  profile : NpcAgentProfileContext
  needs : NeedsState F
  self : NpcAgentSelf F
  recentDialogue : List NpcAgentDialogue
  nearby : List (NpcAgentNearby F)
  actions : List NpcAgentAction
  emotes : List Bytes
  speechTargets : List UInt32
  speech : Option NpcAgentSpeechContext
  memories : List NpcAgentMemory

structure NpcAgentRequest (F : Type) where
  protocolVersion : UInt32
  requestId : UInt64
  agent : UInt64
  snapshotSequence : UInt64
  context : NpcAgentContext F

/-! ### Texts and tokens -/

def oneOf (value : Bytes) (choices : List String) : Bool := (choices.map ascii).contains value

def knownEmote (value : Bytes) : Bool := oneOf value ["NONE", "WAVE", "TALK", "NOD", "LAUGH", "POINT", "CHEER", "NO"]

/-- Controls and the pipe of markup. -/
def refusesText (plain allowLines : Bool) (cp : ℕ) : Bool :=
  plain && !(allowLines && (cp = 0x0A || cp = 0x09)) && (cp < 0x20 || (0x7F ≤ cp && cp ≤ 0x9F) || cp = 0x7C)

/-- Scalar UTF-8 within the limits. -/
def validText (value : Bytes) (maxBytes maxCharacters : ℕ) (plain allowLines : Bool) : Bool :=
  if value.length > maxBytes then false
  else (scanScalars (refusesText plain allowLines) (fun _ => false) maxCharacters value.length value 0 false).isSome

def uniqueTokens (tokens : List UInt32) : Bool := tokens.all (· ≠ 0) && tokens.Nodup

/-! ### The check -/

/-- The comparisons of floats. -/
structure FloatTests (F : Type) where
  isFinite : F → Bool
  zero : F
  one : F
  le : F → F → Bool
  lt : F → F → Bool

/-- A player's words are only recalled for the player whose turn is answered. -/
def validMemory (speech : Option NpcAgentSpeechContext) (memory : NpcAgentMemory) : Bool :=
  memory.id ≠ 0 && oneOf memory.kind ["PLAYER_DIALOGUE", "NPC_DIALOGUE", "ACTION_RESULT"] &&
    validateNpcAgentPlainText memory.speaker 80 32 false && validateNpcAgentPlainText memory.text 768 256 false &&
    (memory.response.isEmpty || validateNpcAgentPlainText memory.response 768 256 false) &&
    !(memory.kind = ascii "ACTION_RESULT" && !memory.response.isEmpty) &&
    !(memory.kind = ascii "PLAYER_DIALOGUE" && !speech.any fun speech =>
      speech.mode = ascii "PLAYER_REPLY" && speech.turn.any fun turn => turn.speaker = memory.speaker)

def NpcAgentMemory.bytes (memory : NpcAgentMemory) : ℕ :=
  memory.speaker.length + memory.text.length + memory.response.length

/-- The loop over the memories, with the ids before and the bytes so far. -/
def validMemoryLoop (speech : Option NpcAgentSpeechContext) : List UInt64 → ℕ → List NpcAgentMemory → Bool
  | _, _, [] => true
  | ids, memoryBytes, memory :: memories =>
    if !validMemory speech memory || ids.contains memory.id then false
    else if memoryBytes + memory.bytes > 3072 then false
    else validMemoryLoop speech (memory.id :: ids) (memoryBytes + memory.bytes) memories

def validMemories (speech : Option NpcAgentSpeechContext) (memories : List NpcAgentMemory) : Bool :=
  if memories.length > 6 then false else validMemoryLoop speech [] 0 memories

section Check
variable {F : Type} (tests : FloatTests F)

def validPressure (p : F) : Bool := tests.isFinite p && tests.le tests.zero p && tests.le p tests.one

def validProfile (profile : NpcAgentProfileContext) : Bool :=
  validText profile.name 80 80 true false && !profile.name.isEmpty &&
    validText profile.backstory 8192 8192 true true && validText profile.personality 2048 2048 true true

def validSelf (self : NpcAgentSelf F) : Bool :=
  tests.isFinite self.x && tests.isFinite self.y && tests.isFinite self.z && tests.isFinite self.orientation &&
    validText self.currentAction 128 32 true false && validText self.lastActionResult 256 128 true false

def validNeeds (needs : NeedsState F) : Bool :=
  validPressure tests needs.healthPressure && validPressure tests needs.hunger && validPressure tests needs.fatigue &&
    validPressure tests needs.safetyPressure && validPressure tests needs.resourcePressure

def validDialogue (line : NpcAgentDialogue) : Bool :=
  !line.speaker.isEmpty && validText line.speaker 80 80 true false && validText line.text 768 256 true false &&
    oneOf line.kind ["PLAYER", "NPC", "SELF"]

def validNearby (entity : NpcAgentNearby F) : Bool :=
  !entity.name.isEmpty && validText entity.name 80 80 true false && oneOf entity.kind ["PLAYER", "NPC"] &&
    tests.isFinite entity.distance && !tests.lt entity.distance tests.zero

def validAction (action : NpcAgentAction) : Bool :=
  oneOf action.type ["WAIT", "MOVE_TO", "EAT", "REST", "STOP", "FLEE"] &&
    validText action.description 256 256 true false

/-- The partner of the turn stands nearby, under its name and its kind. -/
def validTurn (context : NpcAgentContext F) (mode : Bytes) (turn : NpcAgentSpeechTurn) : Bool :=
  turn.id ≠ 0 && !turn.speaker.isEmpty && !turn.text.isEmpty && validText turn.speaker 80 32 true false &&
    validText turn.text 768 256 true false && context.speechTargets.contains turn.recipientToken &&
    (context.nearby.find? fun nearby => nearby.token = turn.recipientToken).any fun entity =>
      entity.name = turn.speaker &&
        entity.kind = if mode = ascii "PLAYER_REPLY" then ascii "PLAYER" else ascii "NPC"

def validSpeech (context : NpcAgentContext F) (speech : NpcAgentSpeechContext) : Bool :=
  oneOf speech.mode ["SILENT", "PLAYER_REPLY", "NPC_REPLY", "INITIATE"] &&
    (speech.mode = ascii "PLAYER_REPLY" || speech.mode = ascii "NPC_REPLY") == speech.turn.isSome &&
    speech.turn.all (validTurn context speech.mode)

def validRequest (request : NpcAgentRequest F) : Bool :=
  let context := request.context
  request.protocolVersion = 1 && request.requestId ≠ 0 && request.agent ≠ 0 && validProfile context.profile &&
    validSelf tests context.self && validNeeds tests context.needs && context.recentDialogue.length ≤ 12 &&
    context.nearby.length ≤ 16 && context.actions.length ≤ 32 && !context.actions.isEmpty &&
    !context.emotes.isEmpty && context.emotes.length ≤ 8 && context.speechTargets.length ≤ 16 &&
    uniqueTokens (context.nearby.map NpcAgentNearby.token) && uniqueTokens (context.actions.map NpcAgentAction.token) &&
    context.recentDialogue.all validDialogue && context.nearby.all (validNearby tests) &&
    context.actions.all validAction && context.emotes.all knownEmote && context.emotes.Nodup &&
    uniqueTokens context.speechTargets &&
    context.speechTargets.all (fun target => context.nearby.any fun entity => entity.token = target) &&
    context.speech.all (validSpeech context) && validMemories context.speech context.memories

end Check

/-! ### The clauses for memories -/

theorem validMemoryLoop_iff {speech : Option NpcAgentSpeechContext} {ids : List UInt64} {memoryBytes : ℕ}
    {memories : List NpcAgentMemory} (hbytes : memoryBytes ≤ 3072) :
    validMemoryLoop speech ids memoryBytes memories = true ↔
      (∀ memory ∈ memories, validMemory speech memory = true) ∧ (∀ memory ∈ memories, memory.id ∉ ids) ∧
        (memories.map NpcAgentMemory.id).Nodup ∧ memoryBytes + (memories.map NpcAgentMemory.bytes).sum ≤ 3072 := by
  induction memories generalizing ids memoryBytes with
  | nil => simpa [validMemoryLoop] using hbytes
  | cons memory memories ih =>
    rw [validMemoryLoop]
    split_ifs with hvalid hroom
    · simp only [Bool.or_eq_true, Bool.not_eq_true', List.contains_iff_mem] at hvalid
      simp only [List.forall_mem_cons, false_iff]
      rintro ⟨hv, hids, -⟩
      obtain h | h := hvalid
      · simp [h] at hv
      · exact hids.1 h
    · simp only [List.map_cons, List.sum_cons, false_iff]
      rintro ⟨-, -, -, hsum⟩
      omega
    · simp only [Bool.or_eq_true, Bool.not_eq_true', List.contains_iff_mem, not_or, Bool.not_eq_false] at hvalid
      rw [ih (by omega)]
      simp only [List.forall_mem_cons, List.map_cons, List.nodup_cons, List.sum_cons]
      simp only [List.mem_map, List.mem_cons, not_or, not_exists, not_and]
      constructor
      · rintro ⟨hall, hids, hnodup, hsum⟩
        exact ⟨⟨hvalid.1, hall⟩, ⟨hvalid.2, fun other hother => (hids other hother).2⟩,
          ⟨fun other hother => (hids other hother).1, hnodup⟩, by omega⟩
      · rintro ⟨⟨-, hall⟩, ⟨-, hids⟩, ⟨hfresh, hnodup⟩, hsum⟩
        exact ⟨hall, fun other hother => ⟨hfresh other hother, hids other hother⟩, hnodup, by omega⟩

/-- At most six memories, each of them valid, with ids of their own and few bytes together. -/
theorem validMemories_iff {speech : Option NpcAgentSpeechContext} {memories : List NpcAgentMemory} :
    validMemories speech memories = true ↔ memories.length ≤ 6 ∧
      (∀ memory ∈ memories, validMemory speech memory = true) ∧ (memories.map NpcAgentMemory.id).Nodup ∧
        (memories.map NpcAgentMemory.bytes).sum ≤ 3072 := by
  unfold validMemories
  split_ifs with hlength
  · simp only [false_iff]
    rintro ⟨h, -⟩
    omega
  · rw [validMemoryLoop_iff (Nat.zero_le _)]
    simp only [List.not_mem_nil, not_false_eq_true, implies_true, true_and, Nat.zero_add]
    exact ⟨fun h => ⟨by omega, h⟩, fun h => h.2⟩

end AIWorld.Inference
