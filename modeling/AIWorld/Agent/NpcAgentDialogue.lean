import AIWorld.Agent.PlainText
import AIWorld.Lib.Machine
import AIWorld.Lib.OrdMap

/-! What is spoken between agents: a line, the lines that an agent remembers, and the guard that admits
lines to the world. The guard keeps a record for each conversation and a row for the cooldown of each
speaker. Times are 64-bit, and their differences are guarded in the source. -/

namespace AIWorld.Agent

open Lib
open Lib.Json (Bytes ascii)
open Std (ExtTreeMap)

structure NpcAgentSpeech where
  conversationId : UInt64
  utteranceId : UInt64
  speaker : UInt64
  kind : Bytes
  speakerName : Bytes
  text : Bytes
  atMs : UInt64
  hop : UInt32
  deriving DecidableEq

def validateNpcAgentSpeech (speech : NpcAgentSpeech) : Bool :=
  speech.conversationId ≠ 0 && speech.utteranceId ≠ 0 &&
    (speech.kind = ascii "PLAYER" || speech.kind = ascii "NPC" || speech.kind = ascii "SELF") &&
    (speech.kind = ascii "PLAYER" || speech.speaker ≠ 0) && speech.hop ≤ 3 &&
    validateNpcAgentPlainText speech.speakerName 80 32 false && validateNpcAgentSpeechText speech.text

/-! ### History -/

/-- The last twelve lines that an agent remembers, oldest first. -/
abbrev NpcAgentDialogueHistory := List NpcAgentSpeech

def NpcAgentDialogueHistory.remember (lines : NpcAgentDialogueHistory) (speech : NpcAgentSpeech) :
    Bool × NpcAgentDialogueHistory :=
  if !validateNpcAgentSpeech speech then (false, lines)
  else if lines.any fun existing =>
      existing.utteranceId = speech.utteranceId && existing.conversationId = speech.conversationId then (false, lines)
  else
    (true, (if lines.length = 12 then lines.tail else lines) ++
      [{ speech with text := cleanNpcAgentSpeechText speech.text }])

/-- A line that is not remembered changes nothing. -/
theorem NpcAgentDialogueHistory.remember_false {lines lines' : NpcAgentDialogueHistory} {speech : NpcAgentSpeech}
    (h : lines.remember speech = (false, lines')) : lines' = lines := by
  unfold remember at h
  split_ifs at h <;> cases h <;> rfl

/-- A valid line is remembered unless it is one of those that are remembered already. -/
theorem NpcAgentDialogueHistory.remember_nil {speech : NpcAgentSpeech} (h : validateNpcAgentSpeech speech = true) :
    (NpcAgentDialogueHistory.remember [] speech).1 = true := by
  simp [remember, h]

/-! ### Guard -/

structure Conversation where
  startedAtMs : UInt64
  utterances : Finset UInt64

structure NpcAgentConversationGuard where
  conversations : ExtTreeMap UInt64 Conversation := ∅
  lastNpcSpeech : ExtTreeMap UInt64 UInt64 := ∅
  lastObservedMs : UInt64 := 0

/-- The lifetime of a record is over. -/
def Conversation.isOver (c : Conversation) (now : UInt64) : Bool :=
  c.startedAtMs ≤ now && now - c.startedAtMs ≥ 60000

/-- The cooldown of a speaker is over. -/
def cooled (last now : UInt64) : Bool := last ≤ now && now - last ≥ 2000

namespace NpcAgentConversationGuard

def expire (s : NpcAgentConversationGuard) (now : UInt64) : NpcAgentConversationGuard :=
  if now < s.lastObservedMs then s
  else
    { conversations := s.conversations.filter fun _ c => !c.isOver now
      lastNpcSpeech := s.lastNpcSpeech.filter fun _ last => !cooled last now
      lastObservedMs := now }

/-- What does not depend on what the guard holds. -/
def acceptable (speech : NpcAgentSpeech) (now : UInt64) : Bool :=
  !(!validateNpcAgentSpeech speech || speech.kind ≠ ascii "NPC" || speech.speaker = 0 || speech.atMs > now ||
    now - speech.atMs ≥ 60000)

/-- The utterance enters its conversation, which is opened if it is new, and the cooldown of its speaker starts. -/
def enter (s : NpcAgentConversationGuard) (speech : NpcAgentSpeech) (now : UInt64) : NpcAgentConversationGuard :=
  let c := (s.conversations[speech.conversationId]?).getD ⟨now, ∅⟩
  { s with
    conversations := s.conversations.insert speech.conversationId
      { c with utterances := insert speech.utteranceId c.utterances }
    lastNpcSpeech := s.lastNpcSpeech.insert speech.speaker now }

def admitSpeech (s : NpcAgentConversationGuard) (speech : NpcAgentSpeech) (now : UInt64) :
    Bool × NpcAgentConversationGuard :=
  if now < s.lastObservedMs then (false, s)
  else
    let s := s.expire now
    let conversation := s.conversations[speech.conversationId]?
    let previous := s.lastNpcSpeech[speech.speaker]?
    if !acceptable speech now then (false, s)
    else if conversation.any fun c => c.utterances.card ≥ 8 || speech.utteranceId ∈ c.utterances then (false, s)
    else if conversation.isNone && s.conversations.size ≥ 128 then (false, s)
    else if previous.any fun last => now < last || now - last < 2000 then (false, s)
    else if previous.isNone && s.lastNpcSpeech.size ≥ 128 * 8 then (false, s)
    else (true, s.enter speech now)

inductive GuardOp
  | admitSpeech (speech : NpcAgentSpeech) (now : UInt64)
  | expire (now : UInt64)

def step (s : NpcAgentConversationGuard) : GuardOp → Option (Bool × NpcAgentConversationGuard)
  | .admitSpeech speech now => some (s.admitSpeech speech now)
  | .expire now => some (true, s.expire now)

def machine : Machine NpcAgentConversationGuard GuardOp Bool := ⟨step⟩

end NpcAgentConversationGuard

end AIWorld.Agent
