import AIWorld.Agent.NpcAgentDialogue
import AIWorld.Quest.Instance

/-! What one agent says and to whom. A turn of a player waits for a private reply, a turn of another agent
for a public one, and a line can be started without a turn. Public lines keep a distance from every line
that was sent and are not repeated soon; what was sent is kept in a short list, private replies included. -/

namespace AIWorld.Agent

open Lib
open Lib.Json (Bytes ascii)
open Quest (ObjectGuid)

/-! ### Normal form of a line -/

/-- The first scalar of a text that is known to be valid. -/
def nextScalar (first : UInt8) (text : Bytes) : ℕ × Bytes :=
  let cp := first.toNat
  let (cp, extra) :=
    if cp ≥ 0xF0 then (cp % 8, 3) else if cp ≥ 0xE0 then (cp % 16, 2) else if cp ≥ 0xC0 then (cp % 32, 1) else (cp, 0)
  ((text.take extra).foldl (fun cp next => cp * 64 + next.toNat % 64) cp, text.drop extra)

def isPunctuation (cp : ℕ) : Bool :=
  (33 ≤ cp && cp ≤ 47) || (58 ≤ cp && cp ≤ 64) || (91 ≤ cp && cp ≤ 96) || (123 ≤ cp && cp ≤ 126) ||
    (0x2010 ≤ cp && cp ≤ 0x201F) || cp = 0x2026

/-- Latin capitals become small letters. -/
def foldCase (cp : ℕ) : ℕ :=
  if 0x41 ≤ cp ∧ cp ≤ 0x5A then cp + 32
  else if (0xC0 ≤ cp ∧ cp ≤ 0xD6) ∨ (0xD8 ≤ cp ∧ cp ≤ 0xDE) then cp + 32
  else if (0x100 ≤ cp ∧ cp ≤ 0x12F ∧ cp % 2 = 0) ∨ (0x132 ≤ cp ∧ cp ≤ 0x137 ∧ cp % 2 = 0) ∨
      (0x139 ≤ cp ∧ cp ≤ 0x148 ∧ cp % 2 = 1) ∨ (0x14A ≤ cp ∧ cp ≤ 0x177 ∧ cp % 2 = 0) ∨
      (0x179 ≤ cp ∧ cp ≤ 0x17E ∧ cp % 2 = 1) then cp + 1
  else cp

def normalizeLoop : ℕ → Bytes → Bytes → Bool → Bytes
  | _, [], result, _ => result
  | 0, _ :: _, result, _ => result
  | fuel + 1, first :: text, result, space =>
    let (cp, rest) := nextScalar first text
    if cp = 0x20 ∨ cp = 0xA0 then normalizeLoop fuel rest result !result.isEmpty
    else if isPunctuation cp then normalizeLoop fuel rest result space
    else
      normalizeLoop fuel rest ((if space then result ++ [0x20] else result) ++ Utf8.encode (foldCase cp)) false

/-- Small letters with single spaces and no punctuation; nothing for a text that is not valid. -/
def normalizeNpcAgentSpeech (text : Bytes) : Bytes :=
  if !validateNpcAgentSpeechText text then [] else normalizeLoop text.length text [] false

/-! ### State -/

structure NpcAgentPendingTurn where
  id : UInt64
  partner : ObjectGuid
  name : Bytes
  text : Bytes
  atMs : UInt64

structure PrivateConversation where
  partner : ObjectGuid
  history : NpcAgentDialogueHistory
  lastAtMs : UInt64

structure SentLine where
  text : Bytes
  atMs : UInt64

structure NpcAgentSpeechState where
  playerTurn : Option NpcAgentPendingTurn := none
  npcTurn : Option NpcAgentPendingTurn := none
  conversations : List PrivateConversation := []
  recentAmbient : List SentLine := []
  submittedScene : Option UInt64 := none
  lastSpeechAtMs : UInt64 := 0
  observedAtMs : UInt64 := 0
  hasSpoken : Bool := false

def NpcAgentPendingTurn.valid (turn : NpcAgentPendingTurn) : Bool :=
  turn.id ≠ 0 && !turn.partner.isEmpty && validateNpcAgentPlainText turn.name 80 32 false &&
    validateNpcAgentSpeechText turn.text

def NpcAgentPendingTurn.fresh (turn : NpcAgentPendingTurn) (now ttl : UInt64) : Bool :=
  turn.atMs ≤ now && now - turn.atMs < ttl

def NpcAgentPendingTurn.matches (turn : Option NpcAgentPendingTurn) (id : UInt64) (partner : ObjectGuid)
    (now ttl : UInt64) : Bool :=
  turn.any fun turn => id ≠ 0 && id = turn.id && partner = turn.partner && turn.fresh now ttl

/-- The conversation that was silent for longest is forgotten. -/
def eraseSilent (conversations : List PrivateConversation) : List PrivateConversation :=
  match (conversations.map PrivateConversation.lastAtMs).min? with
  | none => conversations
  | some lastAtMs => conversations.eraseP fun c => c.lastAtMs = lastAtMs

/-- The first conversation with a partner is changed. -/
def updatePrivate (partner : ObjectGuid) (f : PrivateConversation → PrivateConversation) :
    List PrivateConversation → List PrivateConversation
  | [] => []
  | c :: rest => if c.partner = partner then f c :: rest else c :: updatePrivate partner f rest

/-- A conversation with the partner of a turn is among the conversations, four at most. -/
def withPartner (conversations : List PrivateConversation) (turn : NpcAgentPendingTurn) : List PrivateConversation :=
  if conversations.any fun c => c.partner = turn.partner then conversations
  else (if conversations.length = 4 then eraseSilent conversations else conversations) ++
    [⟨turn.partner, [], turn.atMs⟩]

/-- The line that a player's turn is remembered as. -/
def NpcAgentPendingTurn.line (turn : NpcAgentPendingTurn) : NpcAgentSpeech :=
  ⟨turn.id, turn.id, 0, ascii "PLAYER", turn.name, turn.text, turn.atMs, 0⟩

namespace NpcAgentSpeechState

def observe (s : NpcAgentSpeechState) (now : UInt64) : Bool × NpcAgentSpeechState :=
  if now < s.observedAtMs then (false, s) else (true, { s with observedAtMs := now })

def pinPlayer (s : NpcAgentSpeechState) (turn : NpcAgentPendingTurn) : Bool × NpcAgentSpeechState :=
  if !turn.valid || !turn.partner.isPlayer then (false, s)
  else if s.playerTurn.any fun pinned => pinned.id = turn.id then (false, s)
  else
    let conversations := withPartner s.conversations turn
    match conversations.find? fun c => c.partner = turn.partner with
    | none => (false, { s with conversations })
    | some c =>
      let (remembered, history) := c.history.remember turn.line
      if !remembered then (false, { s with conversations })
      else (true, { s with
        conversations := updatePrivate turn.partner (fun c => { c with history, lastAtMs := turn.atMs }) conversations
        playerTurn := some turn
        npcTurn := none })

def canAmbient (s : NpcAgentSpeechState) (now : UInt64) (text : Bytes) : Bool × NpcAgentSpeechState :=
  let (observed, s) := s.observe now
  if !observed || (s.hasSpoken && now - s.lastSpeechAtMs < 60000) then (false, s)
  else if text.isEmpty then (true, s)
  else
    let normalized := normalizeNpcAgentSpeech text
    if normalized.isEmpty then (false, s)
    else
      (!s.recentAmbient.any fun sent =>
        sent.atMs ≤ now && now - sent.atMs < 120000 && sent.text = normalized, s)

def pinNpc (s : NpcAgentSpeechState) (turn : NpcAgentPendingTurn) (now : UInt64) : Bool × NpcAgentSpeechState :=
  if s.playerTurn.isSome || !turn.valid || !turn.partner.isCreature || !turn.fresh now 15000 then (false, s)
  else
    let (ambient, s) := s.canAmbient now []
    if !ambient then (false, s) else (true, { s with npcTurn := some turn })

def expire (s : NpcAgentSpeechState) (now : UInt64) (playerConnected : Bool) : Bool × NpcAgentSpeechState :=
  let (observed, s) := s.observe now
  if !observed then (false, s)
  else
    let playerOver := s.playerTurn.any fun turn => !playerConnected || !turn.fresh now 60000
    let npcOver := s.npcTurn.any fun turn => !turn.fresh now 15000
    (playerOver || npcOver, { s with
      playerTurn := if playerOver then none else s.playerTurn
      npcTurn := if npcOver then none else s.npcTurn })

def canSend (s : NpcAgentSpeechState) (mode : Bytes) (turnId : UInt64) (partner : ObjectGuid) (text : Bytes)
    (now : UInt64) : Bool × NpcAgentSpeechState :=
  let (observed, s) := s.observe now
  if !observed || !validateNpcAgentSpeechText text then (false, s)
  else if mode = ascii "PLAYER_REPLY" then (NpcAgentPendingTurn.matches s.playerTurn turnId partner now 60000, s)
  else if mode = ascii "NPC_REPLY" then
    if s.playerTurn.isNone && NpcAgentPendingTurn.matches s.npcTurn turnId partner now 15000 then s.canAmbient now text
    else (false, s)
  else if mode = ascii "INITIATE" && s.playerTurn.isNone && s.npcTurn.isNone && turnId = 0 && partner.isEmpty then
    s.canAmbient now text
  else (false, s)

/-- The turn that a line answers is taken; a private reply joins the private history. -/
def answer (s : NpcAgentSpeechState) (mode : Bytes) (partner : ObjectGuid) (line : NpcAgentSpeech) (now : UInt64) :
    NpcAgentSpeechState :=
  if mode = ascii "PLAYER_REPLY" then
    { s with
      conversations := updatePrivate partner (fun c =>
        { c with history := (c.history.remember { line with kind := ascii "SELF" }).2, lastAtMs := now }) s.conversations
      playerTurn := none }
  else if mode = ascii "NPC_REPLY" then { s with npcTurn := none }
  else s

/-- Lines whose window is over leave the list, and then the oldest one if the list is full. -/
def forget (recent : List SentLine) (now : UInt64) : List SentLine :=
  let recent := recent.dropWhile fun sent => now - sent.atMs ≥ 120000
  if recent.length = 8 then recent.tail else recent

def commitSent (s : NpcAgentSpeechState) (mode : Bytes) (turnId : UInt64) (partner : ObjectGuid)
    (line : NpcAgentSpeech) (now : UInt64) : Bool × NpcAgentSpeechState :=
  let (sendable, s) := s.canSend mode turnId partner line.text now
  if !sendable then (false, s)
  else
    let s := s.answer mode partner line now
    (true, { s with
      recentAmbient := forget s.recentAmbient now ++ [⟨normalizeNpcAgentSpeech line.text, now⟩]
      hasSpoken := true
      lastSpeechAtMs := now })

def canInitiate (s : NpcAgentSpeechState) (scene : UInt64) (audience : Bool) (now : UInt64) :
    Bool × NpcAgentSpeechState :=
  if s.playerTurn.isNone && s.npcTurn.isNone && audience then
    let (ambient, s) := s.canAmbient now []
    (ambient && s.submittedScene ≠ some scene, s)
  else (false, s)

def submittedInitiation (s : NpcAgentSpeechState) (scene : UInt64) : NpcAgentSpeechState :=
  { s with submittedScene := some scene }

/-! ### Operations -/

inductive SpeechOp
  | pinPlayer (turn : NpcAgentPendingTurn)
  | pinNpc (turn : NpcAgentPendingTurn) (now : UInt64)
  | expire (now : UInt64) (playerConnected : Bool)
  | canAmbient (now : UInt64) (text : Bytes)
  | canSend (mode : Bytes) (turnId : UInt64) (partner : ObjectGuid) (text : Bytes) (now : UInt64)
  | commitSent (mode : Bytes) (turnId : UInt64) (partner : ObjectGuid) (line : NpcAgentSpeech) (now : UInt64)
  | canInitiate (scene : UInt64) (audience : Bool) (now : UInt64)
  | submittedInitiation (scene : UInt64)

/-- The clock that an operation is given. -/
def SpeechOp.now : SpeechOp → Option UInt64
  | .pinPlayer turn => some turn.atMs
  | .pinNpc _ now | .expire now _ | .canAmbient now _ | .canSend _ _ _ _ now | .commitSent _ _ _ _ now
  | .canInitiate _ _ now => some now
  | .submittedInitiation _ => none

def step (s : NpcAgentSpeechState) : SpeechOp → Option (Bool × NpcAgentSpeechState)
  | .pinPlayer turn => some (s.pinPlayer turn)
  | .pinNpc turn now => some (s.pinNpc turn now)
  | .expire now playerConnected => some (s.expire now playerConnected)
  | .canAmbient now text => some (s.canAmbient now text)
  | .canSend mode turnId partner text now => some (s.canSend mode turnId partner text now)
  | .commitSent mode turnId partner line now => some (s.commitSent mode turnId partner line now)
  | .canInitiate scene audience now => some (s.canInitiate scene audience now)
  | .submittedInitiation scene => some (true, s.submittedInitiation scene)

def machine : Machine NpcAgentSpeechState SpeechOp Bool := ⟨step⟩

end NpcAgentSpeechState

end AIWorld.Agent
