import AIWorld.Agent.NpcAgentSpeechState
import AIWorld.Inference.NpcAgentRequest
import Mathlib.Data.List.MinMax
import Mathlib.Data.List.Sort
import Mathlib.Data.Prod.Lex

/-! What an agent remembers of one session. The words of a player are kept under the player's identity and
are only recalled for that player; what others said and how the agent's own actions ended is recalled for
anyone. Every kind of record has its bound, and the oldest record gives way. -/

namespace AIWorld.Agent

open Lib
open Lib.Json (Bytes ascii)
open Quest (ObjectGuid)
open Inference (NpcAgentMemory)

namespace NpcAgentMemoryStore

structure Record where
  id : UInt64
  atMs : UInt64
  turnId : UInt64
  player : ObjectGuid
  kind : Bytes
  speaker : Bytes
  text : Bytes
  response : Bytes
  deriving DecidableEq

def valid (speaker text : Bytes) : Bool :=
  validateNpcAgentPlainText speaker 80 32 false && validateNpcAgentSpeechText text

/-! ### Making room -/

/-- The oldest record of a player, or of all, gives way. -/
def eraseOldest (entries : List Record) (player : ObjectGuid) : List Record :=
  match (entries.filter fun entry => player.isEmpty || entry.player = player).argmin
    fun entry => toLex (entry.atMs.toNat, entry.id.toNat) with
  | none => entries
  | some oldest => entries.erase oldest

def lastPlayerAt (entries : List Record) (player : ObjectGuid) : UInt64 :=
  entries.foldl (fun last entry => if entry.player = player then max last entry.atMs else last) 0

/-- The players of the records, in the order in which they appear. -/
def partners (entries : List Record) : List ObjectGuid :=
  entries.foldl (fun partners entry =>
    if entry.player ∈ partners then partners else partners ++ [entry.player]) []

/-- A ninth player takes the place of the one who was silent for longest. -/
def evictPartner (entries : List Record) (player : ObjectGuid) : List Record :=
  if player ∉ partners entries ∧ (partners entries).length ≥ 8 then
    match (partners entries).argmin fun partner => (lastPlayerAt entries partner).toNat with
    | none => entries
    | some evicted => entries.filter fun entry => entry.player ≠ evicted
  else entries

/-- What is left of the private records when one of a player is added. -/
def makeRoom (entries : List Record) (player : ObjectGuid) : List Record :=
  let entries := evictPartner entries player
  let entries := if entries.countP (·.player = player) ≥ 32 then eraseOldest entries player else entries
  if entries.length ≥ 64 then eraseOldest entries {} else entries

/-- The first record of a turn that waits for its reply receives it. -/
def answer (turnId : UInt64) (player : ObjectGuid) (response : Bytes) (atMs : UInt64) :
    List Record → Option (List Record)
  | [] => none
  | entry :: entries =>
    if entry.turnId = turnId ∧ entry.player = player ∧ entry.response.isEmpty then
      some ({ entry with response := cleanNpcAgentSpeechText response, atMs } :: entries)
    else (answer turnId player response atMs entries).map (entry :: ·)

/-- The first record of an outcome is renewed. -/
def renew (speaker feedback : Bytes) (atMs : UInt64) : List Record → Option (List Record)
  | [] => none
  | entry :: entries =>
    if entry.kind = ascii "ACTION_RESULT" ∧ entry.speaker = speaker ∧ entry.text = feedback then
      some ({ entry with atMs } :: entries)
    else (renew speaker feedback atMs entries).map (entry :: ·)

/-! ### Words -/

/-- Punctuation of ASCII parts words. -/
def splitPunctuation (c : UInt8) : UInt8 :=
  if (0x21 ≤ c ∧ c ≤ 0x2F) ∨ (0x3A ≤ c ∧ c ≤ 0x40) ∨ (0x5B ≤ c ∧ c ≤ 0x60) ∨ (0x7B ≤ c ∧ c ≤ 0x7E) then 0x20 else c

def noise : List Bytes :=
  ["jsem", "jsi", "jste", "nebo", "jako", "který", "která", "které", "jakou", "bylo", "byla", "byli", "mám", "máš",
    "proč", "kdy", "kde", "jak", "tak", "ano", "the", "and", "you", "your", "what"].map fun word =>
      word.toList.flatMap fun c => Utf8.encode c.toNat

def tokens (text : Bytes) : List Bytes :=
  (((normalizeNpcAgentSpeech (text.map splitPunctuation)).splitOn 0x20).filter fun word =>
    word.length ≥ 3 && !noise.contains word).dedup

def sharedPrefix : Bytes → Bytes → ℕ
  | a :: as, b :: bs => if a = b then sharedPrefix as bs + 1 else 0
  | _, _ => 0

/-- A prefix does not end inside a character. -/
def backToCharacter (a : Bytes) : ℕ → ℕ
  | 0 => 0
  | shared + 1 => if a[shared + 1]?.any fun c => c &&& 0xC0 = 0x80 then backToCharacter a shared else shared + 1

/-- Inflections of a word share most of it. -/
def related (a b : Bytes) : Bool :=
  let shared := backToCharacter a (sharedPrefix a b)
  a = b || (shared ≥ 4 && a.length - shared ≤ 4 && b.length - shared ≤ 4)

end NpcAgentMemoryStore

open NpcAgentMemoryStore in
structure NpcAgentMemoryStore where
  privateRecords : List Record := []
  publicRecords : List Record := []
  sequence : UInt64 := 0
  observedAtMs : UInt64 := 0

namespace NpcAgentMemoryStore

/-! ### Remembering -/

def canAllocate (s : NpcAgentMemoryStore) : Bool := s.sequence < 0xFFFFFFFFFFFFFFFF

def observe (s : NpcAgentMemoryStore) (atMs : UInt64) : Bool × NpcAgentMemoryStore :=
  if atMs < s.observedAtMs then (false, s) else (true, { s with observedAtMs := atMs })

def publish (s : NpcAgentMemoryStore) (kind speaker text : Bytes) (atMs turnId : UInt64) :
    Bool × NpcAgentMemoryStore :=
  if !s.canAllocate then (false, s)
  else
    let entries := if s.publicRecords.length = 32 then eraseOldest s.publicRecords {} else s.publicRecords
    (true, { s with
      sequence := s.sequence + 1
      publicRecords := entries ++
        [⟨s.sequence + 1, atMs, turnId, {}, kind, speaker, cleanNpcAgentSpeechText text, []⟩] })

def rememberPlayer (s : NpcAgentMemoryStore) (turnId : UInt64) (player : ObjectGuid) (speaker text : Bytes)
    (atMs : UInt64) : Bool × NpcAgentMemoryStore :=
  if turnId = 0 || !player.isPlayer || !valid speaker text then (false, s)
  else
    let (observed, s) := s.observe atMs
    if !observed then (false, s)
    else if s.privateRecords.any fun entry => entry.turnId = turnId && entry.player = player then (false, s)
    else if !s.canAllocate then (false, s)
    else (true, { s with
      sequence := s.sequence + 1
      privateRecords := makeRoom s.privateRecords player ++
        [⟨s.sequence + 1, atMs, turnId, player, ascii "PLAYER_DIALOGUE", speaker, cleanNpcAgentSpeechText text, []⟩] })

def rememberPlayerReply (s : NpcAgentMemoryStore) (turnId : UInt64) (player : ObjectGuid) (response : Bytes)
    (atMs : UInt64) : Bool × NpcAgentMemoryStore :=
  if turnId = 0 || !player.isPlayer || !validateNpcAgentSpeechText response then (false, s)
  else
    let (observed, s) := s.observe atMs
    if !observed then (false, s)
    else
      match answer turnId player response atMs s.privateRecords with
      | none => (false, s)
      | some entries => (true, { s with privateRecords := entries })

def rememberNpc (s : NpcAgentMemoryStore) (utteranceId : UInt64) (speaker text : Bytes) (atMs : UInt64) :
    Bool × NpcAgentMemoryStore :=
  if utteranceId = 0 || !valid speaker text then (false, s)
  else
    let (observed, s) := s.observe atMs
    if !observed then (false, s)
    else if s.publicRecords.any fun entry => entry.kind = ascii "NPC_DIALOGUE" && entry.turnId = utteranceId then (false, s)
    else s.publish (ascii "NPC_DIALOGUE") speaker text atMs utteranceId

def rememberAction (s : NpcAgentMemoryStore) (speaker feedback : Bytes) (atMs : UInt64) :
    Bool × NpcAgentMemoryStore :=
  if !valid speaker feedback then (false, s)
  else
    let (observed, s) := s.observe atMs
    if !observed then (false, s)
    else
      match renew speaker feedback atMs s.publicRecords with
      | some entries => (true, { s with publicRecords := entries })
      | none => s.publish (ascii "ACTION_RESULT") speaker feedback atMs 0

inductive MemoryOp
  | player (turnId : UInt64) (player : ObjectGuid) (speaker text : Bytes) (atMs : UInt64)
  | reply (turnId : UInt64) (player : ObjectGuid) (response : Bytes) (atMs : UInt64)
  | npc (utteranceId : UInt64) (speaker text : Bytes) (atMs : UInt64)
  | action (speaker feedback : Bytes) (atMs : UInt64)

def apply (s : NpcAgentMemoryStore) : MemoryOp → Bool × NpcAgentMemoryStore
  | .player turnId player speaker text atMs => s.rememberPlayer turnId player speaker text atMs
  | .reply turnId player response atMs => s.rememberPlayerReply turnId player response atMs
  | .npc utteranceId speaker text atMs => s.rememberNpc utteranceId speaker text atMs
  | .action speaker feedback atMs => s.rememberAction speaker feedback atMs

def machine : Machine NpcAgentMemoryStore MemoryOp Bool where
  step s op := some (s.apply op)

/-! ### Recalling -/

structure Candidate where
  entry : Record
  score : UInt32

/-- A record is offered unless it is of the future, or of the turn that is answered. -/
def offer (nowMs excludedTurn : UInt64) (queryTokens : List Bytes) (personal : Bool) (entry : Record) :
    Option Candidate :=
  if entry.atMs > nowMs || (personal && excludedTurn ≠ 0 && entry.turnId = excludedTurn) then none
  else
    let found := tokens entry.text ++ tokens entry.response ++ tokens entry.speaker
    let hits := queryTokens.countP fun word => found.any fun token => related word token
    some ⟨entry, hits.toUInt32 * 1000 + if personal then 200 else 0⟩

def candidates (s : NpcAgentMemoryStore) (nowMs : UInt64) (query : Bytes) (player : ObjectGuid)
    (excludedTurn : UInt64) : List Candidate :=
  s.publicRecords.filterMap (offer nowMs excludedTurn (tokens query) false) ++
    if player.isPlayer then
      (s.privateRecords.filter fun entry => entry.player = player).filterMap
        (offer nowMs excludedTurn (tokens query) true)
    else []

/-- Relevance first, then the newer. -/
def moreRelevant (a b : Candidate) : Bool :=
  if a.score ≠ b.score then a.score > b.score
  else if a.entry.atMs ≠ b.entry.atMs then a.entry.atMs > b.entry.atMs
  else a.entry.id > b.entry.id

def earlier (a b : Candidate) : Bool :=
  if a.entry.atMs = b.entry.atMs then a.entry.id < b.entry.id else a.entry.atMs < b.entry.atMs

/-- The player's name of now stands for the name under which a record was made. -/
def Record.recalledSpeaker (entry : Record) (currentPlayerName : Bytes) : Bytes :=
  if !entry.player.isEmpty && !currentPlayerName.isEmpty then currentPlayerName else entry.speaker

def Record.cost (entry : Record) (currentPlayerName : Bytes) : ℕ :=
  (entry.recalledSpeaker currentPlayerName).length + entry.text.length + entry.response.length

/-- Candidates are taken in turn while there is room for them. -/
def select (currentPlayerName : Bytes) : ℕ → ℕ → List Candidate → List Candidate
  | _, _, [] => []
  | selected, bytes, candidate :: candidates =>
    if candidate.entry.cost currentPlayerName > 3072 - bytes then select currentPlayerName selected bytes candidates
    else if selected + 1 = 6 then [candidate]
    else
      candidate :: select currentPlayerName (selected + 1) (bytes + candidate.entry.cost currentPlayerName) candidates

def Candidate.memory (candidate : Candidate) (nowMs : UInt64) (currentPlayerName : Bytes) : NpcAgentMemory :=
  { id := candidate.entry.id
    ageMs := nowMs - candidate.entry.atMs
    kind := candidate.entry.kind
    speaker := candidate.entry.recalledSpeaker currentPlayerName
    text := candidate.entry.text
    response := candidate.entry.response
    relevance := candidate.score }

def retrieve (s : NpcAgentMemoryStore) (nowMs : UInt64) (query : Bytes) (player : ObjectGuid) (excludedTurn : UInt64)
    (currentPlayerName : Bytes) : List NpcAgentMemory :=
  if !currentPlayerName.isEmpty && !validateNpcAgentPlainText currentPlayerName 80 32 false then []
  else
    let candidates := (s.candidates nowMs query player excludedTurn).insertionSort fun a b => moreRelevant a b
    let selected := (select currentPlayerName 0 0 candidates).insertionSort fun a b => earlier a b
    selected.map fun candidate => candidate.memory nowMs currentPlayerName

end NpcAgentMemoryStore

end AIWorld.Agent
