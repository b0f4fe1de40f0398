import AIWorld.Inference.NpcAgentRequest

/-! The codec of the agents' requests and responses: how a string is quoted, the cursor with which a response
is read, and the response itself. What is left of the text stands for the position of the cursor. -/

namespace AIWorld.Inference

open Lib
open Lib.Json (Bytes ascii quote backslash isWhite isDigit hexNumber shortEscape)

def npcAgentResponseBodyLimit : ℕ := 8192

/-! ### Writing -/

def hex (n : ℕ) : UInt8 := (if n < 10 then 0x30 + n else 0x57 + n).toUInt8

def quoteByte (c : UInt8) : Bytes :=
  if c = quote then [backslash, quote]
  else if c = backslash then [backslash, backslash]
  else if c = 0x0A then [backslash, 'n'.toUInt8]
  else if c = 0x0D then [backslash, 'r'.toUInt8]
  else if c = 0x09 then [backslash, 't'.toUInt8]
  else if c < 0x20 then
    [backslash, 'u'.toUInt8, '0'.toUInt8, '0'.toUInt8, hex (c.toNat / 16), hex (c.toNat % 16)]
  else [c]

def quoted (value : Bytes) : Bytes := quote :: (value.flatMap quoteByte ++ [quote])

/-! ### The cursor -/

namespace JsonCursor

def space (t : Bytes) : Bytes := t.dropWhile isWhite

def take (c : UInt8) (t : Bytes) : Option Bytes :=
  match space t with
  | [] => none
  | b :: t => if b = c then some t else none

def hex4 : Bytes → Option (ℕ × Bytes)
  | c₁ :: c₂ :: c₃ :: c₄ :: t => (hexNumber c₁ c₂ c₃ c₄).map (·, t)
  | _ => none

/-- The second half of a surrogate pair, which is itself escaped. -/
def lowSurrogate (t : Bytes) : Option (ℕ × Bytes) :=
  match t with
  | b :: u :: t =>
    if b = backslash ∧ u = 'u'.toUInt8 then
      (hex4 t).bind fun (low, t) => if low < 0xDC00 ∨ low > 0xDFFF then none else some (low, t)
    else none
  | _ => none

def unicodeEscape (t : Bytes) : Option (Bytes × Bytes) :=
  (hex4 t).bind fun (cp, t) =>
    if 0xD800 ≤ cp ∧ cp ≤ 0xDBFF then
      (lowSurrogate t).map fun (low, t) => (Utf8.encode (0x10000 + (cp - 0xD800) * 0x400 + low - 0xDC00), t)
    else if 0xDC00 ≤ cp ∧ cp ≤ 0xDFFF then none
    else some (Utf8.encode cp, t)

/-- What an escape appends to the string. -/
def escape (t : Bytes) : Option (Bytes × Bytes) :=
  match t with
  | [] => none
  | c :: t =>
    match shortEscape c with
    | some d => some ([d], t)
    | none => if c = 'u'.toUInt8 then unicodeEscape t else none

def stringLoop : ℕ → Bytes → Bytes → Option (Bytes × Bytes)
  | _, [], _ => none
  | 0, _ :: _, _ => none
  | fuel + 1, c :: t, candidate =>
    if c = quote then
      if validText candidate npcAgentResponseBodyLimit npcAgentResponseBodyLimit false false then
        some (candidate, t)
      else none
    else if c < 0x20 then none
    else if c ≠ backslash then stringLoop fuel t (candidate ++ [c])
    else (escape t).bind fun (s, t) => stringLoop fuel t (candidate ++ s)

def string (t : Bytes) : Option (Bytes × Bytes) :=
  match space t with
  | [] => none
  | c :: t => if c = quote then stringLoop t.length t [] else none

def uintLoop : Bytes → UInt64 → Option (UInt64 × Bytes)
  | [], candidate => some (candidate, [])
  | c :: t, candidate =>
    if isDigit c then
      let digit := (c - '0'.toUInt8).toUInt64
      if candidate > (0xFFFFFFFFFFFFFFFF - digit) / 10 then none
      else uintLoop t (candidate * 10 + digit)
    else some (candidate, c :: t)

def uint (t : Bytes) : Option (UInt64 × Bytes) :=
  let start := space t
  (uintLoop start 0).bind fun (value, t) =>
    if start.length = t.length ∨ (start.length - t.length > 1 ∧ start.head? = some '0'.toUInt8) then none
    else some (value, t)

def uint32 (t : Bytes) : Option (UInt32 × Bytes) :=
  (uint t).bind fun (candidate, t) =>
    if candidate > 0xFFFFFFFF then none else some (candidate.toUInt32, t)

section Object
variable {σ : Type} (read : Bytes → σ → Bytes → Option (σ × Bytes)) (required : ℕ)

/-- A member and those that follow it; the keys before it are known, and no more than required are read. -/
def members : ℕ → List Bytes → σ → Bytes → Option (σ × Bytes)
  | 0, _, _, _ => none
  | fuel + 1, keys, s, t =>
    (string t).bind fun (key, t) =>
      if key.length > 64 ∨ key ∈ keys then none
      else (take ':'.toUInt8 t).bind fun t =>
        let keys := keys ++ [key]
        if keys.length > required then none
        else (read key s t).bind fun (s, t) =>
          match take 0x7D t with
          | some t => if keys.length = required then some (s, t) else none
          | none => (take ','.toUInt8 t).bind fun t => members fuel keys s t

def object (s : σ) (t : Bytes) : Option (σ × Bytes) :=
  (take 0x7B t).bind fun t =>
    match take 0x7D t with
    | some t => if required = 0 then some (s, t) else none
    | none => members read required (required + 1) [] s t

end Object

end JsonCursor

/-! ### The response -/

structure NpcAgentDecision where
  actionToken : UInt32 := 0
  speech : Bytes := []
  speechTarget : UInt32 := 0
  emote : Bytes := ascii "NONE"
  deriving DecidableEq

structure NpcAgentResponse where
  protocolVersion : UInt32 := 1
  requestId : UInt64 := 0
  agent : UInt64 := 0
  snapshotSequence : UInt64 := 0
  decision : NpcAgentDecision := {}
  deriving DecidableEq

open JsonCursor in
def readDecision (field : Bytes) (d : NpcAgentDecision) (t : Bytes) : Option (NpcAgentDecision × Bytes) :=
  if field = ascii "action_token" then (uint32 t).map fun (v, t) => ({ d with actionToken := v }, t)
  else if field = ascii "speech" then (string t).map fun (v, t) => ({ d with speech := v }, t)
  else if field = ascii "speech_target" then (uint32 t).map fun (v, t) => ({ d with speechTarget := v }, t)
  else if field = ascii "emote" then (string t).map fun (v, t) => ({ d with emote := v }, t)
  else none

open JsonCursor in
def readResponse (key : Bytes) (r : NpcAgentResponse) (t : Bytes) : Option (NpcAgentResponse × Bytes) :=
  if key = ascii "protocol_version" then (uint32 t).map fun (v, t) => ({ r with protocolVersion := v }, t)
  else if key = ascii "request_id" then (uint t).map fun (v, t) => ({ r with requestId := v }, t)
  else if key = ascii "agent_id" then (uint t).map fun (v, t) => ({ r with agent := v }, t)
  else if key = ascii "snapshot_sequence" then
    (uint t).map fun (v, t) => ({ r with snapshotSequence := v }, t)
  else if key = ascii "decision" then
    (object readDecision 4 r.decision t).map fun (d, t) => ({ r with decision := d }, t)
  else none

/-- What is checked once everything is read. -/
def validResponse (r : NpcAgentResponse) : Bool :=
  r.protocolVersion == 1 && r.requestId != 0 && r.agent != 0 && knownEmote r.decision.emote &&
    validText r.decision.speech 768 256 true false

/-- Whether a response was read, and the caller's response after it. -/
def parseNpcAgentResponse (json : Bytes) (response : NpcAgentResponse) : Bool × NpcAgentResponse :=
  if json.length > npcAgentResponseBodyLimit then (false, response)
  else
    match JsonCursor.object readResponse 5 {} json with
    | none => (false, response)
    | some (candidate, t) =>
      if JsonCursor.space t ≠ [] ∨ validResponse candidate = false then (false, response)
      else (true, candidate)

end AIWorld.Inference
