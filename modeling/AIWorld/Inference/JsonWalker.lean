import AIWorld.Lib.Json.Grammar

/-! The walker over JSON texts. It answers where a value ends, and keeps for each member of an
object its decoded key and where its value stands; the fields are read from the text there.
A position past the end of the text reads nothing; no answer is `NPos` of the source. -/

namespace AIWorld.Inference

open Lib.Json (Bytes ascii quote backslash isWhite isDigit hexDigit shortEscape)

/-! ### Scanning -/

/-- The position after all that satisfies a test. -/
def skipWhile (p : UInt8 → Bool) (json : Bytes) (pos : ℕ) : ℕ := pos + ((json.drop pos).takeWhile p).length

def skipJsonWhitespace (json : Bytes) (pos : ℕ) : ℕ := skipWhile isWhite json pos

def isHexDigit (h : UInt8) : Bool :=
  ('0'.toUInt8 ≤ h && h ≤ '9'.toUInt8) || ('a'.toUInt8 ≤ h && h ≤ 'f'.toUInt8) ||
    ('A'.toUInt8 ≤ h && h ≤ 'F'.toUInt8)

/-- The letters that may follow a backslash, except for `u`. -/
def simpleEscapes : Bytes :=
  [quote, backslash, '/'.toUInt8, 'b'.toUInt8, 'f'.toUInt8, 'n'.toUInt8, 'r'.toUInt8, 't'.toUInt8]

/-- The loop over a literal, on what is left of the text at `i`. -/
def skipLiteral : Bytes → ℕ → Option ℕ
  | [], _ => none
  | c :: rest, i =>
    if c = quote then some (i + 1)
    else if c = backslash then
      match rest with
      | [] => none
      | esc :: rest =>
        if esc ∈ simpleEscapes then skipLiteral rest (i + 2)
        else if esc = 'u'.toUInt8 then
          match rest with
          | h₁ :: h₂ :: h₃ :: h₄ :: rest =>
            if isHexDigit h₁ && isHexDigit h₂ && isHexDigit h₃ && isHexDigit h₄ then skipLiteral rest (i + 6)
            else none
          | _ => none
        else none
    else if c < 0x20 then none
    else skipLiteral rest (i + 1)

def skipJsonStringLiteral (json : Bytes) (start : ℕ) : Option ℕ :=
  if json[start]? = some quote then skipLiteral (json.drop (start + 1)) (start + 1) else none

/-- UTF-8 of a single code unit. -/
def encodeCodepoint (codepoint : ℕ) : Bytes :=
  if codepoint ≤ 0x7F then [codepoint.toUInt8]
  else if codepoint ≤ 0x7FF then
    [(0xC0 ||| codepoint >>> 6).toUInt8, (0x80 ||| codepoint &&& 0x3F).toUInt8]
  else
    [(0xE0 ||| codepoint >>> 12).toUInt8, (0x80 ||| codepoint >>> 6 &&& 0x3F).toUInt8,
      (0x80 ||| codepoint &&& 0x3F).toUInt8]

def hexCodepoint (h₁ h₂ h₃ h₄ : UInt8) : Option ℕ :=
  [h₁, h₂, h₃, h₄].foldlM (fun codepoint h => (hexDigit h).map fun digit => codepoint <<< 4 ||| digit) 0

/-- The loop over the content of a literal. -/
def unescapeContent : Bytes → Option Bytes
  | [] => some []
  | c :: rest =>
    if c ≠ backslash then (unescapeContent rest).map (c :: ·)
    else
      match rest with
      | [] => none
      | esc :: rest =>
        if esc = 'u'.toUInt8 then
          match rest with
          | h₁ :: h₂ :: h₃ :: h₄ :: rest =>
            match hexCodepoint h₁ h₂ h₃ h₄ with
            | none => none
            | some codepoint => (unescapeContent rest).map (encodeCodepoint codepoint ++ ·)
          | _ => none
        else
          match shortEscape esc with
          | none => none
          | some d => (unescapeContent rest).map (d :: ·)

def unescapeJsonString (literal : Bytes) : Option Bytes :=
  if literal.length < 2 ∨ literal.head? ≠ some quote ∨ literal.getLast? ≠ some quote then none
  else unescapeContent literal.tail.dropLast

/-! ### Numbers -/

def isDigitAt (json : Bytes) (i : ℕ) : Bool := (json[i]?).any isDigit

def skipSign (json : Bytes) (i : ℕ) : ℕ := if json[i]? = some '-'.toUInt8 then i + 1 else i

/-- A leading zero stands alone. -/
def skipInteger (json : Bytes) (i : ℕ) : Option ℕ :=
  if !isDigitAt json i then none
  else if json[i]? = some '0'.toUInt8 then some (i + 1)
  else some (skipWhile isDigit json i)

def skipFraction (json : Bytes) (i : ℕ) : Option ℕ :=
  if json[i]? ≠ some '.'.toUInt8 then some i
  else if isDigitAt json (i + 1) then some (skipWhile isDigit json (i + 1))
  else none

def skipExponent (json : Bytes) (i : ℕ) : Option ℕ :=
  if json[i]? ≠ some 'e'.toUInt8 ∧ json[i]? ≠ some 'E'.toUInt8 then some i
  else
    let j := if json[i + 1]? = some '+'.toUInt8 ∨ json[i + 1]? = some '-'.toUInt8 then i + 2 else i + 1
    if isDigitAt json j then some (skipWhile isDigit json j) else none

/-- Answers `start` where no number begins. -/
def skipStrictJsonNumber (json : Bytes) (start : ℕ) : ℕ :=
  match (do
    let i ← skipInteger json (skipSign json start)
    let i ← skipFraction json i
    skipExponent json i) with
  | none => start
  | some i => i

/-! ### Values -/

/-- A member of an object: its key and where its value stands. -/
structure JsonObjectMember where
  key : Bytes
  valueStart : ℕ
  valueEnd : ℕ

def substr (json : Bytes) (start stop : ℕ) : Bytes := (json.drop start).take (stop - start)

section Loop
variable {α : Type} (element : List α → ℕ → Option (α × ℕ)) (close : UInt8) (json : Bytes)

/-- The loop over the elements between two brackets, each at least one byte long. -/
def parseElements : ℕ → List α → ℕ → Option (List α × ℕ)
  | 0, _, _ => none
  | fuel + 1, seen, i =>
    match element seen i with
    | none => none
    | some (x, stop) =>
      let i := skipJsonWhitespace json stop
      if json[i]? = some ','.toUInt8 then parseElements fuel (seen ++ [x]) (skipJsonWhitespace json (i + 1))
      else if json[i]? = some close then some (seen ++ [x], i + 1)
      else none

/-- Everything after an opening bracket at `start`. -/
def parseBracketed (start : ℕ) : Option (List α × ℕ) :=
  let i := skipJsonWhitespace json (start + 1)
  if json[i]? = some close then some ([], i + 1) else parseElements element close json json.length [] i

end Loop

/-- One member of an object, whose key must be new. -/
def parseMember (value : ℕ → Option ℕ) (json : Bytes) (seen : List JsonObjectMember) (keyStart : ℕ) :
    Option (JsonObjectMember × ℕ) := do
  let keyLiteralEnd ← skipJsonStringLiteral json keyStart
  let key ← unescapeJsonString (substr json keyStart keyLiteralEnd)
  if key ∈ seen.map JsonObjectMember.key then none
  else
    let i := skipJsonWhitespace json keyLiteralEnd
    if json[i]? ≠ some ':'.toUInt8 then none
    else
      let valueStart := skipJsonWhitespace json (i + 1)
      let valueEnd ← value valueStart
      some (⟨key, valueStart, valueEnd⟩, valueEnd)

/-- The members of the object at `start`, and where it ends. `value` walks over the value of a member. -/
def parseJsonObject (value : ℕ → Option ℕ) (json : Bytes) (start : ℕ) : Option (List JsonObjectMember × ℕ) :=
  parseBracketed (parseMember value json) 0x7D json start

/-- One element of an array, and where it stands. -/
def parseItem (value : ℕ → Option ℕ) (_ : List (ℕ × ℕ)) (start : ℕ) : Option ((ℕ × ℕ) × ℕ) := do
  let stop ← value start
  some ((start, stop), stop)

/-- Where the elements of the array at `start` stand, and where it ends. -/
def parseJsonArray (value : ℕ → Option ℕ) (json : Bytes) (start : ℕ) : Option (List (ℕ × ℕ) × ℕ) :=
  parseBracketed (parseItem value) ']'.toUInt8 json start

def maxDepth : ℕ := 32

/-- The end of the value at `pos`, which may have some number of levels. -/
def parseJsonValue (json : Bytes) : ℕ → ℕ → Option ℕ
  | 0, _ => none
  | levels + 1, pos =>
    match json[pos]? with
    | none => none
    | some c =>
      if c = 0x7B then (parseJsonObject (parseJsonValue json levels) json pos).map Prod.snd
      else if c = '['.toUInt8 then (parseJsonArray (parseJsonValue json levels) json pos).map Prod.snd
      else if c = quote then skipJsonStringLiteral json pos
      else if c = '-'.toUInt8 ∨ isDigit c then
        let stop := skipStrictJsonNumber json pos
        if stop = pos then none else some stop
      else if substr json pos (pos + 4) = ascii "true" then some (pos + 4)
      else if substr json pos (pos + 5) = ascii "false" then some (pos + 5)
      else if substr json pos (pos + 4) = ascii "null" then some (pos + 4)
      else none

/-- An object at some depth. Its members are one level deeper. -/
def parseObjectAt (json : Bytes) (start depth : ℕ) : Option (List JsonObjectMember × ℕ) :=
  parseJsonObject (parseJsonValue json (maxDepth - depth)) json start

def parseJsonRootObjectMembers (json : Bytes) : Option (List JsonObjectMember) :=
  let rootPos := skipJsonWhitespace json 0
  if json[rootPos]? ≠ some 0x7B then none
  else
    match parseObjectAt json rootPos 0 with
    | none => none
    | some (members, rootEnd) => if skipJsonWhitespace json rootEnd = json.length then some members else none

/-! ### Fields -/

def findMember (members : List JsonObjectMember) (key : Bytes) : Option JsonObjectMember :=
  members.find? fun member => member.key = key

def hasExactKeySet (members : List JsonObjectMember) (requiredKeys : List Bytes) : Bool :=
  members.length = requiredKeys.length && requiredKeys.all fun required => (findMember members required).isSome

/-- The number that digits stand for, if it has 64 bits. -/
def stoull (token : Bytes) : Option UInt64 :=
  let value := token.foldl (fun n c => n * 10 + (c.toNat - '0'.toNat)) 0
  if value < 2 ^ 64 then some value.toUInt64 else none

def parseUInt64Value (json : Bytes) (valueStart valueEnd : ℕ) : Option UInt64 :=
  if valueEnd ≤ valueStart then none
  else
    let token := substr json valueStart valueEnd
    if token.all isDigit then stoull token else none

def parseStringValue (json : Bytes) (valueStart valueEnd : ℕ) : Option Bytes :=
  if valueEnd - valueStart < 2 ∨ json[valueStart]? ≠ some quote then none
  else unescapeJsonString (substr json valueStart valueEnd)

end AIWorld.Inference
