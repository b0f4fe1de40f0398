import AIWorld.Inference.JsonFields
import AIWorld.Quest.Instance

/-! The answer to a dynamic task request. The parser answers for exactly the texts whose object has
the required members with values of the required kinds, in whatever order and spacing. -/

namespace AIWorld.Inference

open Lib.Json
open Quest (QuestObjectiveType)

/-! ### Parsing -/

/-- Reading a number as a double and narrowing it. `stod` answers the value and how many bytes it
has read, or nothing where the source's throws. -/
structure FloatConversion (D F : Type) where
  stod : Bytes → Option (D × ℕ)
  isFinite : D → Bool
  inFloatRange : D → Bool
  narrow : D → F
  isFiniteFloat : F → Bool
  isPositive : F → Bool

structure QuestProposalDraft (F : Type) where
  objective : QuestObjectiveType
  targetToken : UInt32
  requiredCount : UInt32
  maxRangeYards : F
  expiryMs : UInt32
  rewardMoneyCopper : UInt32
  title : Bytes
  description : Bytes

structure DynamicTaskResponse (F : Type) where
  version : UInt32
  requestId : UInt64
  agent : UInt64
  snapshotSequence : UInt64
  proposal : QuestProposalDraft F

def questContractMaxTitleLength : ℕ := 80

def questContractMaxDescriptionLength : ℕ := 400

variable {D F : Type} (conversion : FloatConversion D F)

/-- A finite float from the whole of a token. -/
def FloatConversion.convert (token : Bytes) : Option F := do
  let (value, consumed) ← conversion.stod token
  if consumed ≠ token.length || !conversion.isFinite value then none
  else if !conversion.inFloatRange value then none
  else if !conversion.isFiniteFloat (conversion.narrow value) then none
  else some (conversion.narrow value)

def parseFloatValue (json : Bytes) (valueStart valueEnd : ℕ) : Option F :=
  if valueEnd ≤ valueStart then none
  else
    let token := substr json valueStart valueEnd
    if token.head? = some '-'.toUInt8 || token.head?.any isDigit then conversion.convert token else none

def parseQuestObjectiveType (text : Bytes) : Option QuestObjectiveType :=
  if text = ascii "KILL_CREATURE" then some .killCreature else none

section Fields
variable (json : Bytes) (members : List JsonObjectMember)

def uint64Field (key : String) : Option UInt64 := do
  let member ← findMember members (ascii key)
  parseUInt64Value json member.valueStart member.valueEnd

/-- A field that must fit into 32 bits. -/
def uint32Field (key : String) : Option UInt32 := do
  let value ← uint64Field json members key
  if value > 0xFFFFFFFF then none else some value.toUInt32

def floatField (key : String) : Option F := do
  let member ← findMember members (ascii key)
  parseFloatValue conversion json member.valueStart member.valueEnd

def stringField (key : String) : Option Bytes := do
  let member ← findMember members (ascii key)
  parseStringValue json member.valueStart member.valueEnd

/-- The members of a field that is an object. -/
def objectField (key : String) (depth : ℕ) : Option (List JsonObjectMember) := do
  let member ← findMember members (ascii key)
  if member.valueEnd ≤ member.valueStart ∨ json[member.valueStart]? ≠ some 0x7B then none
  else
    let (inner, stop) ← parseObjectAt json member.valueStart depth
    if stop = member.valueEnd then some inner else none

end Fields

def responseKeys : List Bytes :=
  ["protocol_version", "request_id", "agent_id", "snapshot_sequence", "proposal"].map ascii

def proposalKeys : List Bytes :=
  ["objective", "target_token", "required_count", "max_range_yards", "expiry_ms", "reward_money_copper", "title",
    "description"].map ascii

def readProposal (json : Bytes) (members : List JsonObjectMember) : Option (QuestProposalDraft F) := do
  if !hasExactKeySet members proposalKeys then none
  else
    let objective ← parseQuestObjectiveType (← stringField json members "objective")
    let targetToken ← uint32Field json members "target_token"
    let requiredCount ← uint32Field json members "required_count"
    if requiredCount = 0 then none
    else
      let maxRangeYards ← floatField conversion json members "max_range_yards"
      if !conversion.isPositive maxRangeYards then none
      else
        let expiryMs ← uint32Field json members "expiry_ms"
        if expiryMs = 0 then none
        else
          let rewardMoneyCopper ← uint32Field json members "reward_money_copper"
          let title ← stringField json members "title"
          if title.length > questContractMaxTitleLength then none
          else
            let description ← stringField json members "description"
            if description.length > questContractMaxDescriptionLength then none
            else
              some { objective, targetToken, requiredCount, maxRangeYards, expiryMs, rewardMoneyCopper, title,
                     description }

def readDynamicTaskResponse (json : Bytes) : Option (DynamicTaskResponse F) := do
  let members ← parseJsonRootObjectMembers json
  if !hasExactKeySet members responseKeys then none
  else
    let version ← uint32Field json members "protocol_version"
    let requestId ← uint64Field json members "request_id"
    let agent ← uint64Field json members "agent_id"
    let snapshotSequence ← uint64Field json members "snapshot_sequence"
    let proposal ← readProposal conversion json (← objectField json members "proposal" 1)
    some { version, requestId, agent, snapshotSequence, proposal }

/-- The response is written when everything has been read. -/
def parseDynamicTaskResponse (json : Bytes) (response : DynamicTaskResponse F) : Bool × DynamicTaskResponse F :=
  match readDynamicTaskResponse conversion json with
  | none => (false, response)
  | some parsed => (true, parsed)

end AIWorld.Inference
