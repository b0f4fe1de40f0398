import AIWorld.AiServer.DynamicTask
import AIWorld.Inference.RecoveryAdvice
import AIWorld.Lib.PythonLoads

/-! Advice on recovery as the AI server gives it: a request with its bounds, the choice of the model among the
offered tokens, and the answer. JSON is loaded strictly, without duplicate keys. -/

namespace AIWorld.AiServer

open Lib.Json (Bytes Field writeObject)
open Lib.Python

/-! ### The contract -/

/-- The libraries, with a loader that refuses duplicate keys and the double nearest to a number. -/
structure StrictRuntime (D : Type) extends Runtime D where
  nearest : ℚ → D
  strictBytes : Bytes → Except LoadsError (Value D)
  strictText : List ℕ → Except LoadsError (Value D)

namespace Recovery

inductive Strategy
  | corridor | trail | detour | navRejoin | knownSuccess | forage
  deriving DecidableEq

def strategies : List (String × Strategy) :=
  [("CORRIDOR", .corridor), ("TRAIL", .trail), ("DETOUR", .detour), ("NAV_REJOIN", .navRejoin),
    ("KNOWN_SUCCESS", .knownSuccess), ("FORAGE", .forage)]

inductive Problem
  | returnHome | findFood
  deriving DecidableEq

def problems : List (String × Problem) := [("RETURN_HOME", .returnHome), ("FIND_FOOD", .findFood)]

section Models
variable {D : Type} (runtime : StrictRuntime D)

/-- Both ends belong to the range. -/
def within (low high : ℚ) (d : D) : Bool :=
  runtime.floats.le (runtime.nearest low) d && runtime.floats.le d (runtime.nearest high)

/-- The lower end does not belong to the range. -/
def above (low high : ℚ) (d : D) : Bool :=
  runtime.floats.lt (runtime.nearest low) d && runtime.floats.le d (runtime.nearest high)

abbrev Between (low high : ℚ) := Finite runtime.floats (within runtime low high)

abbrev Above (low high : ℚ) := Finite runtime.floats (above runtime low high)

structure OptionModel where
  token : Ranged 1 8
  strategy : Strategy
  dx : Between runtime (-30) 30
  dy : Between runtime (-30) 30
  dz : Between runtime (-30) 30
  distance : Above runtime 1 30
  homeGain : Between runtime (-30) 30
  nearbyPrey : Ranged 0 10000
  visits : Ranged 0 10000
  successes : Ranged 0 10000

structure RecoveryRequest where
  protocolVersion : Ranged 1 1
  requestId : Ranged 1 uint64Max
  agentId : Ranged 1 uint64Max
  episode : Ranged 1 uint64Max
  role : Text 1 32
  problem : Problem
  failure : Text 0 128
  hunger : Between runtime 0 1
  homeDistance : Between runtime 0 10000
  stalledMs : Ranged 0 uint64Max
  failures : Ranged 0 10000
  options : List (OptionModel runtime)
  uniqueTokens : (options.map fun option => option.token.1).Nodup

/-! ### Validation -/

def OptionModel.modelValidate (v : Value D) : Option (OptionModel runtime) := do
  let members ← model ["token", "strategy", "dx", "dy", "dz", "distance", "home_gain", "nearby_prey", "visits",
    "successes"] v
  let token ← field members "token" (strictInt 1 8)
  let strategy ← field members "strategy" (oneOf strategies)
  let dx ← field members "dx" (strictFloat runtime.floats _)
  let dy ← field members "dy" (strictFloat runtime.floats _)
  let dz ← field members "dz" (strictFloat runtime.floats _)
  let distance ← field members "distance" (strictFloat runtime.floats _)
  let homeGain ← field members "home_gain" (strictFloat runtime.floats _)
  let nearbyPrey ← field members "nearby_prey" (strictInt 0 10000)
  let visits ← field members "visits" (strictInt 0 10000)
  let successes ← field members "successes" (strictInt 0 10000)
  some { token, strategy, dx, dy, dz, distance, homeGain, nearbyPrey, visits, successes }

def RecoveryRequest.modelValidate (v : Value D) : Option (RecoveryRequest runtime) := do
  let members ← model ["protocol_version", "request_id", "agent_id", "episode", "role", "problem", "failure", "hunger",
    "home_distance", "stalled_ms", "failures", "options"] v
  let protocolVersion ← field members "protocol_version" (strictInt 1 1)
  let requestId ← field members "request_id" (strictInt 1 uint64Max)
  let agentId ← field members "agent_id" (strictInt 1 uint64Max)
  let episode ← field members "episode" (strictInt 1 uint64Max)
  let role ← field members "role" (strictText 1 32)
  let problem ← field members "problem" (oneOf problems)
  let failure ← field members "failure" (strictText 0 128)
  let hunger ← field members "hunger" (strictFloat runtime.floats _)
  let homeDistance ← field members "home_distance" (strictFloat runtime.floats _)
  let stalledMs ← field members "stalled_ms" (strictInt 0 uint64Max)
  let failures ← field members "failures" (strictInt 0 10000)
  let options ← field members "options" (listOf 1 8 (OptionModel.modelValidate runtime))
  if uniqueTokens : (options.map fun option => option.token.1).Nodup then
    some { protocolVersion, requestId, agentId, episode, role, problem, failure, hunger, homeDistance, stalledMs,
           failures, options, uniqueTokens }
  else none

def choiceValidate (v : Value D) : Option (Ranged 0 8) := do
  let members ← model ["choice"] v
  field members "choice" (strictInt 0 8)

end Models
end Recovery

open Recovery

/-! ### The endpoint -/

section Endpoint
variable {D : Type} (runtime : StrictRuntime D) (config : ModelProviderConfig)

def receiveRecovery (chunks : List Bytes) : Except HttpException (RecoveryRequest runtime) :=
  match readBounded 8192 [] chunks with
  | none => .error ⟨413, "recovery request too large"⟩
  | some body =>
    match runtime.strictBytes body with
    | .error .recursionError => .error internalServerError
    | .error _ => .error ⟨422, "invalid recovery request"⟩
    | .ok payload =>
      match RecoveryRequest.modelValidate runtime payload with
      | none => .error ⟨422, "invalid recovery request"⟩
      | some request => .ok request

/-- The choice that the model makes; without an answer in time there is none. -/
def choose (request : RecoveryRequest runtime) :
    Option (Except HttpxError ProviderAnswer) → Except HttpException (Ranged 0 8)
  | none => .error ⟨504, "recovery model timeout"⟩
  | some answer =>
    match complete runtime.toRuntime config answer with
    | .error (.provider .timeout) => .error ⟨504, "recovery model timeout"⟩
    | .error (.loads .recursionError) => .error internalServerError
    | .error _ => .error ⟨502, "invalid recovery model response"⟩
    | .ok content =>
      match runtime.strictText content with
      | .error .recursionError => .error internalServerError
      | .error _ => .error ⟨502, "invalid recovery model response"⟩
      | .ok payload =>
        match choiceValidate payload with
        | none => .error ⟨502, "invalid recovery model response"⟩
        | some choice =>
          if choice.1 ≠ 0 ∧ choice.1 ∉ request.options.map (fun option => option.token.1) then
            .error ⟨502, "invalid recovery model response"⟩
          else .ok choice

structure RecoveryAnswer where
  requestId : Ranged 1 uint64Max
  agentId : Ranged 1 uint64Max
  episode : Ranged 1 uint64Max
  choice : Ranged 0 8

/-- The body of an answer with status 200. -/
def RecoveryAnswer.body (answer : RecoveryAnswer) : Bytes :=
  writeObject (Inference.choiceFields answer.requestId.1 answer.agentId.1 answer.episode.1 answer.choice.1)

/-- The endpoint, when all its slots are locked or not. -/
def recovery (locked : Bool) (backend : RecoveryRequest runtime → Option (Except HttpxError ProviderAnswer))
    (chunks : List Bytes) : Except HttpException RecoveryAnswer := do
  let request ← receiveRecovery runtime chunks
  if !config.enabled || !config.configured then .error ⟨503, "recovery model disabled or not configured"⟩
  else if locked then .error ⟨429, "recovery capacity exhausted"⟩
  else
    let choice ← choose runtime config request (backend request)
    .ok { requestId := request.requestId, agentId := request.agentId, episode := request.episode, choice }

end Endpoint

end AIWorld.AiServer
