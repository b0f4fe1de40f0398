import AIWorld.Lib.Python

/-! What the endpoints of the AI server are written on: values that are loaded from JSON, bodies that are read
chunk by chunk up to a limit, the model provider, and the errors that are answered. -/

namespace AIWorld.AiServer

open Lib.Json (Bytes)
open Lib.Python

/-- Why no value is loaded: no JSON, some other value error as from bytes that are no text, or too deep a
nesting. -/
inductive LoadsError
  | jsonDecodeError
  | valueError
  | recursionError
  deriving DecidableEq

/-- The libraries that the endpoints are run with: how JSON is loaded, how floats are printed, and what a failed
validation reports. -/
structure Runtime (D : Type) where
  floats : FloatOps D
  loadsBytes : Bytes → Except LoadsError (Value D)
  loadsText : List ℕ → Except LoadsError (Value D)
  repr : D → Bytes
  report : Value D → String

structure HttpException where
  statusCode : ℕ
  detail : String

/-- What is answered for an error that no handler expects. -/
def internalServerError : HttpException := ⟨500, "Internal Server Error"⟩

/-- The chunks of a stream in one piece, or nothing once they pass the limit. -/
def readBounded (limit : ℤ) (body : Bytes) : List Bytes → Option Bytes
  | [] => some body
  | chunk :: rest => if ((body ++ chunk).length : ℤ) > limit then none else readBounded limit (body ++ chunk) rest

theorem length_readBounded {limit : ℤ} {chunks : List Bytes} {body body' : Bytes} (hbody : body.length ≤ limit)
    (h : readBounded limit body chunks = some body') : body'.length ≤ limit := by
  induction chunks generalizing body with
  | nil =>
    cases h
    exact hbody
  | cons chunk rest ih =>
    rw [readBounded, Option.ite_none_left_eq_some] at h
    exact ih (not_lt.mp h.1) h.2

/-! ### The provider -/

structure ModelProviderConfig where
  enabled : Bool
  url : String
  modelName : String
  maxRequestBytes : ℤ
  maxResponseBytes : ℤ

def ModelProviderConfig.configured (config : ModelProviderConfig) : Bool := config.url ≠ "" && config.modelName ≠ ""

inductive ModelProviderError
  | timeout
  | unavailable
  | badStatus (statusCode : ℕ)
  | oversizedResponse (limit : ℤ)
  | malformedContent (message : String)

def ModelProviderError.message : ModelProviderError → String
  | .timeout => "model provider request timed out"
  | .unavailable => "model provider unreachable"
  | .badStatus statusCode => s!"model provider returned HTTP {statusCode}"
  | .oversizedResponse limit => s!"model provider response exceeded {limit} bytes"
  | .malformedContent message => message

/-- What a call of the provider raises. -/
inductive Raised
  | provider (error : ModelProviderError)
  | loads (error : LoadsError)

/-- How the backend answers: not at all, or with a status and a stream of chunks that may break off. -/
inductive HttpxError
  | timeout
  | other

structure ProviderAnswer where
  statusCode : ℕ
  chunks : List Bytes
  failure : Option HttpxError

def HttpxError.raised : HttpxError → ModelProviderError
  | .timeout => .timeout
  | .other => .unavailable

section Provider
variable {D : Type} (runtime : Runtime D)

def member (name : String) : Value D → Option (Value D)
  | .dict members => members.lookup (codePoints name)
  | _ => none

def firstItem : Value D → Option (Value D)
  | .list items => items.head?
  | _ => none

def extractMessageContent (rawBody : Bytes) : Except Raised (List ℕ) :=
  match runtime.loadsBytes rawBody with
  | .error .jsonDecodeError =>
    .error (.provider (.malformedContent "model provider response did not match the chat-completions shape"))
  | .error error => .error (.loads error)
  | .ok body =>
    match (member "choices" body).bind firstItem |>.bind (member "message") |>.bind (member "content") with
    | none => .error (.provider (.malformedContent "model provider response did not match the chat-completions shape"))
    | some (.str content) => .ok content
    | some _ => .error (.provider (.malformedContent "model provider message content was not a string"))

/-- A stream that is too long is noticed before it breaks off. -/
def complete (config : ModelProviderConfig) : Except HttpxError ProviderAnswer → Except Raised (List ℕ)
  | .error error => .error (.provider error.raised)
  | .ok answer =>
    if ¬(200 ≤ answer.statusCode ∧ answer.statusCode < 300) then .error (.provider (.badStatus answer.statusCode))
    else
      match readBounded config.maxResponseBytes [] answer.chunks, answer.failure with
      | none, _ => .error (.provider (.oversizedResponse config.maxResponseBytes))
      | some _, some error => .error (.provider error.raised)
      | some rawBody, none => extractMessageContent runtime rawBody

end Provider

end AIWorld.AiServer
