import PreconfGateway.World

/-! The relay client: fetching delegations, and posting constraints with retries. -/
namespace PreconfGateway.Api
open Encoding Types
variable (P : Platform)

/-- The body of a reply as text, for an error message. -/
def errorText (response : HttpResponse) : String := (response.body.map P.responseText).getD "Unknown error"

def getDelegationsForSlot (slot : UInt64) : Async P (Result (List SignedDelegation)) := do
  match ← ask (.getDelegations slot) with
  | .error e => pure (.error ["Failed to fetch delegations for slot " ++ toString slot, e])
  | .ok response =>
    if response.status = 200 then
      let text := "Failed to parse delegations response"
      match response.body with
      | none => pure (.error [text, "error decoding response body"])
      | some body => pure ((P.delegationsResponseFromJson body).mapError (fun e => [text, e]))
    else if response.status = 404 then pure (.ok [])
    else pure (bail ("Failed to fetch delegations for slot " ++ toString slot ++ ": HTTP " ++
      P.statusText response.status ++ " - " ++ errorText P response))

structure ConstraintSubmissionResponse where
  status : Nat
  deriving DecidableEq

def maxAttempts (config : ConstraintsApiConfig) : Nat := max 1 config.maxRetries

/-- Exponential, with a capped shift and a capped delay, in milliseconds. -/
def backoffMs (attempt : Nat) : Nat := min (100 * 2 ^ min attempt 10) 30000

/-- What the client does after an attempt: stop, or go on after a pause. -/
inductive Verdict
  | accepted (response : ConstraintSubmissionResponse)
  | rejected (e : Chain)
  | retry (delay : Option Nat) (e : Chain)

def optionDebug : Option UInt32 → String
  | none => "None"
  | some code => "Some(" ++ toString code ++ ")"

def statusError (response : HttpResponse) : Chain :=
  match P.constraintsApiErrorFromJson (errorText P response) with
  | some (error, code) => ["Constraints API error: " ++ error ++ " (code: " ++ optionDebug code ++ ")"]
  | none => ["Constraints submission failed: HTTP " ++ P.statusText response.status ++ " - " ++
      errorText P response]

def judge (attempt : Nat) : Except String HttpResponse → Verdict
  | .error e => .retry (some (backoffMs attempt)) [e]
  | .ok response =>
    if response.success then .accepted ⟨response.status⟩
    else if response.status = 429 then .retry (some (backoffMs attempt)) ["Rate limited"]
    else if response.status = 408 ∨ response.status = 504 then .retry none ["API timeout"]
    else if 400 ≤ response.status ∧ response.status < 500 then .rejected (statusError P response)
    else if 500 ≤ response.status ∧ response.status < 600 then
      .retry (some (backoffMs attempt)) (statusError P response)
    else .retry none (statusError P response)

/-- The loop with the attempts that are left and those already made. -/
def submitLoop (constraints : SignedConstraints) :
    Nat → Nat → Option Chain → Async P (Result ConstraintSubmissionResponse)
  | 0, _, lastError => pure (.error (lastError.getD ["Unknown submission error"]))
  | left + 1, attempt, _ => do
    let reply ← ask (.postConstraints constraints)
    match judge P (attempt + 1) reply with
    | .accepted response => pure (.ok response)
    | .rejected e => pure (.error e)
    | .retry none e => submitLoop constraints left (attempt + 1) (some e)
    | .retry (some delay) e => do
      sleep delay
      submitLoop constraints left (attempt + 1) (some e)

def submitConstraints (config : ConstraintsApiConfig) (constraints : SignedConstraints) :
    Async P (Result ConstraintSubmissionResponse) :=
  submitLoop P constraints (maxAttempts config) 0 none

end PreconfGateway.Api
