import PreconfGateway.Encoding.Json
import PreconfGateway.Interleaving.Handled
import PreconfGateway.Types.Messages

/-! The client of the execution node: a JSON-RPC call with its retries. -/
namespace PreconfGateway.Api.Reth
open Encoding Types Interleaving

/-- The library that reads and prints JSON. -/
structure JsonLibrary where
  fromSlice : Bytes → Except String Json
  display : Json → String

/-- A name that is repeated in an object has its last value. -/
def get (value : Json) (name : String) : Option Json :=
  match value with
  | .object members => ((members.filter (fun m => m.1 = name)).getLast?).map Prod.snd
  | _ => none

inductive Request
  | post (payload : Json)
  | sleep (ms : Nat)

@[reducible] def Request.Reply : Request → Type
  | .post _ => Except String HttpResponse
  | .sleep _ => Unit

abbrev requests : Signature := ⟨Request, Request.Reply⟩

abbrev Client (α : Type) := Program requests α

def isSuccess (response : HttpResponse) : Bool := 200 ≤ response.status && response.status < 300

/-- The body as JSON, when it can be read and parsed. -/
def json (J : JsonLibrary) (response : HttpResponse) : Except String Json :=
  match response.body with
  | none => .error "error decoding response body"
  | some body => J.fromSlice body

/-- What a reply means for the call: its result, or none when it is only logged. -/
def outcome (J : JsonLibrary) : Except String HttpResponse → Option (Result Json)
  | .error _ => none
  | .ok response =>
    if isSuccess response then
      match json J response with
      | .ok value =>
        match get value "error" with
        | some e => some (bail ("RPC error: " ++ J.display e))
        | none => some (.ok value)
      | .error _ => none
    else none

/-- The loop with the attempts that are left and those already made. -/
def retryLoop (J : JsonLibrary) (payload : Json) (maxRetries : UInt32) : Nat → Nat → Client (Result Json)
  | 0, _ => pure (bail ("Failed to connect to Reth node after " ++ toString maxRetries ++ " attempts"))
  | left + 1, attempts => do
    let reply ← Program.request (S := requests) (.post payload)
    match outcome J reply with
    | some result => pure result
    | none =>
      let attempts := attempts + 1
      if attempts < maxRetries.toNat then
        let _ ← Program.request (S := requests) (.sleep (100 * attempts))
        retryLoop J payload maxRetries left attempts
      else retryLoop J payload maxRetries left attempts

def makeRpcCall (J : JsonLibrary) (maxRetries : UInt32) (payload : Json) : Client (Result Json) :=
  retryLoop J payload maxRetries maxRetries.toNat 0

end PreconfGateway.Api.Reth
