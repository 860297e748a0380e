import PreconfGateway.Encoding.Json
import PreconfGateway.Interleaving.Handled
import PreconfGateway.Types.Messages
import PreconfGateway.Types.Timing

/-! The client of the beacon chain: a primary endpoint and its fallbacks, asked one after another. -/
namespace PreconfGateway.Api.Beacon
open Encoding Types Interleaving

/-- The library that reads JSON, with its texts for values that a reader of records refuses. -/
structure JsonLibrary where
  fromSlice : Bytes → Except String Json
  mismatch : {T : Type} → (Json → Option T) → Json → String

structure ValidatorDuty extends Types.ValidatorDuty where
  validatorIndex : String
  deriving DecidableEq

structure ProposerDutiesResponse where
  executionOptimistic : Bool
  finalized : Bool
  data : List ValidatorDuty
  deriving DecidableEq

structure ValidatorDetails where
  pubkey : String
  slashed : Bool
  deriving DecidableEq

structure ValidatorData where
  index : String
  status : String
  validator : ValidatorDetails
  deriving DecidableEq

structure ValidatorResponse where
  data : ValidatorData
  deriving DecidableEq

structure ValidatorInfo extends Types.ValidatorInfo where
  validatorIndex : UInt64
  deriving DecidableEq

def bool? : Json → Option Bool
  | .bool b => some b
  | _ => none

def ValidatorDuty.ofJson (v : Json) : Option ValidatorDuty := do
  match ← v.fields ["validator_index", "pubkey", "slot"] with
  | [validatorIndex, pubkey, slot] => some ⟨⟨← pubkey.string?, ← slot.string?⟩, ← validatorIndex.string?⟩
  | _ => none

def ProposerDutiesResponse.ofJson (v : Json) : Option ProposerDutiesResponse := do
  match ← v.fields ["execution_optimistic", "finalized", "data"] with
  | [optimistic, finalized, data] =>
    some ⟨← bool? optimistic, ← bool? finalized, ← (← data.array?).mapM ValidatorDuty.ofJson⟩
  | _ => none

def ValidatorDetails.ofJson (v : Json) : Option ValidatorDetails := do
  match ← v.fields ["pubkey", "slashed"] with
  | [pubkey, slashed] => some ⟨← pubkey.string?, ← bool? slashed⟩
  | _ => none

def ValidatorData.ofJson (v : Json) : Option ValidatorData := do
  match ← v.fields ["index", "status", "validator"] with
  | [index, status, validator] => some ⟨← index.string?, ← status.string?, ← ValidatorDetails.ofJson validator⟩
  | _ => none

def ValidatorResponse.ofJson (v : Json) : Option ValidatorResponse := do
  match ← v.fields ["data"] with
  | [data] => some ⟨← ValidatorData.ofJson data⟩
  | _ => none

inductive ParseIntError
  | empty
  | invalidDigit
  | posOverflow
  deriving DecidableEq

def ParseIntError.display : ParseIntError → String
  | .empty => "cannot parse integer from empty string"
  | .invalidDigit => "invalid digit found in string"
  | .posOverflow => "number too large to fit in target type"

/-- The digits from left to right; the first that is none, or with which the number grows too large, ends it. -/
def parseDigits (n : Nat) : List Char → Except ParseIntError UInt64
  | [] => .ok (.ofNat n)
  | c :: cs =>
    if '0' ≤ c ∧ c ≤ '9' then
      let n := 10 * n + (c.toNat - 48)
      if n < 2 ^ 64 then parseDigits n cs else .error .posOverflow
    else .error .invalidDigit

/-- A sign may stand before the digits, but not alone. -/
def parseU64 (s : String) : Except ParseIntError UInt64 :=
  match s.toList with
  | [] => .error .empty
  | ['+'] => .error .invalidDigit
  | '+' :: digits => parseDigits 0 digits
  | digits => parseDigits 0 digits

def ValidatorDuty.parseSlot (duty : ValidatorDuty) : Except ParseIntError UInt64 := parseU64 duty.slot

structure HttpResponse where
  status : UInt16
  body : Bytes
  deriving DecidableEq

/-- The one request there is: the page of a URL. -/
abbrev requests : Signature := ⟨String, fun _ => Result HttpResponse⟩

abbrev Client (α : Type) := Program requests α

structure BeaconApiConfig where
  primaryEndpoint : String
  fallbackEndpoints : List String

section Requests
variable (J : JsonLibrary) {T α : Type}

def joinUrl (baseUrl endpoint : String) : String :=
  if baseUrl.toList.getLast? = some '/' then baseUrl ++ endpoint else baseUrl ++ "/" ++ endpoint

def fromSlice (read : Json → Option T) (body : Bytes) : Except String T :=
  match J.fromSlice body with
  | .error e => .error e
  | .ok v => match read v with
    | some t => .ok t
    | none => .error (J.mismatch read v)

def errorText (body : Bytes) : String := (String.fromUTF8? ⟨body.toArray⟩).getD "Unknown error"

/-- What a reply from a URL means: the record in its body, or why there is none. -/
def receive (read : Json → Option T) (url : String) : Result HttpResponse → Result T
  | .error e => .error (("Failed to send request to " ++ url) :: e)
  | .ok response =>
    if response.status ≠ 200 then
      bail ("Beacon API request failed with status " ++ toString response.status ++ ": " ++ errorText response.body)
    else (fromSlice J read response.body).mapError (fun e => ["Failed to parse response from " ++ url, e])

def makeRequest (read : Json → Option T) (baseUrl endpoint : String) : Client (Result T) := do
  let url := joinUrl baseUrl endpoint
  let reply ← Program.request (S := requests) url
  pure (receive J read url reply)

/-- The fallbacks in order, with the last error so far. -/
def tryFallbacks (read : Json → Option T) (finish : T → Result α) (endpoint : String) :
    List String → Option Chain → Client (Result α)
  | [], last => pure (.error (last.getD ["No beacon endpoints configured"]))
  | fallback :: fallbacks, _ => do
    match ← makeRequest J read fallback endpoint with
    | .ok response => pure (finish response)
    | .error e => tryFallbacks read finish endpoint fallbacks (some e)

/-- The primary endpoint, then the fallbacks; the first record that arrives is made the result. -/
def tryEndpoints (read : Json → Option T) (finish : T → Result α) (config : BeaconApiConfig) (endpoint : String) :
    Client (Result α) := do
  match ← makeRequest J read config.primaryEndpoint endpoint with
  | .ok response => pure (finish response)
  | .error e => tryFallbacks J read finish endpoint config.fallbackEndpoints (some e)

def proposerEndpoint (epoch : UInt64) : String := "eth/v1/validator/duties/proposer/" ++ toString epoch

def getProposerDuties (config : BeaconApiConfig) (epoch : UInt64) : Client (Result ProposerDutiesResponse) :=
  tryEndpoints J ProposerDutiesResponse.ofJson .ok config (proposerEndpoint epoch)

/-- The first duty for the slot; a slot before it that cannot be read is an error. -/
def findDuty (slot : UInt64) : List ValidatorDuty → Result (Option ValidatorDuty)
  | [] => .ok none
  | duty :: duties =>
    match duty.parseSlot with
    | .error e => .error ["Failed to parse slot from validator duty", e.display]
    | .ok dutySlot => if dutySlot = slot then .ok (some duty) else findDuty slot duties

def getProposerForSlot (config : BeaconApiConfig) (slot : UInt64) : Client (Result (Option ValidatorDuty)) := do
  match ← getProposerDuties J config (BeaconTiming.slotToEpoch slot) with
  | .error e => pure (.error e)
  | .ok duties => pure (findDuty slot duties.data)

def parseValidatorInfo (data : ValidatorData) : Result ValidatorInfo :=
  match parseU64 data.index with
  | .error e => .error ["Failed to parse validator index", e.display]
  | .ok validatorIndex =>
    let isActive := data.status = "active_ongoing" ∨ data.status = "active_exiting" ∨ data.status = "active_slashed"
    .ok ⟨⟨isActive, data.validator.slashed⟩, validatorIndex⟩

def statusEndpoint (pubkey : BlsPublicKey) : String := "eth/v1/beacon/states/head/validators/0x" ++ Hex.encode pubkey.bytes

def getValidatorStatus (config : BeaconApiConfig) (pubkey : BlsPublicKey) : Client (Result ValidatorInfo) :=
  tryEndpoints J ValidatorResponse.ofJson (fun response => parseValidatorInfo response.data) config (statusEndpoint pubkey)

end Requests
end PreconfGateway.Api.Beacon
