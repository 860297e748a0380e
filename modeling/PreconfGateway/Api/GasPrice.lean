import PreconfGateway.Api.Nodes

/-! The gas price and the block number that the execution node reports. -/
namespace PreconfGateway.Api.Reth
open Encoding Types Interleaving

/-- The library of 256-bit numbers, with its texts for strings that are none. -/
structure U256Library where
  invalid : String → String

structure GasPriceInfo extends Types.GasPriceInfo where
  blockNumber : UInt64
  timestamp : UInt64
  deriving DecidableEq

def hexValue (digits : List Nat) : Nat := digits.foldl (fun n d => 16 * n + d) 0

/-- At most sixty-four digits, perhaps none, perhaps after a prefix. -/
def u256FromStrRadix16 (s : String) : Option Nat :=
  let digits := (strip0x s).toList
  if digits.length ≤ 64 then (digits.mapM Hex.value).map hexValue else none

/-- The digits from left to right; the first that is none, or with which the number grows too large, ends it. -/
def hexDigits (n : Nat) : List Char → Except Beacon.ParseIntError UInt64
  | [] => .ok (.ofNat n)
  | c :: cs =>
    match Hex.value c with
    | none => .error .invalidDigit
    | some d => if 16 * n + d < 2 ^ 64 then hexDigits (16 * n + d) cs else .error .posOverflow

/-- A sign may stand before the digits, but not alone. -/
def u64FromStrRadix16 (s : String) : Except Beacon.ParseIntError UInt64 :=
  match s.toList with
  | [] => .error .empty
  | ['+'] => .error .invalidDigit
  | '+' :: digits => hexDigits 0 digits
  | digits => hexDigits 0 digits

def rpcPayload (method : String) (id : Nat) : Json :=
  .object [("id", .natural id),("jsonrpc", .string "2.0"),("method", .string method),("params", .array [])]

/-- The member that has the result; where there is none, null. -/
def rpcResult (response : Json) : Json := (get response "result").getD .null

def gasPriceOf (U : U256Library) (response : Json) : Result Nat :=
  match (rpcResult response).string? with
  | none => bail "Invalid gas price response format"
  | some gasPriceHex =>
    match u256FromStrRadix16 (strip0x gasPriceHex) with
    | none => .error ["Failed to parse gas price as U256 hex value", U.invalid (strip0x gasPriceHex)]
    | some gasPrice => .ok gasPrice

def blockNumberOf (response : Json) : Result UInt64 :=
  match (rpcResult response).string? with
  | none => bail "Invalid block number response format"
  | some blockHex =>
    (u64FromStrRadix16 (strip0x blockHex)).mapError (fun e => ["Failed to parse block number hex value", e.display])

variable (J : JsonLibrary) (U : U256Library) (maxRetries : UInt32)

def getBlockNumber : Reth.Client (Result UInt64) := do
  match ← makeRpcCall J maxRetries (rpcPayload "eth_blockNumber" 3) with
  | .error e => pure (.error ("Failed to get block number from Reth node" :: e))
  | .ok response => pure (blockNumberOf response)

/-- The price counts; a block number that cannot be had is reported as zero. -/
def getGasPrice : Nodes.Client (Result GasPriceInfo) := do
  match ← Nodes.ofReth (makeRpcCall J maxRetries (rpcPayload "eth_gasPrice" 1)) with
  | .error e => pure (.error ("Failed to get gas price from Reth node" :: e))
  | .ok response =>
    match gasPriceOf U response with
    | .error e => pure (.error e)
    | .ok gasPrice => do
      let number ← Nodes.ofReth (getBlockNumber J maxRetries)
      let timestamp ← Nodes.ask .now
      pure (.ok ⟨⟨gasPrice⟩, number.toOption.getD 0, timestamp⟩)

end PreconfGateway.Api.Reth
