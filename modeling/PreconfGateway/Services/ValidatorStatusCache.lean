import PreconfGateway.Api.Nodes
import PreconfGateway.Interleaving.Join

/-! The statuses of validators, from the cache or else from the beacon chain. -/
namespace PreconfGateway.Services.ValidatorStatusCache
open Types Interleaving Api Api.Nodes
variable (J : Beacon.JsonLibrary) (config : Beacon.BeaconApiConfig)

def getStatus (validatorPubkey : BlsPublicKey) : Client (Result Beacon.ValidatorInfo) := do
  match ← ask (.cached validatorPubkey) with
  | some cachedInfo => pure (.ok cachedInfo)
  | none =>
    match ← ofBeacon (Beacon.getValidatorStatus J config validatorPubkey) with
    | .error e => pure (.error e)
    | .ok validatorInfo => do
      let _ ← ask (.cache validatorPubkey validatorInfo)
      pure (.ok validatorInfo)

abbrev StatusMap := BlsPublicKey → Option Beacon.ValidatorInfo

/-- The results in the order of the keys; the first error is that of the batch. -/
def collectStatuses : List (BlsPublicKey × Result Beacon.ValidatorInfo) → StatusMap → Result StatusMap
  | [], statusMap => .ok statusMap
  | (_, .error e) :: _, _ => .error e
  | (pubkey, .ok info) :: results, statusMap => collectStatuses results (Function.update statusMap pubkey (some info))

/-- All the keys are looked up side by side. -/
def getBatchStatus (validatorPubkeys : List BlsPublicKey) :
    Fork requests (BlsPublicKey × Result Beacon.ValidatorInfo) (Result StatusMap) where
  parts := validatorPubkeys.map (fun pubkey => do
    let result ← getStatus J config pubkey
    pure (pubkey, result))
  collect results := collectStatuses results (fun _ => none)

end PreconfGateway.Services.ValidatorStatusCache
