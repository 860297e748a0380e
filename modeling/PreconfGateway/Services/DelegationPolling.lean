import PreconfGateway.Api.Constraints
import PreconfGateway.Db.DelegationOps
import PreconfGateway.Types.Timing

/-! Fetching delegations from the relay into the table, and switching off those that
have expired or whose validator left. -/
namespace PreconfGateway.Services.DelegationPolling
open Encoding Types Db Crypto
variable {P : Platform} (config : Config P)

def getStatus (pubkey : BlsPublicKey) : Async P (Except String ValidatorInfo) := ask (.validatorStatus pubkey)

def eligible (status : ValidatorInfo) : Bool := !status.isSlashed && status.isActive

/-- Keeps a delegation only on a good answer; without an answer it is dropped. -/
def filterEligibleDelegations : List SignedDelegation → Async P (List SignedDelegation)
  | [] => pure []
  | delegation :: rest => do
    let status ← getStatus delegation.message.proposer
    let others ← filterEligibleDelegations rest
    match status with
    | .ok status => pure (if eligible status then delegation :: others else others)
    | .error _ => pure others

def pollDelegationsForSlot (slot : UInt64) : Async P (Result Nat) := do
  match ← Api.getDelegationsForSlot P slot with
  | .error e => pure (.error (("Failed to fetch delegations for slot " ++ toString slot) :: e))
  | .ok delegations =>
    let relevant := delegations.filter (fun d => d.message.delegate = config.signing.blsPublicKey)
    let verified := relevant.filter (fun d => BlsManager.verifyDelegationSignature P d = .ok true)
    if verified.isEmpty then pure (.ok 0)
    else do
      let eligibleDelegations ← filterEligibleDelegations verified
      if eligibleDelegations.isEmpty then pure (.ok 0)
      else do
        let saved ← saveDelegationsBatch P eligibleDelegations
        pure ((saved.mapError (fun e => ("Failed to save delegations for slot " ++ toString slot) :: e)).map
          List.length)

/-- Errors of one slot are logged and do not stop the others. -/
def pollSlots : List UInt64 → Async P Unit
  | [] => pure ()
  | slot :: rest => do
    let _ ← pollDelegationsForSlot config slot
    sleep 100
    pollSlots rest

def pollDelegations : Async P (Result Unit) := do
  let now ← now
  let currentSlot := BeaconTiming.currentSlotEstimate config.beaconApi.genesisTime now
  let lookaheadSlots := config.delegation.lookaheadEpochs * BeaconTiming.SLOTS_PER_EPOCH
  pollSlots config (BeaconTiming.slotRange currentSlot (currentSlot + lookaheadSlots))
  pure (.ok ())

/-- Without a status the delegation stays; a failing update ends the cleanup. -/
def checkActiveDelegations : List (Nat × Bytes) → Async P (Result Unit)
  | [] => pure (.ok ())
  | (delegationId, proposerBytes) :: rest =>
    if h : proposerBytes.length = 48 then do
      match ← getStatus ⟨proposerBytes, h⟩ with
      | .error _ => checkActiveDelegations rest
      | .ok status =>
        if status.isSlashed || !status.isActive then
          match ← sql (.updateInactive delegationId) with
          | .error e => pure (bail e.message)
          | .ok _ => checkActiveDelegations rest
        else checkActiveDelegations rest
    else checkActiveDelegations rest

def cleanupExpiredDelegations : Async P (Result Unit) := do
  let now ← now
  let currentSlot := BeaconTiming.currentSlotEstimate config.beaconApi.genesisTime now
  match ← deactivateExpiredDelegations P currentSlot with
  | .error e => pure (.error e)
  | .ok _ =>
    match ← sql .selectActive with
    | .error e => pure (bail e.message)
    | .ok rows => checkActiveDelegations (rows.map (fun r => (r.id, r.proposerPubkey)))

end PreconfGateway.Services.DelegationPolling
