import PreconfGateway.Api.Constraints
import PreconfGateway.Crypto.Bls
import PreconfGateway.Crypto.Commitment
import PreconfGateway.Db.DelegationOps
import PreconfGateway.Db.Operations
import PreconfGateway.Types.Timing

/-! Turning stored commitments into constraints for the relay, at every tick for the
slots ahead, or at once for a single payload. -/
namespace PreconfGateway.Services.ConstraintSubmission
open Encoding Types Db Crypto
variable {P : Platform} (blsManager : BlsManager) (config : Config P)

def parseAuthorizedBuilders (builderKeys : List String) : Result (List BlsPublicKey) :=
  builderKeys.mapM (fun keyStr =>
    match h : parseHexBytes keyStr 48 with
    | .error e => .error (("Failed to parse builder public key: " ++ keyStr) :: e)
    | .ok bytes => .ok ⟨bytes, parseHexBytes_length h⟩)

/-- Of the commitments to this committer those of type 1, each with its hash. -/
def convertCommitments (committerAddress : String) :
    List SignedCommitment → List Constraint × List String
  | [] => ([], [])
  | signedCommitment :: rest =>
    let commitment := signedCommitment.commitment
    let (constraints, hashes) := convertCommitments committerAddress rest
    if commitment.slasher ≠ committerAddress then (constraints, hashes)
    else if commitment.commitmentType = 1 then
      (Constraint.fromInclusionCommitment commitment.payload :: constraints, commitment.requestHash :: hashes)
    else (constraints, hashes)

variable (P) in
def createConstraintsFromCommitments (slot : UInt64) (committerAddress : String) :
    Async P (Result (List Constraint × List String)) := do
  match ← getUnprocessedCommitmentsForSlot P slot with
  | .error e => pure (.error (("Failed to get unprocessed commitments for slot " ++ toString slot) :: e))
  | .ok commitments => pure (.ok (convertCommitments committerAddress commitments))

/-- The signed message for a delegation, with the configured builders as receivers. -/
def buildSignedConstraints (delegation : SignedDelegation) (slot : UInt64)
    (constraints : List Constraint) : Result SignedConstraints := do
  let receivers ← Result.context (parseAuthorizedBuilders config.constraintsApi.authorizedBuilders)
    "Failed to parse authorized builder public keys from config"
  let constraintsMessage : ConstraintsMessage :=
    ⟨delegation.message.proposer, delegation.message.delegate, slot, constraints, receivers⟩
  let signature ← Result.context
    (BlsManager.signConstraintsMessage P blsManager constraintsMessage config.signing.blsPrivateKey)
    "Failed to sign constraints message"
  .ok ⟨constraintsMessage, signature⟩

/-- Hashes are marked only after the relay has answered with success. -/
def submitAndMark (signedConstraints : SignedConstraints) (processedHashes : List String) :
    Async P (Result Unit) := do
  match ← Api.submitConstraints P config.constraintsApi signedConstraints with
  | .error e => pure (.error ("Failed to submit constraints to API" :: e))
  | .ok _ =>
    let marked ← markCommitmentsAsProcessed P processedHashes
    pure ((marked.mapError ("Failed to mark commitments as processed" :: ·)).map (fun _ => ()))

def processDelegationConstraints (delegation : SignedDelegation) (slot : UInt64) :
    Async P (Result Unit) := do
  match ← createConstraintsFromCommitments P slot delegation.message.committer with
  | .error e => pure (.error e)
  | .ok (constraints, processedHashes) =>
    if constraints.isEmpty then pure (.ok ())
    else
      match buildSignedConstraints blsManager config delegation slot constraints with
      | .error e => pure (.error e)
      | .ok signedConstraints => submitAndMark config signedConstraints processedHashes

/-- Errors of one delegation are logged and do not stop the others. -/
def processDelegations (slot : UInt64) : List SignedDelegation → Async P Unit
  | [] => pure ()
  | delegation :: rest => do
    if delegation.message.delegate = config.signing.blsPublicKey then
      let _ ← processDelegationConstraints blsManager config delegation slot
      processDelegations slot rest
    else processDelegations slot rest

def processConstraintsForSlot (slot : UInt64) : Async P (Result Unit) := do
  match ← getDelegationsForSlot P slot with
  | .error e => pure (.error (("Failed to get delegations for slot " ++ toString slot) :: e))
  | .ok delegations => do
    processDelegations blsManager config slot delegations
    pure (.ok ())

/-- The window is tested once for each slot, right before its work begins. -/
def processSlots : List UInt64 → Async P Unit
  | [] => pure ()
  | slot :: rest => do
    let now ← now
    if BeaconTiming.isWithinConstraintWindow config.beaconApi.genesisTime slot now then
      let _ ← processConstraintsForSlot blsManager config slot
      processSlots rest
    else processSlots rest

def processPendingConstraints : Async P (Result Unit) := do
  let now ← now
  let currentSlot := BeaconTiming.currentSlotEstimate config.beaconApi.genesisTime now
  processSlots blsManager config (BeaconTiming.slotRange currentSlot (currentSlot + 3))
  pure (.ok ())

/-- The submission is given what is left until the deadline. -/
def submitBefore (slot : UInt64) (signedConstraints : SignedConstraints) :
    Async P (Result Api.ConstraintSubmissionResponse) := do
  let deadlineSecs := BeaconTiming.constraintDeadlineForSlot config.beaconApi.genesisTime slot
  let nowSecs ← now
  if nowSecs ≥ deadlineSecs then
    pure (bail ("Constraint submission deadline elapsed for slot " ++ toString slot))
  else do
    let started ← instant
    let remaining := (deadlineSecs - nowSecs).toNat * 1000
    match ← timeoutAt (started + remaining) (Api.submitConstraints P config.constraintsApi signedConstraints) with
    | none => pure (.error ["Constraint submission timed out", "deadline has elapsed"])
    | some (.error e) => pure (.error ("Failed to submit constraint to API" :: e))
    | some (.ok response) => pure (.ok response)

def submitConstraint (slot : UInt64) (payload : Bytes) (committerAddress : String) :
    Async P (Result String) := do
  if committerAddress ≠ config.signing.committerAddress then
    pure (bail ("Committer address " ++ committerAddress ++ " does not match our configured address: " ++
      config.signing.committerAddress))
  else
    match ← getDelegationsForSlot P slot with
    | .error e => pure (.error ("Failed to get delegations for slot" :: e))
    | .ok delegations =>
      match delegations.find? (fun d =>
          d.message.delegate = config.signing.blsPublicKey && d.message.committer = committerAddress) with
      | none => pure (bail ("No valid delegation found for slot " ++ toString slot ++ " and committer " ++
          committerAddress))
      | some delegation =>
        match buildSignedConstraints blsManager config delegation slot
            [Constraint.fromInclusionCommitment payload] with
        | .error e => pure (.error e)
        | .ok signedConstraints => do
          let submitted ← submitBefore config slot signedConstraints
          pure (submitted.map (fun r =>
            "ConstraintSubmissionResponse \x7b status: " ++ toString r.status ++ " \x7d"))

end PreconfGateway.Services.ConstraintSubmission
