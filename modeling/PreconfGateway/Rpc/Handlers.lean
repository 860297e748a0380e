import PreconfGateway.Crypto.Bls
import PreconfGateway.Crypto.Commitment
import PreconfGateway.Db.DelegationOps
import PreconfGateway.Db.Operations
import PreconfGateway.Services.FeePricing

/-! Serving commitment requests: check, look up the authority, sign, store, account. -/
namespace PreconfGateway.Rpc
open Encoding Types Db Crypto Services
variable {P : Platform} (context : Config P)

/-- What the client is told instead of a result. -/
inductive RpcError
  | invalidParams
  | invalidRequest
  | internalError
  /-- The call broke off without an answer of its own. -/
  | panicked (message : String)
  deriving DecidableEq

abbrev RpcResult (α : Type) := Except RpcError α

variable (P) in
def validateAndExtractSlot (commitmentType : UInt64) (payload : Bytes) : Except String UInt64 :=
  (PayloadParser.extractSlot P commitmentType payload).mapError
    (fun e => "Failed to extract slot from payload: " ++ e.display)

def validateSlasherAddress (slasherAddress : String) : Except String Unit :=
  let canonicalSlasher := normalizeAddress slasherAddress
  if context.validation.slasherWhitelist.any (fun w => normalizeAddress w = canonicalSlasher) then .ok ()
  else .error ("Slasher address " ++ slasherAddress ++ " is not in the configured whitelist." ++
    " Only whitelisted slasher contracts are allowed.")

/-- The first delegation of the list for the slot and the committer. -/
def findDelegation (slot : UInt64) (committerAddress : String) (delegations : List SignedDelegation) :
    Option SignedDelegation :=
  delegations.find? (fun d =>
    normalizeAddress d.message.committer = normalizeAddress committerAddress && d.isValidForSlot slot)

/-- The signature on the delegation, under the domain the gateway is configured with. -/
def checkDelegationSignature (slot : UInt64) (committerAddress : String) (delegation : SignedDelegation) :
    Except String Unit := do
  let _ ← (BlsManager.new context.delegation.domainApplicationGateway).mapError
    (fun e => "Failed to create BLS manager: " ++ e.display)
  match BlsManager.verifyDelegationSignature P delegation with
  | .ok true => .ok ()
  | .ok false => .error ("Invalid BLS signature on delegation for slot " ++ toString slot ++
      " and committer " ++ committerAddress ++ ". Rejecting potentially tampered delegation.")
  | .error e => .error ("Failed to verify BLS signature on delegation for slot " ++ toString slot ++
      ": " ++ e.display)

/-- The proposer of the delegation is the one the beacon chain schedules. -/
def checkProposer (slot : UInt64) (delegation : SignedDelegation) :
    Except String (Option ValidatorDuty) → Except String Unit
  | .ok (some proposerDuty) =>
    match proposerDuty.parsePubkey with
    | .error e => .error ("Failed to parse proposer public key from beacon API for slot " ++
        toString slot ++ ": " ++ e.display)
    | .ok scheduledProposer =>
      if scheduledProposer = delegation.message.proposer then .ok ()
      else .error ("Delegation proposer mismatch for slot " ++ toString slot ++
        ": delegation claims proposer 0x" ++ Hex.encode delegation.message.proposer.bytes ++
        ", but beacon chain shows 0x" ++ Hex.encode scheduledProposer.bytes ++
        ". Rejecting potentially fraudulent delegation.")
  | .ok none => .error ("No proposer scheduled for slot " ++ toString slot ++
      " according to beacon chain. Cannot validate delegation authority.")
  | .error e => .error ("Failed to query beacon chain for slot " ++ toString slot ++ ": " ++ e ++
      ". Cannot validate delegation without beacon chain confirmation.")

def verifyDelegationAuthority (slot : UInt64) (committerAddress : String) :
    Async P (Except String String) := do
  match ← getDelegationsForSlot P slot with
  | .error e => pure (.error ("Failed to query delegations for slot " ++ toString slot ++ ": " ++ e.display))
  | .ok delegations =>
    match findDelegation slot committerAddress delegations with
    | none => pure (.error ("No valid delegation found for slot " ++ toString slot ++ " and committer " ++
        committerAddress ++ ". Cannot sign commitment without delegation authority."))
    | some delegation =>
      match checkDelegationSignature context slot committerAddress delegation with
      | .error e => pure (.error e)
      | .ok _ => do
        let duty ← ask (.proposerForSlot slot)
        pure ((checkProposer slot delegation duty).map (fun _ => delegation.message.committer))

def findSigningKeyForCommitter (committerAddress : String) : Except String P.SecretKey :=
  if normalizeAddress committerAddress = normalizeAddress context.signing.committerAddress then
    .ok context.signing.ecdsaPrivateKey
  else .error ("No signing key found for committer address: " ++ committerAddress ++
    ". Available address: " ++ context.signing.committerAddress)

/-- Gas accounting follows the insert; only the fee calculation can still fail the call. -/
def accountGas (request : CommitmentRequest) (slot : UInt64) (signedCommitment : SignedCommitment) :
    Async P (RpcResult SignedCommitment) := do
  match ← FeePricing.calculateFeeForCommitment context request.commitmentType request.payload slot with
  | .error (.panic message) => pure (.error (.panicked message))
  | .error (.error _) => pure (.error .internalError)
  | .ok feeCalc =>
    match ← FeePricing.applyGasUsageToSlot context slot feeCalc.estimatedGas with
    | .error (.panic message) => pure (.error (.panicked message))
    -- a failed update is only logged
    | .error (.error _) | .ok _ => pure (.ok signedCommitment)

/-- From the signed commitment on: store it, then account for its gas. -/
def storeCommitment (request : CommitmentRequest) (slot : UInt64) (signedCommitment : SignedCommitment) :
    Async P (RpcResult SignedCommitment) := do
  match ← saveCommitment P signedCommitment with
  | .error _ => pure (.error .internalError)
  | .ok none => pure (.error .invalidRequest)
  | .ok (some _) => accountGas context request slot signedCommitment

/-- The steps that touch nothing: type, whitelist, slot and hash, in this order. -/
def admitRequest (request : CommitmentRequest) : RpcResult (UInt64 × String) :=
  if request.commitmentType ≠ 1 then .error .invalidParams
  else do
    (validateSlasherAddress context request.slasher).mapError (fun _ => .invalidRequest)
    let slot ← (validateAndExtractSlot P request.commitmentType request.payload).mapError
      (fun _ => RpcError.invalidParams)
    let requestHash ← (generateRequestHash P request).mapError (fun _ => RpcError.internalError)
    .ok (slot, requestHash)

/-- With the authority established: the key, the commitment and its signature. -/
def signRequest (request : CommitmentRequest) (requestHash committerAddress : String) :
    RpcResult SignedCommitment := do
  let signingKey ← (findSigningKeyForCommitter context committerAddress).mapError
    (fun _ => RpcError.invalidRequest)
  let commitment : Commitment := ⟨request.commitmentType, request.payload, requestHash, request.slasher⟩
  let signature ← (signCommitment P commitment signingKey).mapError (fun _ => RpcError.internalError)
  .ok ⟨commitment, signature⟩

/-- Parameters that do not decode are missing. -/
def commitmentRequestHandler (params : Option CommitmentRequest) : Async P (RpcResult SignedCommitment) :=
  match params with
  | none => pure (.error .invalidParams)
  | some request =>
    match admitRequest context request with
    | .error e => pure (.error e)
    | .ok (slot, requestHash) => do
      match ← commitmentExists P requestHash with
      | .error _ => pure (.error .internalError)
      | .ok true => pure (.error .invalidRequest)
      | .ok false =>
        match ← verifyDelegationAuthority context slot request.slasher with
        | .error _ => pure (.error .invalidRequest)
        | .ok committerAddress =>
          match signRequest context request requestHash committerAddress with
          | .error e => pure (.error e)
          | .ok signedCommitment => storeCommitment context request slot signedCommitment

variable (P) in
def commitmentResultHandler (params : Option String) : Async P (RpcResult SignedCommitment) :=
  match params with
  | none => pure (.error .invalidParams)
  | some requestHash => do
    match ← getCommitmentByHash P requestHash with
    | .ok (some signedCommitment) => pure (.ok signedCommitment)
    | .ok none => pure (.error .invalidRequest)
    | .error _ => pure (.error .internalError)

end PreconfGateway.Rpc
