import PreconfGateway.Crypto.Bls
import PreconfGateway.World

/-! Storing delegations and finding them again. -/
namespace PreconfGateway.Db
open Encoding Types Crypto
variable (P : Platform)

/-- The row of a delegation, its bytes back in arrays of their lengths. -/
def signedDelegationOf (row : DelegationRow) : Result SignedDelegation :=
  if proposer : row.proposerPubkey.length = 48 then
    if delegate : row.delegatePubkey.length = 48 then
      if signature : row.signature.length = 96 then
        .ok ⟨⟨⟨row.proposerPubkey, proposer⟩, ⟨row.delegatePubkey, delegate⟩, row.committerAddress,
          row.slotNumber.toUInt64⟩, ⟨row.signature, signature⟩⟩
      else bail ("Invalid signature length in database: " ++ toString row.signature.length)
    else bail ("Invalid delegate pubkey length in database: " ++ toString row.delegatePubkey.length)
  else bail ("Invalid proposer pubkey length in database: " ++ toString row.proposerPubkey.length)

theorem signedDelegationOf_delegate {row : DelegationRow} {d : SignedDelegation}
    (h : signedDelegationOf row = .ok d) : d.message.delegate.bytes = row.delegatePubkey := by
  unfold signedDelegationOf at h
  repeat' split at h
  all_goals cases h
  rfl

/-- The slot goes to the query as a signed number, wrapped. -/
def getDelegationsForSlot (slot : UInt64) : Async P (Result (List SignedDelegation)) := do
  match ← sql (.selectDelegations slot.toInt64) with
  | .error e => pure (.error ["Failed to query delegations for slot", e.message])
  | .ok rows => pure (rows.mapM signedDelegationOf)

def deactivateExpiredDelegations (currentSlot : UInt64) : Async P (Result Nat) := do
  let result ← sql (.updateExpired currentSlot.toInt64)
  pure (result.mapError (fun e => ["Failed to deactivate expired delegations", e.message]))

def newDelegationOf (delegation : SignedDelegation) : NewDelegation where
  proposerPubkey := delegation.message.proposer.bytes
  delegatePubkey := delegation.message.delegate.bytes
  committerAddress := delegation.message.committer
  slotNumber := delegation.message.slot.toInt64
  signature := delegation.signature.bytes

/-- A row that the table holds always reads back as the delegation whose columns it has. -/
theorem signedDelegationOf_checked {row : DelegationRow} (h : row.checks = true) :
    ∃ d, signedDelegationOf row = .ok d ∧ row = { (newDelegationOf d).row row.id with isActive := row.isActive } := by
  simp only [DelegationRow.checks,DelegationRow.chkProposerPubkeyLength,DelegationRow.chkDelegatePubkeyLength,
    DelegationRow.chkSignatureLength,Bool.and_eq_true,decide_eq_true_eq] at h
  obtain ⟨⟨⟨⟨proposer,delegate⟩,signature⟩,_⟩,_⟩ := h
  simp only [signedDelegationOf,proposer,delegate,signature,dif_pos]
  refine ⟨_,rfl,?_⟩
  simp [newDelegationOf,NewDelegation.row]

/-- The check made on each delegation of a batch before any is stored. -/
def checkDelegation (delegation : SignedDelegation) : Result Unit := do
  let isValid ← Result.context (BlsManager.verifyDelegationSignature P delegation)
    "Failed to verify delegation signature"
  if isValid then .ok ()
  else bail ("Invalid delegation signature for proposer \"" ++
    Hex.encode delegation.message.proposer.bytes ++ "\" at slot " ++
    toString delegation.message.slot ++ " in batch")

def batchContext : Stage → String
  | .begun => "Failed to begin transaction"
  | .committed => "Failed to commit delegation batch"
  | _ => "Failed to insert delegation in batch"

def saveDelegationsBatch (delegations : List SignedDelegation) : Async P (Result (List Nat)) :=
  match delegations.mapM (checkDelegation P) with
  | .error e => pure (.error e)
  | .ok _ => do
    match ← sql (.insertDelegations (delegations.map newDelegationOf)) with
    | .error e => pure (.error [batchContext e.stage, e.message])
    | .ok ids => pure (.ok (ids.filterMap id))

end PreconfGateway.Db
