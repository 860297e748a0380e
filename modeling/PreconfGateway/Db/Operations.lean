import PreconfGateway.Types.Payload
import PreconfGateway.World

/-! Storing commitments and finding them again. -/
namespace PreconfGateway.Db
open Encoding Types
variable (P : Platform)

def outOfRange : String := "out of range integral type conversion attempted"

def i64TryFrom (n : UInt64) : Option Int64 := if n.toNat < 2 ^ 63 then some n.toInt64 else none

def u64TryFrom (n : Int64) : Option UInt64 := if 0 ≤ n then some n.toUInt64 else none

/-- A column that is not negative converts to the wire and back. -/
theorem i64TryFrom_of_nonneg {n : Int64} (h : 0 ≤ n) :
    u64TryFrom n = some n.toUInt64 ∧ i64TryFrom n.toUInt64 = some n := by
  have small : n.toUInt64.toNat < 2 ^ 63 := by
    rw [Int64.toNat_toUInt64_of_le h]
    exact Int64.toNatClampNeg_lt n
  rw [u64TryFrom,if_pos h,i64TryFrom,if_pos small,Int64.toInt64_toUInt64]
  exact ⟨rfl,rfl⟩

/-- The slot column is left empty when the payload has no slot or one beyond the column. -/
def slotNumberOf (commitment : Commitment) : Option Int64 :=
  match PayloadParser.extractSlot P commitment.commitmentType commitment.payload with
  | .ok slot => i64TryFrom slot
  | .error _ => none

/-- The columns of a signed commitment, with its type already cast. -/
def newCommitmentOf (signedCommitment : SignedCommitment) (commitmentType : Int64) : NewCommitment where
  requestHash := signedCommitment.commitment.requestHash
  commitmentType := commitmentType
  payload := signedCommitment.commitment.payload
  slasher := signedCommitment.commitment.slasher
  signature := signedCommitment.signature
  slotNumber := slotNumberOf P signedCommitment.commitment

def saveCommitment (signedCommitment : SignedCommitment) : Async P (Result (Option Nat)) :=
  match i64TryFrom signedCommitment.commitment.commitmentType with
  | none => pure (.error ["commitment_type exceeds i64::MAX", outOfRange])
  | some commitmentType => do
    let row ← sql (.insertCommitment (newCommitmentOf P signedCommitment commitmentType))
    pure (row.mapError (fun e => ["Failed to insert commitment into database", e.message]))

theorem saveCommitment_one {sc : SignedCommitment} (h : sc.commitment.commitmentType = 1) :
    saveCommitment P sc = (do
      let row ← sql (.insertCommitment (newCommitmentOf P sc 1))
      pure (row.mapError (fun e => ["Failed to insert commitment into database", e.message]))) := by
  unfold saveCommitment
  rw [h]
  rfl

def signedCommitmentOf (row : CommitmentRow) : Result SignedCommitment :=
  match u64TryFrom row.commitmentType with
  | none => .error ["stored commitment_type is negative", outOfRange]
  | some commitmentType => .ok ⟨⟨commitmentType, row.payload, row.requestHash, row.slasher⟩, row.signature⟩

/-- A row that passes the checks reads back with all its columns. -/
theorem signedCommitmentOf_checked {row : CommitmentRow} (h : row.checks = true) :
    ∃ type, signedCommitmentOf row = .ok ⟨⟨type, row.payload, row.requestHash, row.slasher⟩, row.signature⟩ ∧
      i64TryFrom type = some row.commitmentType := by
  simp only [CommitmentRow.checks,CommitmentRow.chkCommitmentTypePositive,Bool.and_eq_true,decide_eq_true_eq] at h
  obtain ⟨back,there⟩ := i64TryFrom_of_nonneg (Int64.le_of_lt h.1.2)
  exact ⟨_,by simp only [signedCommitmentOf,back],there⟩

def getCommitmentByHash (requestHash : String) : Async P (Result (Option SignedCommitment)) := do
  match ← sql (.selectCommitment requestHash) with
  | .error e => pure (.error ["Failed to query commitment from database", e.message])
  | .ok none => pure (.ok none)
  | .ok (some row) => pure ((signedCommitmentOf row).map some)

def commitmentExists (requestHash : String) : Async P (Result Bool) := do
  let row ← sql (.commitmentExists requestHash)
  pure (row.mapError (fun e => ["Failed to check if commitment exists", e.message]))

def getUnprocessedCommitmentsForSlot (slot : UInt64) : Async P (Result (List SignedCommitment)) :=
  match i64TryFrom slot with
  | none => pure (.error ["slot exceeds i64::MAX", outOfRange])
  | some slotI64 => do
    match ← sql (.selectUnprocessed slotI64) with
    | .error e => pure (.error ["Failed to query unprocessed commitments for slot", e.message])
    | .ok rows => pure (rows.mapM signedCommitmentOf)

def markCommitmentsAsProcessed (requestHashes : List String) : Async P (Result Nat) :=
  if requestHashes.isEmpty then pure (.ok 0)
  else do
    let result ← sql (.updateProcessed requestHashes)
    pure (result.mapError (fun e => ["Failed to mark commitments as processed", e.message]))

end PreconfGateway.Db
