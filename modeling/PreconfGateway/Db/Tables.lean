import PreconfGateway.Platform

/-! The tables, with the constraints of the schema as fields, and the statements on them. -/
namespace PreconfGateway.Db
open Encoding Types

/-- The pattern of 0x and n hexadecimal digits. -/
def hexFormat (n : Nat) (s : String) : Bool :=
  ['0', 'x'].isPrefixOf s.toList && decide (s.toList.length = n + 2) &&
    (s.toList.drop 2).all (fun c => (Hex.value c).isSome)

structure CommitmentRow where
  id : Nat
  requestHash : String
  commitmentType : Int64
  payload : Bytes
  slasher : String
  signature : String
  createdAt : Nat
  slotNumber : Option Int64
  constraintProcessed : Bool
  deriving DecidableEq

namespace CommitmentRow

def chkRequestHashFormat (r : CommitmentRow) : Bool := hexFormat 64 r.requestHash
def chkSlasherFormat (r : CommitmentRow) : Bool := hexFormat 40 r.slasher
def chkSignatureFormat (r : CommitmentRow) : Bool := hexFormat 130 r.signature
def chkCommitmentTypePositive (r : CommitmentRow) : Bool := 0 < r.commitmentType
def chkSlotNumberPositive (r : CommitmentRow) : Bool := r.slotNumber.all (fun slot => 0 ≤ slot)

def checks (r : CommitmentRow) : Bool :=
  r.chkRequestHashFormat && r.chkSlasherFormat && r.chkSignatureFormat && r.chkCommitmentTypePositive &&
    r.chkSlotNumberPositive

/-- A mark changes one column, which no constraint reads. -/
def processed (hashes : List String) (r : CommitmentRow) : CommitmentRow :=
  if r.requestHash ∈ hashes then { r with constraintProcessed := true } else r

@[simp] theorem processed_id (hashes : List String) (r : CommitmentRow) : (r.processed hashes).id = r.id := by
  unfold processed
  split <;> rfl

@[simp] theorem processed_hash (hashes : List String) (r : CommitmentRow) :
    (r.processed hashes).requestHash = r.requestHash := by
  unfold processed
  split <;> rfl

@[simp] theorem processed_checks (hashes : List String) (r : CommitmentRow) :
    (r.processed hashes).checks = r.checks := by
  unfold processed
  split <;> rfl

end CommitmentRow

@[ext]
structure Commitments where
  rows : List CommitmentRow
  ids : (rows.map CommitmentRow.id).Nodup
  hashes : (rows.map CommitmentRow.requestHash).Nodup
  checked : ∀ r ∈ rows, r.checks = true

namespace Commitments

def empty : Commitments := ⟨[], by simp, by simp, by simp⟩

/-- None when a constraint fails; a row with the same hash makes the statement do nothing. -/
def insert (t : Commitments) (r : CommitmentRow) : Option (Option Nat × Commitments) :=
  if checked : r.checks = true then
    if hash : r.requestHash ∈ t.rows.map CommitmentRow.requestHash then some (none, t)
    else if id : r.id ∈ t.rows.map CommitmentRow.id then none
    else some (some r.id, {
      rows := t.rows ++ [r]
      ids := by simpa [List.nodup_append,t.ids] using id
      hashes := by simpa [List.nodup_append,t.hashes] using hash
      checked := by
        intro s hs
        rcases List.mem_append.mp hs with hs | hs
        · exact t.checked s hs
        · rw [List.mem_singleton.mp hs]
          exact checked })
  else none

def withHash (t : Commitments) (hash : String) : Option CommitmentRow :=
  t.rows.find? (fun r => r.requestHash = hash)

/-- The rows of a slot that still wait for their constraint. -/
def unprocessed (t : Commitments) (slot : Int64) : List CommitmentRow :=
  t.rows.filter (fun r => r.slotNumber = some slot && !r.constraintProcessed)

def markProcessed (t : Commitments) (hashes : List String) : Commitments where
  rows := t.rows.map (CommitmentRow.processed hashes)
  ids := by simpa [Function.comp_def] using t.ids
  hashes := by simpa [Function.comp_def] using t.hashes
  checked := by
    intro r hr
    obtain ⟨s,hs,rfl⟩ := List.mem_map.mp hr
    rw [CommitmentRow.processed_checks]
    exact t.checked s hs

end Commitments

structure DelegationRow where
  id : Nat
  proposerPubkey : Bytes
  delegatePubkey : Bytes
  committerAddress : String
  slotNumber : Int64
  signature : Bytes
  isActive : Bool
  deriving DecidableEq

namespace DelegationRow

def chkProposerPubkeyLength (r : DelegationRow) : Bool := r.proposerPubkey.length = 48
def chkDelegatePubkeyLength (r : DelegationRow) : Bool := r.delegatePubkey.length = 48
def chkSignatureLength (r : DelegationRow) : Bool := r.signature.length = 96
def chkCommitterFormat (r : DelegationRow) : Bool := hexFormat 40 r.committerAddress
def chkSlotPositive (r : DelegationRow) : Bool := 0 ≤ r.slotNumber

def checks (r : DelegationRow) : Bool :=
  r.chkProposerPubkeyLength && r.chkDelegatePubkeyLength && r.chkSignatureLength &&
    r.chkCommitterFormat && r.chkSlotPositive

/-- The columns that may not repeat. -/
def key (r : DelegationRow) : Bytes × Int64 := (r.proposerPubkey, r.slotNumber)

/-- Rows are only ever switched off. -/
def off (p : DelegationRow → Bool) (r : DelegationRow) : DelegationRow :=
  if p r then { r with isActive := false } else r

section Off
variable (p : DelegationRow → Bool) (r : DelegationRow)

@[simp] theorem off_id : (r.off p).id = r.id := by
  unfold off
  split <;> rfl

@[simp] theorem off_proposer : (r.off p).proposerPubkey = r.proposerPubkey := by
  unfold off
  split <;> rfl

@[simp] theorem off_delegate : (r.off p).delegatePubkey = r.delegatePubkey := by
  unfold off
  split <;> rfl

@[simp] theorem off_committer : (r.off p).committerAddress = r.committerAddress := by
  unfold off
  split <;> rfl

@[simp] theorem off_slot : (r.off p).slotNumber = r.slotNumber := by
  unfold off
  split <;> rfl

@[simp] theorem off_signature : (r.off p).signature = r.signature := by
  unfold off
  split <;> rfl

@[simp] theorem off_checks : (r.off p).checks = r.checks := by
  unfold off
  split <;> rfl

@[simp] theorem off_key : (r.off p).key = r.key := by
  unfold off
  split <;> rfl

end Off
end DelegationRow

@[ext]
structure Delegations where
  rows : List DelegationRow
  ids : (rows.map DelegationRow.id).Nodup
  keys : (rows.map DelegationRow.key).Nodup
  checked : ∀ r ∈ rows, r.checks = true

namespace Delegations

def empty : Delegations := ⟨[], by simp, by simp, by simp⟩

/-- None when a constraint fails; a row with the same key makes the statement do nothing. -/
def insert (t : Delegations) (r : DelegationRow) : Option (Option Nat × Delegations) :=
  if checked : r.checks = true then
    if key : r.key ∈ t.rows.map DelegationRow.key then some (none, t)
    else if id : r.id ∈ t.rows.map DelegationRow.id then none
    else some (some r.id, {
      rows := t.rows ++ [r]
      ids := by simpa [List.nodup_append,t.ids] using id
      keys := by simpa [List.nodup_append,t.keys] using key
      checked := by
        intro s hs
        rcases List.mem_append.mp hs with hs | hs
        · exact t.checked s hs
        · rw [List.mem_singleton.mp hs]
          exact checked })
  else none

/-- The inserts of one transaction: all of them, or none. -/
def insertAll (t : Delegations) : List DelegationRow → Option (List (Option Nat) × Delegations)
  | [] => some ([], t)
  | r :: rs => do
    let (id, t) ← t.insert r
    let (ids, t) ← t.insertAll rs
    some (id :: ids, t)

def active (t : Delegations) : List DelegationRow := t.rows.filter (fun r => r.isActive)

def activeForSlot (t : Delegations) (slot : Int64) : List DelegationRow :=
  t.rows.filter (fun r => r.slotNumber = slot && r.isActive)

def switchOff (t : Delegations) (p : DelegationRow → Bool) : Delegations where
  rows := t.rows.map (DelegationRow.off p)
  ids := by simpa [Function.comp_def] using t.ids
  keys := by simpa [Function.comp_def] using t.keys
  checked := by
    intro r hr
    obtain ⟨s,hs,rfl⟩ := List.mem_map.mp hr
    rw [DelegationRow.off_checks]
    exact t.checked s hs

end Delegations

structure CongestionRow (P : Platform) where
  slot : Int64
  preconfirmedGas : Int64
  totalGasLimit : Int64
  gasUsedRatio : P.float.F64
  baseGasPrice : Int64
  calculatedFeeMultiplier : P.float.F64
  currentTxPrice : Int64
  slotStartTime : Int64

instance {P : Platform} [DecidableEq P.float.F64] : DecidableEq (CongestionRow P) := fun a b =>
  decidable_of_iff (a.slot = b.slot ∧ a.preconfirmedGas = b.preconfirmedGas ∧ a.totalGasLimit = b.totalGasLimit ∧
      a.gasUsedRatio = b.gasUsedRatio ∧ a.baseGasPrice = b.baseGasPrice ∧
      a.calculatedFeeMultiplier = b.calculatedFeeMultiplier ∧ a.currentTxPrice = b.currentTxPrice ∧
      a.slotStartTime = b.slotStartTime) (by
    cases a
    cases b
    simp)

/-- An update writes the metrics of a slot and leaves what the slot was created with. -/
def CongestionRow.written {P : Platform} (new old : CongestionRow P) : CongestionRow P :=
  if old.slot = new.slot then
    { old with
      preconfirmedGas := new.preconfirmedGas
      gasUsedRatio := new.gasUsedRatio
      calculatedFeeMultiplier := new.calculatedFeeMultiplier
      currentTxPrice := new.currentTxPrice }
  else old

@[simp] theorem CongestionRow.written_slot {P : Platform} (new old : CongestionRow P) :
    (new.written old).slot = old.slot := by
  unfold written
  split <;> rfl

@[ext]
structure Congestion (P : Platform) where
  rows : List (CongestionRow P)
  slots : (rows.map CongestionRow.slot).Nodup

namespace Congestion
variable {P : Platform}

def empty : Congestion P := ⟨[], by simp⟩

def forSlot (t : Congestion P) (slot : Int64) : Option (CongestionRow P) :=
  t.rows.find? (fun r => r.slot = slot)

/-- Whether the row is new; a row for the same slot makes the statement do nothing. -/
def insert (t : Congestion P) (r : CongestionRow P) : Bool × Congestion P :=
  if slot : r.slot ∈ t.rows.map CongestionRow.slot then (false, t)
  else (true, {
    rows := t.rows ++ [r]
    slots := by simpa [List.nodup_append,t.slots] using slot })

def update (t : Congestion P) (r : CongestionRow P) : Congestion P where
  rows := t.rows.map r.written
  slots := by simpa [Function.comp_def] using t.slots

end Congestion
end PreconfGateway.Db
