import PreconfGateway.Encoding.AbiUnique
import PreconfGateway.Fixture

/-! The bytes that are hashed, beside those that a contract hashes for the same struct. -/
namespace PreconfGateway.Properties.StructEncoding
open Encoding Types Crypto

/-- A struct is one argument: the tuple of its fields. -/
def abiEncode (struct : Abi.Token) : Bytes := Abi.encode [struct]

def commitmentStruct (c : Commitment) : Result Abi.Token := do
  let requestHash ← parseHexBytes c.requestHash 32
  let slasher ← parseEthereumAddress c.slasher
  .ok (.tuple [.uint c.commitmentType.toNat, .bytes c.payload, .fixedBytes requestHash, .address slasher])

def commitmentRequestStruct (r : CommitmentRequest) : Result Abi.Token := do
  let slasher ← parseEthereumAddress r.slasher
  .ok (.tuple [.uint r.commitmentType.toNat, .bytes r.payload, .address slasher])

def constraintStruct (c : Constraint) : Abi.Token := .tuple [.uint c.constraintType.toNat, .bytes c.payload]

def constraintsMessageStruct (m : ConstraintsMessage) : Abi.Token :=
  .tuple [.bytes m.proposer.bytes, .bytes m.delegate.bytes, .uint m.slot.toNat,
    .array (m.constraints.map constraintStruct), .array (m.receivers.map (fun r => .bytes r.bytes))]

/-- The contract hashes an offset before these bytes, and so other bytes. -/
def Misses (e : Bytes) (struct : Abi.Token) : Prop := abiEncode struct = Abi.word 32 ++ e ∧ e ≠ abiEncode struct

theorem misses_tuple {ts : List Abi.Token} (h : Abi.anyDynamic ts = true) : Misses (Abi.encode ts) (.tuple ts) :=
  ⟨Abi.encode_tuple h,Abi.encode_tuple_ne h⟩

theorem commitment_misses {c : Commitment} {e : Bytes} (h : abiEncodeCommitment c = .ok e) :
    ∃ struct, commitmentStruct c = .ok struct ∧ Misses e struct := by
  obtain ⟨requestHash,hr,h⟩ := bind_ok.mp h
  obtain ⟨slasher,hs,h⟩ := bind_ok.mp h
  obtain rfl := Except.ok.inj h
  exact ⟨_,bind_ok.mpr ⟨_,hr,bind_ok.mpr ⟨_,hs,rfl⟩⟩,misses_tuple rfl⟩

theorem commitmentRequest_misses {r : CommitmentRequest} {e : Bytes} (h : abiEncodeCommitmentRequest r = .ok e) :
    ∃ struct, commitmentRequestStruct r = .ok struct ∧ Misses e struct := by
  obtain ⟨slasher,hs,h⟩ := bind_ok.mp h
  obtain rfl := Except.ok.inj h
  exact ⟨_,bind_ok.mpr ⟨_,hs,rfl⟩,misses_tuple rfl⟩

theorem constraintsMessage_misses (m : ConstraintsMessage) :
    Misses (BlsManager.abiEncodeConstraintsMessage m) (constraintsMessageStruct m) := misses_tuple rfl

/-- Whatever is hashed of a commitment, a request or a constraints message, it is never the encoding of the struct,
which starts with the offset of a dynamic argument. -/
theorem hashed_never_struct (c : Commitment) (r : CommitmentRequest) (m : ConstraintsMessage) :
    (∀ e, abiEncodeCommitment c = .ok e → ∃ struct, commitmentStruct c = .ok struct ∧ Misses e struct) ∧
    (∀ e, abiEncodeCommitmentRequest r = .ok e → ∃ struct, commitmentRequestStruct r = .ok struct ∧ Misses e struct) ∧
    Misses (BlsManager.abiEncodeConstraintsMessage m) (constraintsMessageStruct m) :=
  ⟨fun _ => commitment_misses,fun _ => commitmentRequest_misses,constraintsMessage_misses m⟩

/-- A message without constraints or receivers. -/
def bare : ConstraintsMessage := ⟨Fixture.key 1, Fixture.key 2, 5, [], []⟩

theorem struct_differs :
    (∃ e struct, abiEncodeCommitment Fixture.signed.commitment = .ok e ∧
      commitmentStruct Fixture.signed.commitment = .ok struct ∧ e ≠ abiEncode struct) ∧
    (∃ e struct, abiEncodeCommitmentRequest (Fixture.request 5 7 Fixture.own) = .ok e ∧
      commitmentRequestStruct (Fixture.request 5 7 Fixture.own) = .ok struct ∧ e ≠ abiEncode struct) ∧
    BlsManager.abiEncodeConstraintsMessage bare ≠ abiEncode (constraintsMessageStruct bare) := by
  refine ⟨?_,?_,(constraintsMessage_misses bare).2⟩
  · cases h : abiEncodeCommitment Fixture.signed.commitment with
    | error e =>
      have encodes : (abiEncodeCommitment Fixture.signed.commitment).isOk = true := by decide +kernel
      rw [h] at encodes
      cases encodes
    | ok e =>
      obtain ⟨struct,hs,_,other⟩ := commitment_misses h
      exact ⟨e,struct,rfl,hs,other⟩
  · cases h : abiEncodeCommitmentRequest (Fixture.request 5 7 Fixture.own) with
    | error e =>
      have encodes : (abiEncodeCommitmentRequest (Fixture.request 5 7 Fixture.own)).isOk = true := by decide +kernel
      rw [h] at encodes
      cases encodes
    | ok e =>
      obtain ⟨struct,hs,_,other⟩ := commitmentRequest_misses h
      exact ⟨e,struct,rfl,hs,other⟩

end PreconfGateway.Properties.StructEncoding
