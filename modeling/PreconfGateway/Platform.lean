import PreconfGateway.Types.Messages

/-! The libraries the gateway is built on, as parameters of everything below. -/
namespace PreconfGateway
open Encoding Types

/-- Double precision numbers with the operations of the fee formula. -/
structure Floating where
  F64 : Type
  literal : Nat → F64
  ofU64 : UInt64 → F64
  /-- The cast saturates at both ends. -/
  toU64 : F64 → UInt64
  sub : F64 → F64 → F64
  mul : F64 → F64 → F64
  div : F64 → F64 → F64
  powf : F64 → F64 → F64
  max : F64 → F64 → F64
  min : F64 → F64 → F64
  ceil : F64 → F64
  lt : F64 → F64 → Bool
  le : F64 → F64 → Bool
  isFinite : F64 → Bool

/-- A view of a byte string as an RLP item. -/
structure RlpReader where
  isList : Bytes → Bool
  itemCount : Bytes → Except String Nat
  u64At : Bytes → Nat → Except String UInt64
  bytesAt : Bytes → Nat → Except String Bytes

structure Platform where
  float : Floating
  rlp : RlpReader
  keccak256 : Bytes → Bytes
  keccak256_length : ∀ input, (keccak256 input).length = 32
  SecretKey : Type
  /-- Sixty-four bytes and a recovery id. -/
  signEcdsaRecoverable : Bytes → SecretKey → Bytes × Fin 4
  BlsSecretKey : Type
  BlsPoint : Type
  blsPublicKeyFromBytes : Bytes → Except String BlsPoint
  BlsSignaturePoint : Type
  blsSignatureFromBytes : Bytes → Except String BlsSignaturePoint
  blsVerify : BlsSignaturePoint → Bytes → String → BlsPoint → Bool
  blsSign : BlsSecretKey → Bytes → String → BlsSignature
  inclusionPayloadFromJson : Bytes → Except String InclusionPayload
  executionPayloadFromJson : Bytes → Except String ExecutionPayload
  delegationsResponseFromJson : Bytes → Except String (List SignedDelegation)
  /-- The error and the code of a relay reply. -/
  constraintsApiErrorFromJson : String → Option (String × Option UInt32)
  responseText : Bytes → String
  statusText : Nat → String
  /-- Whether the calendar reaches a time in seconds since the epoch. -/
  timestampInRange : Int64 → Bool

end PreconfGateway
