import PreconfGateway.Crypto.Commitment

/-! Verifying the signature on a commitment against a public key. -/
namespace PreconfGateway.Crypto
open Encoding Types

/-- The curve library, as far as signing and verifying share it. -/
structure Secp256k1 (P : Platform) where
  PublicKey : Type
  RecoverableSignature : Type
  Signature : Type
  fromSecretKey : P.SecretKey → PublicKey
  /-- The signature that the signer's bytes and recovery id stand for. -/
  signEcdsaRecoverable : Bytes → P.SecretKey → RecoverableSignature
  serializeCompact : RecoverableSignature → Bytes × Fin 4
  fromCompact : Bytes → Fin 4 → Except String RecoverableSignature
  toStandard : RecoverableSignature → Signature
  verifyEcdsa : Bytes → Signature → PublicKey → Except String Unit

/-- What the library promises of messages of thirty-two bytes. -/
structure Secp256k1.Lawful {P : Platform} (S : Secp256k1 P) : Prop where
  signer : ∀ message key, message.length = 32 →
    P.signEcdsaRecoverable message key = S.serializeCompact (S.signEcdsaRecoverable message key)
  compact_length : ∀ signature, (S.serializeCompact signature).1.length = 64
  compact_inverse : ∀ signature, S.fromCompact (S.serializeCompact signature).1 (S.serializeCompact signature).2 = .ok signature
  genuine : ∀ message key, message.length = 32 →
    S.verifyEcdsa message (S.toStandard (S.signEcdsaRecoverable message key)) (S.fromSecretKey key) = .ok ()

def recoveryIdFromI32 (id : Nat) : Result (Fin 4) :=
  if h : id < 4 then .ok ⟨id, h⟩ else .error ["Invalid recovery ID", "bad recovery id"]

/-- Sixty-four bytes of signature and one for the recovery id, plain or with the offset of twenty-seven. -/
def verifyCommitmentSignature {P : Platform} (S : Secp256k1 P) (commitment : Commitment) (signatureHex : String)
    (publicKey : S.PublicKey) : Result Bool := do
  let encoded ← Result.context (abiEncodeCommitment commitment) "Failed to ABI encode commitment"
  let message ← messageFromSlice (P.keccak256 encoded)
  let signatureBytes ← parseHexBytes signatureHex 65
  let v := signatureBytes.getD 64 0
  let recoveryId ← recoveryIdFromI32 (if 27 ≤ v then v - 27 else v).toNat
  let recoverableSig ← (S.fromCompact (signatureBytes.take 64) recoveryId).mapError
    (fun e => ["Failed to parse recoverable signature", e])
  .ok (S.verifyEcdsa message (S.toStandard recoverableSig) publicKey).isOk

theorem messageFromSlice_digest {P : Platform} (input : Bytes) : messageFromSlice (P.keccak256 input) = .ok (P.keccak256 input) :=
  if_pos (P.keccak256_length input)

/-- Every recovery id comes back from its byte. -/
theorem recoveryId_offset (id : Fin 4) : 27 ≤ UInt8.ofNat id + 27 ∧ recoveryIdFromI32 (UInt8.ofNat id + 27 - 27).toNat = .ok id := by
  have all : ∀ id : Fin 4, 27 ≤ UInt8.ofNat id + 27 ∧ recoveryIdFromI32 (UInt8.ofNat id + 27 - 27).toNat = .ok id := by decide
  exact all id

end PreconfGateway.Crypto
