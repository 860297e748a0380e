import Mathlib.Algebra.GroupWithZero.Nat
import Mathlib.Data.List.GetD
import PreconfGateway.Crypto.Verification
import PreconfGateway.Properties.LegitimateRequest

/-! A commitment's signature as it is made, stored and verified: one text of sixty-five bytes. -/
namespace PreconfGateway.Properties.SignatureRoundTrip
open Encoding Types Db Crypto
variable {P : Platform} {S : Secp256k1 P} {commitment : Commitment}

theorem abiEncodeCommitment_ok {requestHash slasher : Bytes} (hash : parseHexBytes commitment.requestHash 32 = .ok requestHash)
    (address : parseEthereumAddress commitment.slasher = .ok slasher) : ∃ encoded, abiEncodeCommitment commitment = .ok encoded := by
  unfold abiEncodeCommitment
  rw [hash,address]
  exact ⟨_,rfl⟩

/-- The bytes of a signature: the compact form, and the recovery id with its offset. -/
def layout (compact : Bytes × Fin 4) : Bytes := compact.1 ++ [UInt8.ofNat compact.2 + 27]

theorem layout_length {compact : Bytes × Fin 4} (long : compact.1.length = 64) : (layout compact).length = 65 := by
  rw [layout,List.length_append,long]
  rfl

theorem signCommitment_ok {encoded : Bytes} {key : P.SecretKey} (h : abiEncodeCommitment commitment = .ok encoded) :
    signCommitment P commitment key = .ok ("0x" ++ Hex.encode (layout (P.signEcdsaRecoverable (P.keccak256 encoded) key))) := by
  unfold signCommitment
  rw [h]
  change (messageFromSlice (P.keccak256 encoded) >>= _) = _
  rw [messageFromSlice_digest]
  rfl

/-- A signature in this layout is checked as it was before its recovery id was taken apart from it. -/
theorem verify_layout {encoded : Bytes} {compact : Bytes × Fin 4} {recoverable : S.RecoverableSignature}
    (publicKey : S.PublicKey) (h : abiEncodeCommitment commitment = .ok encoded) (long : compact.1.length = 64)
    (parsed : S.fromCompact compact.1 compact.2 = .ok recoverable) :
    verifyCommitmentSignature S commitment ("0x" ++ Hex.encode (layout compact)) publicKey =
      .ok (S.verifyEcdsa (P.keccak256 encoded) (S.toStandard recoverable) publicKey).isOk := by
  have bytes : parseHexBytes ("0x" ++ Hex.encode (layout compact)) 65 = .ok (layout compact) := by
    rw [← layout_length long]
    exact parseHexBytes_encode _
  have v : (layout compact).getD 64 0 = UInt8.ofNat compact.2 + 27 := by
    rw [layout,← long,List.getD_append_right _ _ _ _ (Nat.le_refl _),Nat.sub_self]
    rfl
  have rs : (layout compact).take 64 = compact.1 := by
    rw [layout,← long,List.take_left]
  obtain ⟨offset,id⟩ := recoveryId_offset compact.2
  unfold verifyCommitmentSignature
  rw [h]
  change (messageFromSlice (P.keccak256 encoded) >>= _) = _
  rw [messageFromSlice_digest]
  change (parseHexBytes _ 65 >>= _) = _
  rw [bytes]
  change (recoveryIdFromI32 _ >>= _) = _
  rw [v,if_pos offset,id,rs]
  change ((S.fromCompact _ _).mapError _ >>= _) = _
  rw [parsed]
  rfl

/-- Whatever is signed can be stored and verifies under the key's public key. -/
theorem sign_verify (lawful : S.Lawful) (hash : ∃ bytes, parseHexBytes commitment.requestHash 32 = .ok bytes)
    (slasher : ∃ bytes, parseEthereumAddress commitment.slasher = .ok bytes) (key : P.SecretKey) :
    ∃ signature, signCommitment P commitment key = .ok signature ∧
      (∀ row : CommitmentRow, row.signature = signature → row.chkSignatureFormat) ∧
      verifyCommitmentSignature S commitment signature (S.fromSecretKey key) = .ok true := by
  obtain ⟨_,hash⟩ := hash
  obtain ⟨_,slasher⟩ := slasher
  obtain ⟨encoded,encodes⟩ := abiEncodeCommitment_ok hash slasher
  have digest := P.keccak256_length encoded
  have signer := lawful.signer (P.keccak256 encoded) key digest
  have long : (P.signEcdsaRecoverable (P.keccak256 encoded) key).1.length = 64 := by
    rw [signer]
    exact lawful.compact_length _
  have parsed : S.fromCompact (P.signEcdsaRecoverable (P.keccak256 encoded) key).1
      (P.signEcdsaRecoverable (P.keccak256 encoded) key).2 = .ok (S.signEcdsaRecoverable (P.keccak256 encoded) key) := by
    rw [signer]
    exact lawful.compact_inverse _
  refine ⟨_,signCommitment_ok encodes,?_,?_⟩
  · intro row same
    rw [CommitmentRow.chkSignatureFormat,same]
    exact LegitimateRequest.hexFormat_encode (by rw [layout_length long])
  · rw [verify_layout (S.fromSecretKey key) encodes long parsed,lawful.genuine _ key digest]
    rfl

section Cases
open Fixture

theorem ids_exist : NeZero 4 := ⟨by decide⟩

/-- A toy signer like that of the small gateway, with a recovery id for the length of the key. -/
def signer : Platform :=
  { platform [] with signEcdsaRecoverable := fun message (key : Bytes) => (message ++ digest (key ++ message), @Fin.ofNat 4 ids_exist key.length) }

abbrev Compact := { bytes : Bytes // bytes.length = 64 }

def toySign (message key : Bytes) : Compact :=
  if h : (message ++ digest (key ++ message)).length = 64 then ⟨_, h⟩ else ⟨List.replicate 64 0, List.length_replicate⟩

theorem toySign_val {message : Bytes} (key : Bytes) (short : message.length = 32) :
    (toySign message key).val = message ++ digest (key ++ message) := by
  have long : (message ++ digest (key ++ message)).length = 64 := by
    change (message ++ Abi.bigEndian 32 _).length = 64
    rw [List.length_append,short,bigEndian_length]
  rw [toySign,dif_pos long]

/-- The key that a signature was made with is its public key as well. -/
def toyCurve : Secp256k1 signer where
  PublicKey := Bytes
  RecoverableSignature := Compact × Fin 4
  Signature := Compact
  fromSecretKey key := key
  signEcdsaRecoverable message (key : Bytes) := (toySign message key, @Fin.ofNat 4 ids_exist key.length)
  serializeCompact signature := (signature.1.val, signature.2)
  fromCompact bytes id := if h : bytes.length = 64 then .ok (⟨bytes, h⟩, id) else .error "malformed signature"
  toStandard signature := signature.1
  verifyEcdsa message signature key :=
    if signature.val = message ++ digest (key ++ message) then .ok () else .error "signature failed verification"

theorem toyCurve_lawful : toyCurve.Lawful where
  signer _ key short := Prod.ext (toySign_val key short).symm rfl
  compact_length signature := signature.1.property
  compact_inverse signature := dif_pos signature.1.property
  genuine _ key short := if_pos (toySign_val key short)

/-- The rare recovery id three. -/
theorem sign_verify_rare : ∃ signature, signCommitment signer ⟨1, [1, 2, 3, 4], hexOf (digest [1]), own⟩ [7, 8, 9] = .ok signature ∧
    (∀ row : CommitmentRow, row.signature = signature → row.chkSignatureFormat) ∧
    verifyCommitmentSignature toyCurve ⟨1, [1, 2, 3, 4], hexOf (digest [1]), own⟩ signature [7, 8, 9] = .ok true :=
  @sign_verify signer toyCurve ⟨1, [1, 2, 3, 4], hexOf (digest [1]), own⟩ toyCurve_lawful
    ⟨digest [1],by decide +kernel⟩ ⟨(List.replicate 10 [0xab, 0xcd]).flatten,by decide +kernel⟩ [7, 8, 9]

end Cases
end PreconfGateway.Properties.SignatureRoundTrip
