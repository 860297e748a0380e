import PreconfGateway.Encoding.Abi
import PreconfGateway.Platform

/-! Hashing and signing commitments. -/
namespace PreconfGateway.Crypto
open Encoding Types
variable (P : Platform)

def parseHexBytes (hexStr : String) (expectedLen : Nat) : Result Bytes := do
  let bytes ← (Hex.decode (strip0x hexStr)).mapError (fun e => ["Invalid hex string", e.display])
  if bytes.length ≠ expectedLen then
    bail ("Expected " ++ toString expectedLen ++ " bytes, got " ++ toString bytes.length)
  .ok bytes

theorem parseHexBytes_ok {s : String} {n : Nat} {bytes : Bytes} :
    parseHexBytes s n = .ok bytes ↔ Hex.decode (strip0x s) = .ok bytes ∧ bytes.length = n := by
  unfold parseHexBytes
  cases Hex.decode (strip0x s) with
  | error e => simp [Except.mapError,bind,Except.bind]
  | ok bs =>
    by_cases long : bs.length = n
    · simp only [Except.mapError,bind,Except.bind,long,ne_eq,not_true_eq_false,if_false,Except.ok.injEq]
      exact ⟨fun same => ⟨same,same ▸ long⟩,And.left⟩
    · simp only [Except.mapError,bind,Except.bind,bail,long,ne_eq,not_false_eq_true,if_true,Except.ok.injEq]
      exact ⟨nofun,fun ⟨same,sized⟩ => absurd (same ▸ sized) long⟩

theorem parseHexBytes_length {s : String} {n : Nat} {bytes : Bytes} (h : parseHexBytes s n = .ok bytes) :
    bytes.length = n :=
  (parseHexBytes_ok.mp h).2

/-- What parses is a text of digits, two for each byte, with or without the prefix. -/
theorem parseHexBytes_iff {s : String} {n : Nat} : (∃ bytes, parseHexBytes s n = .ok bytes) ↔
    (strip0x s).toList.length = 2 * n ∧ ∀ c ∈ (strip0x s).toList, (Hex.value c).isSome = true := by
  simp only [parseHexBytes_ok,and_comm,← Hex.decode_ok_iff]

theorem parseHexBytes_encode (bytes : Bytes) : parseHexBytes ("0x" ++ Hex.encode bytes) bytes.length = .ok bytes := by
  unfold parseHexBytes
  rw [strip0x_prefixed,Hex.decode_encode]
  simp [Except.mapError,bind,Except.bind]

def parseEthereumAddress (addressStr : String) : Result Bytes := parseHexBytes addressStr 20

def abiEncodeCommitmentRequest (request : CommitmentRequest) : Result Bytes := do
  let slasher ← parseEthereumAddress request.slasher
  .ok (Abi.encode [.uint request.commitmentType.toNat, .bytes request.payload, .address slasher])

def abiEncodeCommitment (commitment : Commitment) : Result Bytes := do
  let requestHash ← parseHexBytes commitment.requestHash 32
  let slasher ← parseEthereumAddress commitment.slasher
  .ok (Abi.encode [.uint commitment.commitmentType.toNat, .bytes commitment.payload,
    .fixedBytes requestHash, .address slasher])

def generateRequestHash (request : CommitmentRequest) : Result String := do
  let encoded ← abiEncodeCommitmentRequest request
  .ok ("0x" ++ Hex.encode (P.keccak256 encoded))

def messageFromSlice (hash : Bytes) : Result Bytes :=
  if hash.length = 32 then .ok hash
  else .error ["Failed to create message from hash", "malformed or out-of-range message"]

def signCommitment (commitment : Commitment) (privateKey : P.SecretKey) : Result String := do
  let encoded ← Result.context (abiEncodeCommitment commitment) "Failed to ABI encode commitment"
  let message ← messageFromSlice (P.keccak256 encoded)
  let (signatureBytes, recoveryId) := P.signEcdsaRecoverable message privateKey
  .ok ("0x" ++ Hex.encode (signatureBytes ++ [UInt8.ofNat recoveryId + 27]))

/-- An address that parses is written for its bytes, once it is normalised: it has nothing before its digits
but the lower-case prefix. -/
theorem parseEthereumAddress_normalize {s : String} {a : Bytes} (h : parseEthereumAddress s = .ok a) :
    normalizeAddress s = Hex.encode a := by
  have lower := Hex.decode_lower_iff.mp (parseHexBytes_ok.mp h).1
  have digits := (Hex.digits_of_lower lower).2
  unfold normalizeAddress strip0x at *
  refine String.toList_inj.mp ?_
  rw [String.toList_ofList,← lower]
  cases hx : stripPrefix ['0', 'x'] s with
  | some t => rfl
  | none =>
    rw [hx,Option.getD_none] at digits
    cases hX : stripPrefix ['0', 'X'] s with
    | none => rfl
    | some t =>
      -- the upper-case prefix is no hexadecimal text
      obtain ⟨⟨rest,hr⟩,_⟩ := Option.ite_none_right_eq_some.mp hX
      have upper := digits 'X' (by simp [← hr])
      cases upper

/-- Two spellings of an address that agree up to normalisation parse to the same bytes. -/
theorem parseEthereumAddress_congr {s t : String} {a b : Bytes}
    (h : normalizeAddress s = normalizeAddress t) (hs : parseEthereumAddress s = .ok a)
    (ht : parseEthereumAddress t = .ok b) : a = b := by
  rw [parseEthereumAddress_normalize hs,parseEthereumAddress_normalize ht] at h
  exact Hex.encode_inj h

end PreconfGateway.Crypto
