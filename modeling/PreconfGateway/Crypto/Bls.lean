import PreconfGateway.Encoding.Abi
import PreconfGateway.Platform

/-! Verifying delegations and signing constraints, each under its own domain. -/
namespace PreconfGateway.Crypto
open Encoding Types
variable (P : Platform)

def DELEGATION_DOMAIN_SEPARATOR : Bytes := [0x00, 0x44, 0x65, 0x6c]
def BLS_POP_DST : String := "BLS_SIG_BLS12381G2_XMD:SHA-256_SSWU_RO_POP_"

/-- The manager holds the four bytes of the gateway domain. -/
structure BlsManager where
  applicationGatewayDomain : Bytes
  length_eq : applicationGatewayDomain.length = 4
  deriving DecidableEq

namespace BlsManager

def new (domainHex : String) : Result BlsManager := do
  let text := "Invalid application gateway domain"
  let bytes ← (Hex.decode (strip0x domainHex)).mapError
    (fun e => [text, "Invalid domain hex: " ++ e.display])
  if h : bytes.length = 4 then .ok ⟨bytes, h⟩
  else .error [text, "Domain separator must be 4 bytes, got " ++ toString bytes.length]

def parseEthereumAddress (addressStr : String) : Result Bytes := do
  let bytes ← (Hex.decode (strip0x addressStr)).mapError (fun e => ["Invalid hex string", e.display])
  if bytes.length ≠ 20 then
    bail ("Ethereum address must be 20 bytes, got " ++ toString bytes.length)
  .ok bytes

def abiEncodeDelegationMessage (message : DelegationMessage) : Result Bytes := do
  let committer ← parseEthereumAddress message.committer
  .ok (Abi.encode [.bytes message.proposer.bytes, .bytes message.delegate.bytes,
    .address committer, .uint message.slot.toNat])

def abiEncodeConstraintsMessage (message : ConstraintsMessage) : Bytes :=
  Abi.encode [.bytes message.proposer.bytes, .bytes message.delegate.bytes, .uint message.slot.toNat,
    .array (message.constraints.map (fun c => .tuple [.uint c.constraintType.toNat, .bytes c.payload])),
    .array (message.receivers.map (fun r => .bytes r.bytes))]

def calculateSigningRoot (message domain : Bytes) : Bytes := P.keccak256 (domain ++ message)

def verifyDelegationSignature (delegation : SignedDelegation) : Result Bool := do
  let encoded ← abiEncodeDelegationMessage delegation.message
  let signingRoot := calculateSigningRoot P encoded DELEGATION_DOMAIN_SEPARATOR
  let proposerPubkey ← (P.blsPublicKeyFromBytes delegation.message.proposer.bytes).mapError
    (fun e => ["Invalid proposer public key: " ++ e])
  let signature ← (P.blsSignatureFromBytes delegation.signature.bytes).mapError
    (fun e => ["Invalid BLS signature: " ++ e])
  .ok (P.blsVerify signature signingRoot BLS_POP_DST proposerPubkey)

def signConstraintsMessage (manager : BlsManager) (message : ConstraintsMessage)
    (privateKey : P.BlsSecretKey) : Result BlsSignature :=
  let encoded := abiEncodeConstraintsMessage message
  let signingRoot := calculateSigningRoot P encoded manager.applicationGatewayDomain
  .ok (P.blsSign privateKey signingRoot BLS_POP_DST)

end BlsManager

/-- The delegation is signed by the proposer it names. -/
def Verifies (d : SignedDelegation) : Prop := BlsManager.verifyDelegationSignature P d = .ok true

instance (d : SignedDelegation) : Decidable (Verifies P d) :=
  inferInstanceAs (Decidable (_ = _))

end PreconfGateway.Crypto
