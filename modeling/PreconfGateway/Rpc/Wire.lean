import PreconfGateway.Server
import PreconfGateway.Types.PayloadEncoding

/-! The interface as its clients see it: the name of a method and its parameters as JSON, and JSON or an
error code in return. -/
namespace PreconfGateway.Types
open Encoding

def CommitmentRequest.toJson (r : CommitmentRequest) : Json :=
  .object [("commitment_type", .natural r.commitmentType.toNat),("payload", HexSerde.serialize r.payload),
    ("slasher", .string r.slasher)]

def CommitmentRequest.ofJson (v : Json) : Option CommitmentRequest := do
  match ← v.fields ["commitment_type", "payload", "slasher"] with
  | [commitmentType, payload, slasher] =>
    some ⟨← commitmentType.u64?, ← HexSerde.deserialize payload, ← slasher.string?⟩
  | _ => none

def Commitment.toJson (c : Commitment) : Json :=
  .object [("commitment_type", .natural c.commitmentType.toNat),("payload", HexSerde.serialize c.payload),
    ("request_hash", .string c.requestHash),("slasher", .string c.slasher)]

def Commitment.ofJson (v : Json) : Option Commitment := do
  match ← v.fields ["commitment_type", "payload", "request_hash", "slasher"] with
  | [commitmentType, payload, requestHash, slasher] =>
    some ⟨← commitmentType.u64?, ← HexSerde.deserialize payload, ← requestHash.string?, ← slasher.string?⟩
  | _ => none

def SignedCommitment.toJson (sc : SignedCommitment) : Json :=
  .object [("commitment", sc.commitment.toJson),("signature", .string sc.signature)]

def SignedCommitment.ofJson (v : Json) : Option SignedCommitment := do
  match ← v.fields ["commitment", "signature"] with
  | [commitment, signature] => some ⟨← Commitment.ofJson commitment, ← signature.string?⟩
  | _ => none

/-- What is written for a request is read as the request. -/
theorem CommitmentRequest.ofJson_toJson (r : CommitmentRequest) : ofJson r.toJson = some r := by
  simp [ofJson,toJson,Json.fields,Json.member,Json.string?,Json.u64?_natural,HexSerde.deserialize_serialize]

theorem Commitment.ofJson_toJson (c : Commitment) : ofJson c.toJson = some c := by
  simp [ofJson,toJson,Json.fields,Json.member,Json.string?,Json.u64?_natural,HexSerde.deserialize_serialize]

theorem SignedCommitment.ofJson_toJson (sc : SignedCommitment) : ofJson sc.toJson = some sc := by
  simp [ofJson,toJson,Json.fields,Json.member,Json.string?,Commitment.ofJson_toJson]

/-- Two commitments that are written alike are the same. -/
theorem SignedCommitment.toJson_inj {a b : SignedCommitment} (h : a.toJson = b.toJson) : a = b := by
  have same := congrArg ofJson h
  rw [ofJson_toJson,ofJson_toJson] at same
  exact Option.some.inj same

end PreconfGateway.Types

namespace PreconfGateway.Rpc
open Encoding Types

def Offering.toJson (o : Offering) : Json :=
  .object [("chain_id", .natural o.chainId.toNat),
    ("commitment_types", .array (o.commitmentTypes.map fun t => .natural t.toNat))]

def SlotInfo.toJson (i : SlotInfo) : Json :=
  .object [("slot", .natural i.slot.toNat),("offerings", .array (i.offerings.map Offering.toJson))]

def SlotInfoResponse.toJson (r : SlotInfoResponse) : Json := .object [("slots", .array (r.slots.map SlotInfo.toJson))]

def FeeInfo.toJson (i : FeeInfo) : Json :=
  .object [("payload", HexSerde.serialize i.payload),("commitment_type", .natural i.commitmentType.toNat)]

/-- Parameters are read from an array of exactly one item. -/
def one {α : Type} (read : Json → Option α) : Option Json → Option α
  | some (.array [v]) => read v
  | _ => none

/-- The registered methods; any other name is not found. -/
def setupRpcMethods : String → Option (Option Json → Entry)
  | "commitmentRequest" => some fun params => .inl (.commitmentRequest (one CommitmentRequest.ofJson params))
  | "commitmentResult" => some fun params => .inl (.commitmentResult (one Json.string? params))
  | "slots" => some fun _ => .inr .slots
  | "fee" => some fun params => .inr (.fee (one CommitmentRequest.ofJson params))
  | _ => none

inductive Reply
  | result (v : Json)
  | error (code : Int)

/-- A call that panicked is never replied to. -/
def RpcError.code : RpcError → Option Int
  | .invalidParams => some (-32602)
  | .invalidRequest => some (-32600)
  | .internalError => some (-32603)
  | .panicked _ => none

def reply {α : Type} (toJson : α → Json) : RpcResult α → Option Reply
  | .ok a => some (.result (toJson a))
  | .error e => e.code.map .error

end PreconfGateway.Rpc

namespace PreconfGateway
open Encoding Types Rpc

/-- What is written back when a call has ended. -/
def Ending.reply : Ending → Option Reply
  | .inl (.commitment r) => Rpc.reply SignedCommitment.toJson r
  | .inr (.fee r) => Rpc.reply FeeInfo.toJson r
  | .inr (.slots r) => Rpc.reply SlotInfoResponse.toJson r
  | _ => none

namespace Rpc

theorem reply_result {α : Type} {toJson : α → Json} {r : RpcResult α} {v : Json} (h : reply toJson r = some (.result v)) :
    ∃ a, r = .ok a ∧ v = toJson a := by
  cases r with
  | ok a =>
    cases h
    exact ⟨a,rfl,rfl⟩
  | error e => cases e <;> cases h

theorem reply_error {α : Type} {toJson : α → Json} {r : RpcResult α} {code : Int} (h : reply toJson r = some (.error code)) :
    ∃ e, r = .error e ∧ e.code = some code := by
  cases r with
  | ok a => cases h
  | error e => cases e <;> cases h <;> exact ⟨_,rfl,rfl⟩

theorem one_some {α : Type} {read : Json → Option α} {params : Option Json} {a : α} (h : one read params = some a) :
    ∃ v, params = some (.array [v]) ∧ read v = some a := by
  unfold one at h
  split at h
  · exact ⟨_,rfl,h⟩
  · cases h

theorem one_string {params : Option Json} {text : String} (h : one Json.string? params = some text) :
    params = some (.array [.string text]) := by
  obtain ⟨v,rfl,read⟩ := one_some h
  cases v <;> cases read
  rfl

end Rpc
end PreconfGateway
