import PreconfGateway.Types.PayloadEncoding

/-! What goes to the relay and comes from it as JSON, as derived and hand-written writers and
readers of the records have it. -/
namespace PreconfGateway.Types
open Encoding

def BlsPublicKey.toJson (key : BlsPublicKey) : Json := HexSerde.serialize key.bytes

def BlsPublicKey.ofJson (v : Json) : Option BlsPublicKey := do
  let bytes ← HexSerde.deserialize v
  if h : bytes.length = 48 then some ⟨bytes, h⟩ else none

def BlsSignature.toJson (sig : BlsSignature) : Json := HexSerde.serialize sig.bytes

def BlsSignature.ofJson (v : Json) : Option BlsSignature := do
  let bytes ← HexSerde.deserialize v
  if h : bytes.length = 96 then some ⟨bytes, h⟩ else none

def DelegationMessage.toJson (m : DelegationMessage) : Json :=
  .object [("proposer", m.proposer.toJson),("delegate", m.delegate.toJson),("committer", .string m.committer),
    ("slot", .natural m.slot.toNat)]

def DelegationMessage.ofJson (v : Json) : Option DelegationMessage := do
  match ← v.fields ["proposer", "delegate", "committer", "slot"] with
  | [proposer, delegate, committer, slot] =>
    some ⟨← BlsPublicKey.ofJson proposer, ← BlsPublicKey.ofJson delegate, ← committer.string?, ← slot.u64?⟩
  | _ => none

def SignedDelegation.toJson (d : SignedDelegation) : Json :=
  .object [("message", d.message.toJson),("signature", d.signature.toJson)]

def SignedDelegation.ofJson (v : Json) : Option SignedDelegation := do
  match ← v.fields ["message", "signature"] with
  | [message, signature] => some ⟨← DelegationMessage.ofJson message, ← BlsSignature.ofJson signature⟩
  | _ => none

/-- The reply to a request for delegations, which are its one field. -/
def DelegationsResponse.ofJson (v : Json) : Option (List SignedDelegation) := do
  match ← v.fields ["delegations"] with
  | [delegations] => (← delegations.array?).mapM SignedDelegation.ofJson
  | _ => none

/-- Bytes without a writer of their own are numbers. -/
def Constraint.toJson (c : Constraint) : Json :=
  .object [("constraint_type", .natural c.constraintType.toNat),
    ("payload", .array (c.payload.map (fun b => .natural b.toNat)))]

def ConstraintsMessage.toJson (m : ConstraintsMessage) : Json :=
  .object [("proposer", m.proposer.toJson),("delegate", m.delegate.toJson),("slot", .natural m.slot.toNat),
    ("constraints", .array (m.constraints.map Constraint.toJson)),
    ("receivers", .array (m.receivers.map BlsPublicKey.toJson))]

/-- The body that is posted. -/
def SignedConstraints.toJson (sc : SignedConstraints) : Json :=
  .object [("message", sc.message.toJson),("signature", sc.signature.toJson)]

theorem BlsPublicKey.ofJson_toJson (key : BlsPublicKey) : ofJson key.toJson = some key := by
  simp [ofJson,toJson,HexSerde.deserialize_serialize,key.length_eq]

theorem BlsSignature.ofJson_toJson (sig : BlsSignature) : ofJson sig.toJson = some sig := by
  simp [ofJson,toJson,HexSerde.deserialize_serialize,sig.length_eq]

theorem SignedDelegation.ofJson_toJson (d : SignedDelegation) : ofJson d.toJson = some d := by
  simp [ofJson,toJson,DelegationMessage.ofJson,DelegationMessage.toJson,Json.fields,Json.member,Json.string?,
    Json.u64?_natural,BlsPublicKey.ofJson_toJson,BlsSignature.ofJson_toJson]

/-- Delegations in the one field of an object are read. -/
theorem DelegationsResponse.ofJson_object (ds : List SignedDelegation) :
    ofJson (.object [("delegations", .array (ds.map SignedDelegation.toJson))]) = some ds := by
  have all : (ds.map SignedDelegation.toJson).mapM SignedDelegation.ofJson = some ds := by
    induction ds with
    | nil => rfl
    | cons d ds ih => simp [SignedDelegation.ofJson_toJson,ih]
  simp [ofJson,Json.fields,Json.member,Json.array?,all]

end PreconfGateway.Types

namespace PreconfGateway
open Encoding Types

/-- Replies with delegations are read from the values of JSON texts. -/
def Platform.ReadsDelegations (P : Platform) (json : JsonText) : Prop :=
  ∀ b, (P.delegationsResponseFromJson b).toOption = (json.parse b).bind DelegationsResponse.ofJson

end PreconfGateway
