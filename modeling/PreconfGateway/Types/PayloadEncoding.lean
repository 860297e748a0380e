import PreconfGateway.Encoding.Json
import PreconfGateway.Encoding.Rlp
import PreconfGateway.Types.Payload

/-! Writing a payload as JSON or RLP, and what the libraries for the two formats promise. -/
namespace PreconfGateway.Types
open Encoding

namespace HexSerde

def serialize (bytes : Bytes) : Json := .string ("0x" ++ Hex.encode bytes)

def deserialize (v : Json) : Option Bytes := v.string?.bind (fun s => (Hex.decode (strip0x s)).toOption)

theorem deserialize_serialize (bytes : Bytes) : deserialize (serialize bytes) = some bytes := by
  simp [deserialize,serialize,Json.string?,strip0x_prefixed,Hex.decode_encode,Except.toOption]

end HexSerde

namespace InclusionPayload

def toJson (p : InclusionPayload) : Json :=
  .object [("slot", .natural p.slot.toNat),("signed_tx", HexSerde.serialize p.signedTx)]

def ofJson (v : Json) : Option InclusionPayload := do
  match ← v.fields ["slot", "signed_tx"] with
  | [slot, signedTx] => some ⟨← slot.u64?, ← HexSerde.deserialize signedTx⟩
  | _ => none

theorem ofJson_toJson (p : InclusionPayload) : ofJson p.toJson = some p := by
  simp [ofJson,toJson,Json.fields,Json.member,Json.u64?_natural,HexSerde.deserialize_serialize]

/-- A payload is read from an object or from an array. -/
theorem ofJson_some {v : Json} {p : InclusionPayload} (h : ofJson v = some p) :
    (∃ members, v = .object members) ∨ ∃ items, v = .array items := by
  obtain ⟨_,found,_⟩ := Option.bind_eq_some_iff.mp h
  exact Json.fields_some found

/-- A transaction, and a slot after the first. -/
def validate (p : InclusionPayload) : Result Unit :=
  if p.signedTx.isEmpty then bail "Signed transaction cannot be empty"
  else if p.slot = 0 then bail "Slot cannot be zero"
  else .ok ()

end InclusionPayload

namespace PayloadParser

def encodeInclusionPayload (json : JsonText) (p : InclusionPayload) : Bytes := json.print p.toJson

def encodeInclusionPayloadRlp (p : InclusionPayload) : Bytes :=
  Rlp.list (Rlp.string (Rlp.minimal p.slot.toNat) ++ Rlp.string p.signedTx)

end PayloadParser

end PreconfGateway.Types

namespace PreconfGateway
open Encoding Types

/-- The items of a list that is all there is are counted and read one by one, and nothing is
a list that does not start like one. -/
structure RlpReader.Reads (r : RlpReader) : Prop where
  isList : ∀ b, r.isList b = true ↔ ∃ c rest, b = c :: rest ∧ 0xc0 ≤ c.toNat
  itemCount : ∀ b is, Rlp.decodeList b = some is → r.itemCount b = .ok is.length
  u64At : ∀ b is i, Rlp.decodeList b = some is → (r.u64At b i).toOption = is[i]?.bind Rlp.Item.u64
  bytesAt : ∀ b is i, Rlp.decodeList b = some is → (r.bytesAt b i).toOption = is[i]?.bind Rlp.Item.bytes

/-- Payloads are read from the values of JSON texts, and what is printed reads back. -/
structure Platform.ReadsJson (P : Platform) (json : JsonText) : Prop extends json.Reads where
  inclusionPayload : ∀ b, (P.inclusionPayloadFromJson b).toOption = (json.parse b).bind InclusionPayload.ofJson
  printed : ∀ p : InclusionPayload, json.parse (json.print p.toJson) = some p.toJson

end PreconfGateway
