import PreconfGateway.Properties.PayloadRoundTrip

/-! Which accepted RLP payloads are the encoding of what is read from them. -/
namespace PreconfGateway.Properties.CanonicalPayload
open Encoding Types PayloadParser
variable {P : Platform}

/-- A payload in strict RLP is the encoding of its slot and transaction. -/
theorem encode_of_strict (rlp : P.rlp.Reads) {b : Bytes} {is : List Rlp.Item} (strict : Rlp.decodeList b = some is)
    {p : InclusionPayload} (parsed : parseInclusionPayloadRlp P b = .ok p) : b = encodeInclusionPayloadRlp p := by
  obtain ⟨x,y,rfl,hx,hy⟩ := (PayloadRoundTrip.parseRlp_iff rlp strict).mp parsed
  have tx : y = .string p.signedTx := by
    cases y with
    | string content =>
      cases hy
      rfl
    | list payload => cases hy
  rw [Rlp.decodeList_some strict,PayloadRoundTrip.encodeRlp_items,Rlp.u64_some hx,tx]

/-- An encoding no longer than a slice can be is strict RLP. -/
theorem strict_of_encode {p : InclusionPayload} (slice : (encodeInclusionPayloadRlp p).length < 2 ^ 63) :
    ∃ is, Rlp.decodeList (encodeInclusionPayloadRlp p) = some is := by
  rw [PayloadRoundTrip.encodeRlp_items] at slice ⊢
  refine ⟨_,Rlp.decodeList_list (Nat.lt_of_le_of_lt ?_ (Nat.lt_trans slice (by decide)))⟩
  rw [Rlp.list,List.length_append]
  exact Nat.le_add_left _ _

/-- An accepted payload (a slice has fewer than `2 ^ 63` bytes) is the encoding of what is read from it exactly if
it is one list from its first byte to its last and the list divides into items. -/
theorem accepted_canonical_iff (rlp : P.rlp.Reads) {b : Bytes} (slice : b.length < 2 ^ 63) {p : InclusionPayload}
    (parsed : parseInclusionPayloadRlp P b = .ok p) :
    b = encodeInclusionPayloadRlp p ↔ ∃ is, Rlp.decodeList b = some is := by
  constructor
  · rintro rfl
    exact strict_of_encode slice
  · rintro ⟨is,strict⟩
    exact encode_of_strict rlp strict parsed

theorem encode_five : encodeInclusionPayloadRlp ⟨5, [7]⟩ = [0xc2, 5, 7] := by
  simp [encodeInclusionPayloadRlp,Rlp.list,Rlp.string,Rlp.minimal,Rlp.isSingle,Rlp.header]

/-- Slot 5 and one byte of a transaction. -/
theorem accepted_canonical_five : [0xc2, 5, 7] = encodeInclusionPayloadRlp ⟨5, [7]⟩ ↔
    ∃ is, Rlp.decodeList [0xc2, 5, 7] = some is := by
  refine accepted_canonical_iff (P := PayloadRoundTrip.reading) PayloadRoundTrip.view_reads (by decide) ?_
  rw [← encode_five]
  exact PayloadRoundTrip.parseRlp_encode PayloadRoundTrip.view_reads (by decide)

/-- The same with the tag of a long string after the list. -/
theorem trailing_accepted : (∃ e, PayloadRoundTrip.reading.inclusionPayloadFromJson [0xc2, 5, 7, 0xb8] = .error e) ∧
    parseInclusionPayloadRlp PayloadRoundTrip.reading [0xc2, 5, 7, 0xb8] = .ok ⟨5, [7]⟩ ∧
    encodeInclusionPayloadRlp ⟨5, [7]⟩ ≠ [0xc2, 5, 7, 0xb8] := by
  refine ⟨⟨_,by rfl⟩,?_,?_⟩
  · have slot : PayloadRoundTrip.reading.rlp.u64At [0xc2, 5, 7, 0xb8] 0 = .ok 5 := by rfl
    have tx : PayloadRoundTrip.reading.rlp.bytesAt [0xc2, 5, 7, 0xb8] 1 = .ok [7] := by rfl
    rw [PayloadRoundTrip.parseRlp_two (by rfl) (by rfl),slot,tx]
    rfl
  · rw [encode_five]
    decide

end PreconfGateway.Properties.CanonicalPayload
