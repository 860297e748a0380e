import PreconfGateway.Platform

/-! Reading a commitment payload: JSON first, then RLP. -/
namespace PreconfGateway.Types.PayloadParser
open Encoding
variable (P : Platform)

def parseInclusionPayloadRlp (payload : Bytes) : Result InclusionPayload := do
  let wrong := "Invalid RLP structure for inclusion payload - expected [slot, signed_tx]"
  if !P.rlp.isList payload then bail wrong
  let count ← (P.rlp.itemCount payload).mapError (fun e => [e])
  if count ≠ 2 then bail wrong
  let slot ← (P.rlp.u64At payload 0).mapError (fun e => ["Failed to decode slot from RLP", e])
  let signedTx ← (P.rlp.bytesAt payload 1).mapError (fun e => ["Failed to decode signed_tx from RLP", e])
  .ok ⟨slot, signedTx⟩

def parseInclusionPayload (payload : Bytes) : Result InclusionPayload :=
  match P.inclusionPayloadFromJson payload with
  | .ok parsed => .ok parsed
  | .error _ =>
    (parseInclusionPayloadRlp P payload).context "Failed to parse inclusion payload as both JSON and RLP"

def parseExecutionPayload (payload : Bytes) : Result ExecutionPayload :=
  match P.executionPayloadFromJson payload with
  | .ok parsed => .ok parsed
  | .error _ => bail "Failed to parse execution payload"

def extractSlotFromInclusionPayload (payload : Bytes) : Result UInt64 := do
  let inclusionPayload ← parseInclusionPayload P payload
  .ok inclusionPayload.slot

def extractSlotFromExecutionPayload (payload : Bytes) : Result UInt64 := do
  let executionPayload ← parseExecutionPayload P payload
  .ok executionPayload.slot

def extractSlot (commitmentType : UInt64) (payload : Bytes) : Result UInt64 :=
  if commitmentType = 1 then extractSlotFromInclusionPayload P payload
  else if commitmentType = 2 then extractSlotFromExecutionPayload P payload
  else bail ("Unknown commitment type " ++ toString commitmentType ++ " for slot extraction")

end PreconfGateway.Types.PayloadParser
