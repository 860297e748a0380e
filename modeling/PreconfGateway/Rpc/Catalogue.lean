import PreconfGateway.Rpc.Handlers

/-! What the gateway offers and at what price: the list of slots, and the fee of a commitment. -/
namespace PreconfGateway.Rpc
open Encoding Types Services
variable {P : Platform} (context : Config P)

structure Offering where
  chainId : UInt64
  commitmentTypes : List UInt64
  deriving DecidableEq

structure SlotInfo where
  slot : UInt64
  offerings : List Offering
  deriving DecidableEq

structure SlotInfoResponse where
  slots : List SlotInfo
  deriving DecidableEq

structure FeeInfo where
  payload : Bytes
  commitmentType : UInt64
  deriving DecidableEq

def hoodiOffering : Offering := ⟨560048, [1]⟩

/-- From the next slot on, as many slots as the configured epochs have. -/
def slotsHandler : Async P (RpcResult SlotInfoResponse) := do
  let now ← now
  let currentSlot := BeaconTiming.currentSlotEstimate context.beaconApi.genesisTime now
  let lookaheadSlots := context.delegation.lookaheadEpochs * BeaconTiming.SLOTS_PER_EPOCH
  let startSlot := currentSlot + 1
  let endSlot := startSlot + lookaheadSlots
  pure (.ok ⟨(BeaconTiming.slotsBefore startSlot endSlot).map (fun slot => ⟨slot, [hoodiOffering]⟩)⟩)

def toLeBytes (n : UInt64) : Bytes := (List.range 8).map (fun i => .ofNat (n.toNat / 256 ^ i))

/-- Cost, price, gas, and congestion in parts per million, eight bytes each. -/
def feePayload (fee : FeePricing.FeeCalculation P) : Bytes :=
  let F := P.float
  let congestionPpm := F.toU64 (F.mul (Db.SlotCongestion.clamp F fee.congestionRatio (F.literal 0) (F.literal 1)) (F.literal 1000000))
  toLeBytes fee.totalCost ++ toLeBytes fee.finalPrice ++ toLeBytes fee.estimatedGas ++ toLeBytes congestionPpm

/-- From an acceptable slot on: the fee and its encoding. -/
def quoteFee (request : CommitmentRequest) (slot : UInt64) : Async P (RpcResult FeeInfo) := do
  match ← FeePricing.calculateFeeForCommitment context request.commitmentType request.payload slot with
  | .error (.panic message) => pure (.error (.panicked message))
  | .error (.error _) => pure (.error .internalError)
  | .ok fee => pure (.ok ⟨feePayload fee, request.commitmentType⟩)

/-- Parameters that do not decode are missing. -/
def feeHandler (params : Option CommitmentRequest) : Async P (RpcResult FeeInfo) :=
  match params with
  | none => pure (.error .invalidParams)
  | some request =>
    if request.commitmentType ≠ 1 then pure (.error .invalidParams)
    else match validateAndExtractSlot P request.commitmentType request.payload with
      | .error _ => pure (.error .invalidParams)
      | .ok slot => do
        let acceptable ← FeePricing.isSlotAcceptableForFees context slot
        if acceptable then quoteFee context request slot else pure (.error .invalidParams)

end PreconfGateway.Rpc
