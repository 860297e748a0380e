import PreconfGateway.Db.SlotCongestion
import PreconfGateway.Types.Payload
import PreconfGateway.Types.Timing

/-! The fee of a commitment, and the gas it adds to its slot. -/
namespace PreconfGateway.Services.FeePricing
open Encoding Types Db
variable {P : Platform} (config : Config P)

structure FeeCalculation (P : Platform) where
  slot : UInt64
  baseGasPrice : UInt64
  congestionRatio : P.float.F64
  feeMultiplier : P.float.F64
  finalPrice : UInt64
  estimatedGas : UInt64
  totalCost : UInt64

def getCachedGasPrice : Async P (Except Fault GasPriceInfo) := do
  let info ← ask .gasPrice
  pure (info.mapError (fun e => .error ["Failed to get gas price from Reth node", e]))

variable (P) in
/-- Sixteen gas a byte on top of the base cost and an allowance for execution. -/
def estimateGasForCommitment (commitmentType : UInt64) (payload : Bytes) : Result UInt64 :=
  if commitmentType = 1 then
    match PayloadParser.parseInclusionPayload P payload with
    | .ok inclusionPayload => .ok (21000 + .ofNat inclusionPayload.signedTx.length * 16 + 10000)
    | .error _ => .ok 50000
  else if commitmentType = 2 then .ok 100000
  else bail ("Unknown commitment type " ++ toString commitmentType ++ " for gas estimation")

def calculateProjectedCongestion (current : SlotCongestion P) (additionalGas : UInt64) : SlotCongestion P :=
  let F := P.float
  let fees := config.reth.feeConfig
  let projected := current.addGasUsage additionalGas fees.scalingFactor
  let multiplier := F.min (F.max projected.calculatedFeeMultiplier fees.minFeeMultiplier) fees.maxFeeMultiplier
  let scaledPrice := F.ceil (F.mul (F.ofU64 projected.baseGasPrice) multiplier)
  let highest : UInt64 := .ofNat (2 ^ 64 - 1)
  { projected with
    calculatedFeeMultiplier := multiplier
    currentTxPrice := if F.isFinite scaledPrice && F.le scaledPrice (F.ofU64 highest)
      then F.toU64 scaledPrice else highest }

/-- The last step: the price of all the gas, when it fits. -/
def totalled (slot gasPrice estimatedGas : UInt64) (projected : SlotCongestion P) :
    Except Fault (FeeCalculation P) :=
  match checkedMul projected.currentTxPrice estimatedGas with
  | none => fault ["Total cost calculation overflow: " ++ toString projected.currentTxPrice ++
      " wei/gas * " ++ toString estimatedGas ++ " gas would exceed u64::MAX"]
  | some totalCost => .ok {
      slot := slot
      baseGasPrice := gasPrice
      congestionRatio := projected.gasUsedRatio
      feeMultiplier := projected.calculatedFeeMultiplier
      finalPrice := projected.currentTxPrice
      estimatedGas := estimatedGas
      totalCost := totalCost }

def calculateFeeForCommitment (commitmentType : UInt64) (payload : Bytes) (slot : UInt64) :
    Async P (Except Fault (FeeCalculation P)) := do
  match ← getCachedGasPrice with
  | .error e => pure (.error e)
  | .ok gasPriceInfo =>
    match estimateGasForCommitment P commitmentType payload with
    | .error e => pure (fault e)
    | .ok estimatedGas =>
      let gasPrice := gasPriceInfo.gasPriceAsU64Clamped
      match ← getOrCreateSlotCongestion slot gasPrice config.reth.feeConfig.defaultGasLimit
          config.beaconApi.genesisTime with
      | .error e => pure (.error e)
      | .ok congestion =>
        pure (totalled slot gasPrice estimatedGas (calculateProjectedCongestion config congestion estimatedGas))

def applyGasUsageToSlot (slot gasUsed : UInt64) : Async P (Except Fault (SlotCongestion P)) :=
  updateSlotCongestionGasUsage slot gasUsed config.reth.feeConfig.scalingFactor

/-- Fees are quoted from the current slot up to ten slots ahead. -/
def isSlotAcceptableForFees (slot : UInt64) : Async P Bool := do
  let now ← now
  let currentSlot := BeaconTiming.currentSlotEstimate config.beaconApi.genesisTime now
  let maxLookahead : UInt64 := 10
  pure (currentSlot ≤ slot && slot ≤ currentSlot + maxLookahead)

end PreconfGateway.Services.FeePricing
