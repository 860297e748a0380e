import PreconfGateway.World

/-! Congestion of a slot: the price formula, and the row that remembers the gas. -/
namespace PreconfGateway.Db
open Types
variable {P : Platform}

/-- Times are in seconds since the epoch. -/
structure SlotCongestion (P : Platform) where
  slot : UInt64
  preconfirmedGas : UInt64
  totalGasLimit : UInt64
  gasUsedRatio : P.float.F64
  baseGasPrice : UInt64
  calculatedFeeMultiplier : P.float.F64
  currentTxPrice : UInt64
  slotStartTime : UInt64

def saturatingAdd (a b : UInt64) : UInt64 := .ofNat (min (a.toNat + b.toNat) (2 ^ 64 - 1))
def saturatingMul (a b : UInt64) : UInt64 := .ofNat (min (a.toNat * b.toNat) (2 ^ 64 - 1))

def checkedMul (a b : UInt64) : Option UInt64 := if a.toNat * b.toNat < 2 ^ 64 then some (a * b) else none

namespace SlotCongestion

def new (slot baseGasPrice totalGasLimit slotStartTime : UInt64) : SlotCongestion P where
  slot := slot
  preconfirmedGas := 0
  totalGasLimit := totalGasLimit
  gasUsedRatio := P.float.literal 0
  baseGasPrice := baseGasPrice
  calculatedFeeMultiplier := P.float.literal 1
  currentTxPrice := baseGasPrice
  slotStartTime := slotStartTime

/-- Bounds below and above, as the standard library orders the two tests. -/
def clamp (F : Floating) (x low high : F.F64) : F.F64 :=
  if F.lt x low then low else if F.lt high x then high else x

/-- The ratio is not held below one, so that oversubscription stays visible. -/
def addGasUsage (c : SlotCongestion P) (additionalGas : UInt64) (scalingFactor : P.float.F64) :
    SlotCongestion P :=
  let F := P.float
  let preconfirmedGas := saturatingAdd c.preconfirmedGas additionalGas
  let full : SlotCongestion P := { c with
    preconfirmedGas := preconfirmedGas
    gasUsedRatio := F.literal 0
    calculatedFeeMultiplier := F.literal 100
    currentTxPrice := saturatingMul c.baseGasPrice 100 }
  if c.totalGasLimit = 0 then full
  else
    let gasUsedRatio := F.max (F.div (F.ofU64 preconfirmedGas) (F.ofU64 c.totalGasLimit)) (F.literal 0)
    if !F.isFinite gasUsedRatio then full
    else
      let raw := if F.le (F.literal 1) gasUsedRatio then F.literal 100
        else F.div (F.literal 1) (F.sub (F.literal 1) (F.powf gasUsedRatio scalingFactor))
      let multiplier := if !F.isFinite raw then F.literal 100 else clamp F raw (F.literal 1) (F.literal 100)
      let scaledPrice := F.mul (F.ofU64 c.baseGasPrice) multiplier
      { c with
        preconfirmedGas := preconfirmedGas
        gasUsedRatio := gasUsedRatio
        calculatedFeeMultiplier := multiplier
        currentTxPrice := if !F.isFinite scaledPrice || F.lt scaledPrice (F.literal 0)
          then saturatingMul c.baseGasPrice 100 else F.toU64 (F.ceil scaledPrice) }

/-- What is written to the row. -/
def row (c : SlotCongestion P) : CongestionRow P where
  slot := c.slot.toInt64
  preconfirmedGas := c.preconfirmedGas.toInt64
  totalGasLimit := c.totalGasLimit.toInt64
  gasUsedRatio := c.gasUsedRatio
  baseGasPrice := c.baseGasPrice.toInt64
  calculatedFeeMultiplier := c.calculatedFeeMultiplier
  currentTxPrice := c.currentTxPrice.toInt64
  slotStartTime := c.slotStartTime.toInt64

end SlotCongestion

/-- The clock of the operating system counts in signed seconds. -/
def unixEpochPlus (secs : UInt64) : Except Fault UInt64 :=
  if secs.toNat < 2 ^ 63 then .ok secs else .error (.panic "overflow when adding duration to instant")

def slotCongestionOf (row : CongestionRow P) : Except Fault (SlotCongestion P) := do
  let slotStartTime ← unixEpochPlus row.slotStartTime.toUInt64
  .ok {
    slot := row.slot.toUInt64
    preconfirmedGas := row.preconfirmedGas.toUInt64
    totalGasLimit := row.totalGasLimit.toUInt64
    gasUsedRatio := row.gasUsedRatio
    baseGasPrice := row.baseGasPrice.toUInt64
    calculatedFeeMultiplier := row.calculatedFeeMultiplier
    currentTxPrice := row.currentTxPrice.toUInt64
    slotStartTime := slotStartTime }

def fault {α : Type} (e : Chain) : Except Fault α := .error (.error e)

def getSlotCongestion (slot : UInt64) : Async P (Except Fault (Option (SlotCongestion P))) := do
  match ← sql (.selectCongestion slot.toInt64) with
  | .error e => pure (fault ["Failed to query slot congestion", e.message])
  | .ok none => pure (.ok none)
  | .ok (some row) => pure ((slotCongestionOf row).map some)

def getOrCreateSlotCongestion (slot baseGasPrice totalGasLimit genesisTime : UInt64) :
    Async P (Except Fault (SlotCongestion P)) :=
  let slotStartTimestamp := saturatingAdd genesisTime (saturatingMul slot 12)
  match unixEpochPlus slotStartTimestamp with
  | .error e => pure (.error e)
  | .ok slotStartTime =>
    let congestion : SlotCongestion P := .new slot baseGasPrice totalGasLimit slotStartTime
    if !P.timestampInRange slotStartTimestamp.toInt64 then pure (fault ["Invalid slot start timestamp"])
    else do
      match ← sql (.insertCongestion congestion.row) with
      | .error e => pure (fault ["Failed to insert slot congestion record", e.message])
      | .ok true => pure (.ok congestion)
      | .ok false =>
        match ← getSlotCongestion slot with
        | .error e => pure (.error e)
        | .ok (some existing) => pure (.ok existing)
        | .ok none =>
          pure (fault ["Slot congestion unexpectedly missing after insert for slot " ++ toString slot])

def updateContext : Stage → String
  | .begun => "Failed to begin slot congestion update transaction"
  | .locked => "Failed to lock slot congestion row"
  | .written => "Failed to update slot congestion"
  | .committed => "Failed to commit slot congestion update transaction"

/-- The row is read, changed and written in one transaction that locks it. -/
def updateSlotCongestionGasUsage (slot additionalGas : UInt64) (scalingFactor : P.float.F64) :
    Async P (Except Fault (SlotCongestion P)) := do
  let added := fun row => (slotCongestionOf row).map (fun c => c.addGasUsage additionalGas scalingFactor)
  match ← sql (.updateCongestion slot.toInt64 (fun row => ((added row).map SlotCongestion.row).toOption)) with
  | .error e => pure (fault [updateContext e.stage, e.message])
  | .ok none => pure (fault ["Slot congestion record not found for slot " ++ toString slot])
  | .ok (some row) => pure (added row)

variable (P) in
def getCurrentGasPriceForSlot (slot : UInt64) : Async P (Result (Option UInt64)) := do
  match ← sql (.selectCongestion slot.toInt64) with
  | .error e => pure (.error ["Failed to query current gas price for slot", e.message])
  | .ok row => pure (.ok (row.map (fun r => r.currentTxPrice.toUInt64)))

end PreconfGateway.Db
