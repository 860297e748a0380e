import Mathlib.Algebra.Group.Nat.Defs
import Mathlib.Data.Nat.Basic

/-! Slots, epochs and the submission deadline. Arithmetic wraps as it does in a release build. -/
namespace PreconfGateway.Types.BeaconTiming

def SLOT_DURATION_SECONDS : UInt64 := 12
def SLOTS_PER_EPOCH : UInt64 := 32
def CONSTRAINTS_SUBMISSION_DEADLINE : UInt64 := 8

def slotToEpoch (slot : UInt64) : UInt64 := slot / SLOTS_PER_EPOCH

def currentSlotEstimate (genesisTime now : UInt64) : UInt64 :=
  if now < genesisTime then 0 else (now - genesisTime) / SLOT_DURATION_SECONDS

def constraintDeadlineForSlot (genesisTime slot : UInt64) : UInt64 :=
  genesisTime + slot * SLOT_DURATION_SECONDS + CONSTRAINTS_SUBMISSION_DEADLINE

def isWithinConstraintWindow (genesisTime slot now : UInt64) : Bool :=
  now ≤ constraintDeadlineForSlot genesisTime slot

/-- A deadline that fits is the sum it is meant to be. -/
theorem constraintDeadlineForSlot_toNat {genesisTime slot : UInt64} (fits : genesisTime.toNat + slot.toNat * 12 + 8 < 2 ^ 64) :
    (constraintDeadlineForSlot genesisTime slot).toNat = genesisTime.toNat + slot.toNat * 12 + 8 := by
  simp only [constraintDeadlineForSlot,UInt64.toNat_add,UInt64.toNat_mul]
  have duration : SLOT_DURATION_SECONDS.toNat = 12 := rfl
  have rest : CONSTRAINTS_SUBMISSION_DEADLINE.toNat = 8 := rfl
  rw [duration,rest]
  omega

/-- The inclusive range from one slot to another, empty when it runs backwards. -/
def slotRange (first last : UInt64) : List UInt64 :=
  (List.range (last.toNat + 1 - first.toNat)).map (fun i => .ofNat (first.toNat + i))

theorem mem_slotRange {first last slot : UInt64} :
    slot ∈ slotRange first last ↔ first ≤ slot ∧ slot ≤ last := by
  have hb := last.toNat_lt
  simp only [slotRange,List.mem_map,List.mem_range,UInt64.le_iff_toNat_le]
  constructor
  · rintro ⟨i,hi,rfl⟩
    rw [UInt64.toNat_ofNat']
    omega
  · rintro ⟨h1,h2⟩
    refine ⟨slot.toNat - first.toNat,by omega,?_⟩
    rw [Nat.add_sub_cancel' h1,UInt64.ofNat_toNat]

/-- The range from one slot up to but without another. -/
def slotsBefore (first last : UInt64) : List UInt64 :=
  (List.range (last.toNat - first.toNat)).map (fun i => .ofNat (first.toNat + i))

theorem mem_slotsBefore {first last slot : UInt64} :
    slot ∈ slotsBefore first last ↔ first ≤ slot ∧ slot < last := by
  have hb := last.toNat_lt
  simp only [slotsBefore,List.mem_map,List.mem_range,UInt64.le_iff_toNat_le,UInt64.lt_iff_toNat_lt]
  constructor
  · rintro ⟨i,hi,rfl⟩
    rw [UInt64.toNat_ofNat']
    omega
  · rintro ⟨h1,h2⟩
    refine ⟨slot.toNat - first.toNat,by omega,?_⟩
    rw [Nat.add_sub_cancel' h1,UInt64.ofNat_toNat]

/-- The clock never gets far in the range of slots. -/
theorem currentSlotEstimate_le (genesisTime now : UInt64) :
    12 * (currentSlotEstimate genesisTime now).toNat < 2 ^ 64 := by
  unfold currentSlotEstimate
  split
  · exact Nat.two_pow_pos 64
  · have size := (now - genesisTime).toNat_lt
    have duration : SLOT_DURATION_SECONDS.toNat = 12 := rfl
    rw [UInt64.toNat_div,duration]
    omega

end PreconfGateway.Types.BeaconTiming
