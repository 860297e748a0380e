import Mathlib.Data.UInt
import PreconfGateway.Fixture
import PreconfGateway.Interleaving.Handled
import PreconfGateway.Jobs
import PreconfGateway.Rpc.Catalogue

/-! Three windows of slots at one reading of the clock: those that are offered, those that are polled
for delegations, and those that fees are quoted for. -/
namespace PreconfGateway.Properties.SlotWindows
open Encoding Types Interleaving Rpc Services BeaconTiming
variable {P : Platform} {σ : Type}

/-- Every reading of the clock is the same; all other requests are answered as before. -/
def clocked (time : UInt64) (h : Handler (requests P) σ) : Handler (requests P) σ
  | s, .plain .now => (time, s)
  | s, op => h s op

/-- The slot that a request asks the relay about. -/
def polledSlot : Op P → Option UInt64
  | .plain (.getDelegations slot) => some slot
  | _ => none

section Windows
variable (config : Config P) (time : UInt64) (h : Handler (requests P) σ) (s : σ)

def current : Nat := (currentSlotEstimate config.beaconApi.genesisTime time).toNat

def offered : RpcResult SlotInfoResponse := ((slotsHandler config).handled (clocked time h) s).2.1

/-- The slots of the answer, none for an error. -/
def listed : List UInt64 := (offered config time h s).toOption.elim [] (fun r => r.slots.map SlotInfo.slot)

def scanned : List UInt64 := ((DelegationPolling.pollDelegations config).handled (clocked time h) s).1.filterMap polledSlot

def accepts (slot : UInt64) : Bool := ((FeePricing.isSlotAcceptableForFees config slot).handled (clocked time h) s).2.1

theorem listed_eq : listed config time h s = slotsBefore (currentSlotEstimate config.beaconApi.genesisTime time + 1)
    (currentSlotEstimate config.beaconApi.genesisTime time + 1 + config.delegation.lookaheadEpochs * SLOTS_PER_EPOCH) := by
  change List.map SlotInfo.slot (List.map _ _) = _
  rw [List.map_map]
  exact List.map_id _

theorem accepts_eq (slot : UInt64) : accepts config time h s slot =
    (currentSlotEstimate config.beaconApi.genesisTime time ≤ slot &&
      slot ≤ currentSlotEstimate config.beaconApi.genesisTime time + 10) := rfl

/-- Polling a slot asks the relay about that slot and no other. -/
theorem pollDelegationsForSlot_handled (slot slot' : UInt64) :
    slot' ∈ ((DelegationPolling.pollDelegationsForSlot config slot).handled h s).1.filterMap polledSlot ↔ slot' = slot := by
  constructor
  · intro asked
    obtain ⟨op,member,found⟩ := List.mem_filterMap.mp asked
    have only : (DelegationPolling.pollDelegationsForSlot config slot).Obeys
        (fun op => ∀ x, polledSlot op = some x → x = slot) (fun _ => True) := by
      apply pollDelegationsForSlot_obeys
      · rintro x ⟨⟩
        rfl
      · exact fun _ => nofun
      · exact fun _ _ => nofun
    exact (only.handled h s).1 op member slot' found
  · rintro rfl
    have first : ∃ f, DelegationPolling.pollDelegationsForSlot config slot' =
        (Program.request (S := requests P) (.plain (.getDelegations slot')) >>= f) := ⟨_,rfl⟩
    obtain ⟨f,shape⟩ := first
    rw [shape,Program.handled_request]
    exact List.mem_filterMap.mpr ⟨_,List.mem_cons_self,rfl⟩

theorem pollSlots_handled (slots : List UInt64) (slot : UInt64) :
    slot ∈ ((DelegationPolling.pollSlots config slots).handled h s).1.filterMap polledSlot ↔ slot ∈ slots := by
  induction slots generalizing s with
  | nil => exact Iff.rfl
  | cons first slots ih =>
    rw [DelegationPolling.pollSlots,Program.handled_bind,List.filterMap_append,List.mem_append,
      pollDelegationsForSlot_handled,List.mem_cons]
    exact or_congr Iff.rfl (ih (h ((DelegationPolling.pollDelegationsForSlot config first).handled h s).2.2 (.plain (.sleep 100))).2)

/-- A poll asks the relay about the slots of its range. -/
theorem mem_scanned (slot : UInt64) : slot ∈ scanned config time h s ↔
    slot ∈ slotRange (currentSlotEstimate config.beaconApi.genesisTime time)
      (currentSlotEstimate config.beaconApi.genesisTime time + config.delegation.lookaheadEpochs * SLOTS_PER_EPOCH) := by
  have ends (slots : List UInt64) : ((DelegationPolling.pollSlots config slots >>= fun _ => pure (.ok ())).handled
      (clocked time h) s : List (requests P).Op × Result Unit × σ).1 =
      ((DelegationPolling.pollSlots config slots).handled (clocked time h) s).1 := by
    rw [Program.handled_bind]
    exact List.append_nil _
  apply Iff.trans _ (pollSlots_handled config (clocked time h) s _ slot)
  rw [← ends]
  exact Iff.rfl

/-- None of the sums and products from which the three windows are made is too large. -/
structure Unwrapped : Prop where
  lookahead : (config.delegation.lookaheadEpochs * SLOTS_PER_EPOCH).toNat = config.delegation.lookaheadEpochs.toNat * 32
  polled : (currentSlotEstimate config.beaconApi.genesisTime time + config.delegation.lookaheadEpochs * SLOTS_PER_EPOCH).toNat =
    current config time + (config.delegation.lookaheadEpochs * SLOTS_PER_EPOCH).toNat
  start : (currentSlotEstimate config.beaconApi.genesisTime time + 1).toNat = current config time + 1
  stop : (currentSlotEstimate config.beaconApi.genesisTime time + 1 + config.delegation.lookaheadEpochs * SLOTS_PER_EPOCH).toNat =
    current config time + 1 + (config.delegation.lookaheadEpochs * SLOTS_PER_EPOCH).toNat
  fee : (currentSlotEstimate config.beaconApi.genesisTime time + 10).toNat = current config time + 10

/-- The windows as one would wish: whatever is offered is polled and has a fee. -/
structure Agree : Prop where
  polled : ∀ slot ∈ listed config time h s, slot ∈ scanned config time h s
  accepted : ∀ slot ∈ listed config time h s, accepts config time h s slot
  unwrapped : Unwrapped config time

/-- The windows as they are: whatever is offered is polled, and of it the next ten slots have a fee. -/
structure Related : Prop where
  polled : ∀ slot ∈ listed config time h s, slot ∈ scanned config time h s
  accepted : ∀ slot ∈ listed config time h s, accepts config time h s slot ↔ slot.toNat ≤ current config time + 10
  quoted : ∀ (request : CommitmentRequest) slot, request.commitmentType = 1 →
    validateAndExtractSlot P request.commitmentType request.payload = .ok slot → slot ∈ listed config time h s →
    ((feeHandler config (some request)).handled (clocked time h) s).2.1 =
      if slot.toNat ≤ current config time + 10 then ((quoteFee config request slot).handled (clocked time h) s).2.1
      else .error .invalidParams
  unwrapped : current config time + 1 + config.delegation.lookaheadEpochs.toNat * 32 < 2 ^ 64 → Unwrapped config time

theorem current_small : 12 * current config time < 2 ^ 64 := currentSlotEstimate_le _ _

/-- The clock leaves room for the sums with small numbers. -/
theorem current_add {n : UInt64} (small : n.toNat ≤ 10) :
    (currentSlotEstimate config.beaconApi.genesisTime time + n).toNat = current config time + n.toNat := by
  have room := current_small config time
  unfold current at room ⊢
  rw [UInt64.toNat_add]
  omega

/-- Without its last slot the range that is polled is the one that is offered, which begins one slot later;
an end that wraps leaves nothing to offer. -/
theorem listed_polled {slot : UInt64} (offer : slot ∈ listed config time h s) : slot ∈ scanned config time h s := by
  rw [mem_scanned,mem_slotRange,UInt64.le_iff_toNat_le,UInt64.le_iff_toNat_le]
  rw [listed_eq,mem_slotsBefore,UInt64.le_iff_toNat_le,UInt64.lt_iff_toNat_lt] at offer
  obtain ⟨from_,before⟩ := offer
  have start : (currentSlotEstimate config.beaconApi.genesisTime time + 1).toNat = current config time + 1 := current_add config time (by decide)
  rw [UInt64.toNat_add,start] at before
  rw [start] at from_
  rw [UInt64.toNat_add]
  generalize (config.delegation.lookaheadEpochs * SLOTS_PER_EPOCH).toNat = lookahead at before ⊢
  unfold current at from_ before
  omega

theorem accepts_iff {slot : UInt64} (offer : slot ∈ listed config time h s) :
    accepts config time h s slot ↔ slot.toNat ≤ current config time + 10 := by
  rw [listed_eq,mem_slotsBefore,UInt64.le_iff_toNat_le] at offer
  have start : (currentSlotEstimate config.beaconApi.genesisTime time + 1).toNat = current config time + 1 := current_add config time (by decide)
  have last : (currentSlotEstimate config.beaconApi.genesisTime time + 10).toNat = current config time + 10 := current_add config time (by decide)
  rw [accepts_eq,Bool.and_eq_true,decide_eq_true_eq,decide_eq_true_eq,UInt64.le_iff_toNat_le,UInt64.le_iff_toNat_le,last]
  rw [start] at offer
  unfold current at offer ⊢
  omega

/-- Whether a request has a fee is decided by its slot alone. -/
theorem feeHandler_slot {request : CommitmentRequest} {slot : UInt64} (inclusion : request.commitmentType = 1)
    (named : validateAndExtractSlot P request.commitmentType request.payload = .ok slot) :
    ((feeHandler config (some request)).handled (clocked time h) s).2.1 =
      if accepts config time h s slot then ((quoteFee config request slot).handled (clocked time h) s).2.1
      else .error .invalidParams := by
  unfold feeHandler
  dsimp only
  rw [if_neg (not_not_intro inclusion),named,Program.handled_bind]
  have unchanged : ((FeePricing.isSlotAcceptableForFees config slot).handled (clocked time h) s).2.2 = s := rfl
  rw [unchanged]
  change (Program.handled (clocked time h) (if accepts config time h s slot = true then _ else _) s).2.1 = _
  split
  · rfl
  · rfl

/-- At any reading of the clock and for any configuration. -/
theorem windows_related : Related config time h s where
  polled _ := listed_polled config time h s
  accepted _ := accepts_iff config time h s
  quoted request slot inclusion named offer := by
    rw [feeHandler_slot config time h s inclusion named]
    by_cases near : slot.toNat ≤ current config time + 10
    · rw [if_pos near,if_pos ((accepts_iff config time h s offer).mpr near)]
    · rw [if_neg near,if_neg (fun accepted => near ((accepts_iff config time h s offer).mp accepted))]
  unwrapped fits := by
    have epoch : SLOTS_PER_EPOCH.toNat = 32 := rfl
    have lookahead : (config.delegation.lookaheadEpochs * SLOTS_PER_EPOCH).toNat = config.delegation.lookaheadEpochs.toNat * 32 := by
      rw [UInt64.toNat_mul,epoch]
      omega
    have start : (currentSlotEstimate config.beaconApi.genesisTime time + 1).toNat = current config time + 1 := current_add config time (by decide)
    refine ⟨lookahead,?_,start,?_,current_add config time (by decide)⟩
    · rw [UInt64.toNat_add,lookahead]
      unfold current at fits ⊢
      omega
    · rw [UInt64.toNat_add,start,lookahead]
      omega

end Windows

section Cases
open Fixture

/-- Nobody answers. -/
def silent : Handler (requests (platform offer)) Unit
  | _, .plain (.sql _) => (.error ⟨.begun, "down"⟩, ())
  | _, .plain (.proposerForSlot _) => (.error "down", ())
  | _, .plain (.validatorStatus _) => (.error "down", ())
  | _, .plain .gasPrice => (.error "down", ())
  | _, .plain (.getDelegations _) => (.error "down", ())
  | _, .plain (.postConstraints _) => (.error "down", ())
  | _, .plain (.sleep _) => ((), ())
  | _, .plain .now => (0, ())
  | _, .plain .instant => (0, ())
  | _, .within _ _ => (none, ())

def looking (epochs : UInt64) : Config (platform offer) := { small.config with delegation := ⟨epochs, "0x00000002"⟩ }

/-- With two epochs the eleventh slot is offered without a fee, and with very many the product wraps. -/
theorem eleventh_slot_refused : ¬ Agree (looking 2) 0 silent () ∧ ¬ Unwrapped (looking (2 ^ 59)) 0 := by
  constructor
  · intro agree
    have offer : 11 ∈ listed (looking 2) 0 silent () := by
      rw [listed_eq,mem_slotsBefore]
      decide
    have refused : accepts (looking 2) 0 silent () 11 = false := by
      rw [accepts_eq]
      decide
    exact Bool.false_ne_true (refused.symm.trans (agree.accepted 11 offer))
  · intro unwrapped
    exact absurd unwrapped.lookahead (by decide)

end Cases
end PreconfGateway.Properties.SlotWindows
