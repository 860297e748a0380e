import PreconfGateway.Db.CongestionStore
import PreconfGateway.Fixture

/-! The start and the deadline of a slot, which two modules reckon in two ways: with plain
operators, and saturating with a conversion to the clock's own type after it. -/
namespace PreconfGateway.Properties.SlotTimes
open Encoding Types Db Interleaving Rpc Services Fixture
variable {P : Platform} {g : Gateway P} {s : State (requests P) (World P) Job Outcome}

/-- The start of a slot as the congestion records have it. -/
def slotStart (genesisTime slot : UInt64) : UInt64 := saturatingAdd genesisTime (saturatingMul slot 12)

theorem slotStart_toNat (genesisTime slot : UInt64) :
    (slotStart genesisTime slot).toNat = min (genesisTime.toNat + slot.toNat * 12) (2 ^ 64 - 1) := by
  have product : (saturatingMul slot 12).toNat = min (slot.toNat * 12) (2 ^ 64 - 1) := capped_toNat _
  rw [slotStart,saturatingAdd_toNat,product]
  omega

/-- The clock's type has room for half of the numbers. -/
theorem unixEpochPlus_ok {secs start : UInt64} : unixEpochPlus secs = .ok start ↔ secs.toNat < 2 ^ 63 ∧ start = secs := by
  unfold unixEpochPlus
  split
  · rename_i fits
    simp only [Except.ok.injEq,fits,true_and]
    exact eq_comm
  · rename_i large
    simp only [large,false_and,reduceCtorEq]

/-- Rows are only ever opened with the start of their slot. -/
theorem code_opens (j : Job) : (g.code j).Obeys (fun op : Op P => ∀ row, op.query = .sql (.insertCongestion row) →
    Opened g.config row) (fun _ => True) := by
  have others (other : ∀ params, j ≠ .commitmentRequest params) : (g.code j).Obeys (fun op : Op P => ∀ row,
      op.query = .sql (.insertCongestion row) → Opened g.config row) (fun _ => True) := by
    refine (g.code_obeys j).mono ?_ (fun _ h => h)
    intro op asks row hq
    rw [hq] at asks
    cases asks with
    | insertCongestion params => exact absurd rfl (other params)
  cases j with
  | commitmentRequest params =>
    refine (requestHandler_obeys (fun _ => nofun) (fun _ _ _ => nofun) nofun ?_ (fun _ => nofun) (fun _ _ => nofun)
      (fun _ => nofun) (fun _ _ _ _ => nofun)).bind fun _ _ => trivial
    rintro row opened _ hq
    cases hq
    exact opened
  | _ => exact others (fun _ => nofun)

private theorem opening (g : Gateway P) : Verified g.system
    (g.contract (fun _ => True) (fun _ _ e => ∀ row, e.op.query = .sql (.insertCongestion row) → Opened g.config row))
      World.Evolves (fun _ _ _ _ _ => True) := by
  refine Gateway.verified ?_ (fun _ _ _ _ _ _ _ => trivial)
  intro j t w _
  exact (Contract.Safe.of_obeys (code_opens j) (fun _ _ _ _ _ => trivial) (fun _ _ h => h)).mono
    (fun _ _ _ _ _ => trivial)

theorem reached_opened {w₀ : World P} (hr : Reachable g.system w₀ s) {id : Nat} {job : Job} {e : Event (requests P) (World P)}
    (h : s.Saw id job e) {row : CongestionRow P} (hq : e.op.query = .sql (.insertCongestion row)) : Opened g.config row := by
  obtain ⟨task,ht,rfl,he⟩ := h
  have sound := ((opening g).sound (fun _ => trivial) hr).tasks id task ht
  obtain ⟨_,_,_,_,_,_,_,_,opened⟩ := sound.kept.mem he
  exact opened row hq

/-- A row keeps the start of its slot. -/
theorem reached_start (hr : Reachable g.system (.empty P) s) {slot : UInt64} {row : CongestionRow P}
    (held : s.world.congestion.forSlot slot.toInt64 = some row) :
    (slotStart g.config.beaconApi.genesisTime slot).toNat < 2 ^ 63 ∧
      row.slotStartTime = (slotStart g.config.beaconApi.genesisTime slot).toInt64 := by
  have member := List.mem_of_find?_eq_some held
  have number := Congestion.forSlot_slot held
  obtain ⟨id,job,e,saw,hpre,r,hr',hslot,hstart⟩ := hr.provenance
    (fun w => ∃ r ∈ w.congestion.rows, r.slot = row.slot ∧ r.slotStartTime = row.slotStartTime)
    (by rintro ⟨_,h,_⟩; cases h) ⟨row,member,rfl,rfl⟩
  have changes := Changes.of_answers (reached_event hr saw).2.1
  generalize hq : e.op.query = q at changes
  generalize hw : e.post = w' at changes
  rw [hw] at hr'
  cases changes with
  | recorded new =>
    rcases Congestion.mem_insert hr' with old | rfl
    · exact absurd ⟨r,old,hslot,hstart⟩ hpre
    · obtain ⟨slot',_,start,epoch,rfl⟩ := reached_opened hr saw hq
      obtain ⟨fits,rfl⟩ := unixEpochPlus_ok.mp epoch
      obtain rfl : slot' = slot := toInt64_injective (hslot.trans number)
      exact ⟨fits,hstart.symm⟩
  | counted number change new found =>
    obtain ⟨old,ho,rfl⟩ := List.mem_map.mp hr'
    rw [CongestionRow.written_slot] at hslot
    rw [CongestionRow.written_start] at hstart
    exact absurd ⟨old,ho,hslot,hstart⟩ hpre
  | same | inserted | marked | stored | switchedOff | taken => exact absurd ⟨r,hr',hslot,hstart⟩ hpre

/-- A world that the gateway can be in. -/
def Reached (g : Gateway P) (w : World P) : Prop := ∃ s, Reachable g.system (.empty P) s ∧ s.world = w

/-- The times of a slot: the deadline is the sum it is meant to be and later than those of the slots before, the
window closes then, a record is found or made without a panic whatever else goes on, and it starts eight seconds
before the deadline. -/
structure Total (g : Gateway P) (slot : UInt64) : Prop where
  deadline : (BeaconTiming.constraintDeadlineForSlot g.config.beaconApi.genesisTime slot).toNat =
    g.config.beaconApi.genesisTime.toNat + slot.toNat * 12 + 8
  rising : ∀ earlier, earlier < slot → BeaconTiming.constraintDeadlineForSlot g.config.beaconApi.genesisTime earlier <
    BeaconTiming.constraintDeadlineForSlot g.config.beaconApi.genesisTime slot
  window : ∀ now, BeaconTiming.isWithinConstraintWindow g.config.beaconApi.genesisTime slot now = true ↔
    now.toNat ≤ g.config.beaconApi.genesisTime.toNat + slot.toNat * 12 + 8
  opens : ∀ base limit w t es r w' t', Run g.machine (fun _ w => Reached g w) (getOrCreateSlotCongestion slot base limit
      g.config.beaconApi.genesisTime) w t es r w' t' → (∀ message, r ≠ .error (.panic message)) ∧ ∀ c, r = .ok c →
    c.slotStartTime.toNat + 8 = (BeaconTiming.constraintDeadlineForSlot g.config.beaconApi.genesisTime slot).toNat
  stored : ∀ w row, Reached g w → w.congestion.forSlot slot.toInt64 = some row → row.slotStartTime.toUInt64.toNat + 8 =
    (BeaconTiming.constraintDeadlineForSlot g.config.beaconApi.genesisTime slot).toNat

section Opens
variable {slot base limit : UInt64} {w w' : World P} {t t' : Nat} {es : Trace P} {r : Except Fault (SlotCongestion P)}

/-- With a start that the clock's type has room for, a record is found or made, or the database fails. -/
theorem opens_run (room : (slotStart g.config.beaconApi.genesisTime slot).toNat < 2 ^ 63)
    (h : Run g.machine (fun _ w => Reached g w) (getOrCreateSlotCongestion slot base limit
      g.config.beaconApi.genesisTime) w t es r w' t') :
    (∃ e, r = fault e) ∨ ∃ c, r = .ok c ∧ c.slotStartTime = slotStart g.config.beaconApi.genesisTime slot := by
  have epoch : unixEpochPlus (saturatingAdd g.config.beaconApi.genesisTime (saturatingMul slot 12)) =
    .ok (slotStart g.config.beaconApi.genesisTime slot) := unixEpochPlus_ok.mpr ⟨room,rfl⟩
  unfold getOrCreateSlotCongestion at h
  simp only [epoch] at h
  split at h
  · exact .inl ⟨_,h.ret_inv.2.1⟩
  · obtain ⟨_,_,reply,_,_,rfl,_,_,_,_,h⟩ := run_ask h
    rcases reply with e | _ | _
    · exact .inl ⟨_,h.ret_inv.2.1⟩
    · obtain ⟨_,found,_,_,_,rfl,hget,hend⟩ := h.bind_inv
      obtain ⟨v,_,reply,_,_,rfl,⟨s,hr,rfl⟩,_,_,answers,hback⟩ := run_ask hget
      rcases reply with e | _ | row
      · obtain ⟨_,rfl,_⟩ := hback.ret_inv
        exact .inl ⟨_,hend.ret_inv.2.1⟩
      · obtain ⟨_,rfl,_⟩ := hback.ret_inv
        exact .inl ⟨_,hend.ret_inv.2.1⟩
      · obtain ⟨_,rfl,_⟩ := hback.ret_inv
        obtain ⟨held,_⟩ := Answers.selectCongestion answers
        obtain ⟨_,start⟩ := reached_start hr held.symm
        have reads : slotCongestionOf row = .ok {
            slot := row.slot.toUInt64
            preconfirmedGas := row.preconfirmedGas.toUInt64
            totalGasLimit := row.totalGasLimit.toUInt64
            gasUsedRatio := row.gasUsedRatio
            baseGasPrice := row.baseGasPrice.toUInt64
            calculatedFeeMultiplier := row.calculatedFeeMultiplier
            currentTxPrice := row.currentTxPrice.toUInt64
            slotStartTime := slotStart g.config.beaconApi.genesisTime slot } := by
          simp only [slotCongestionOf,start,UInt64.toUInt64_toInt64,unixEpochPlus,if_pos room]
          rfl
        rw [reads] at hend
        exact .inr ⟨_,hend.ret_inv.2.1,rfl⟩
    · exact .inr ⟨_,h.ret_inv.2.1,rfl⟩

end Opens

/-- The times of a slot are total and consistent exactly if its start fits the signed seconds of the clock. -/
theorem slot_times_total_iff (g : Gateway P) (slot : UInt64) :
    Total g slot ↔ g.config.beaconApi.genesisTime.toNat + slot.toNat * 12 < 2 ^ 63 := by
  have start := slotStart_toNat g.config.beaconApi.genesisTime slot
  constructor
  · intro total
    by_contra large
    have panics : unixEpochPlus (saturatingAdd g.config.beaconApi.genesisTime (saturatingMul slot 12)) =
        .error (.panic "overflow when adding duration to instant") := by
      apply if_neg
      change ¬ (slotStart g.config.beaconApi.genesisTime slot).toNat < 2 ^ 63
      omega
    refine (total.opens 0 0 (.empty P) 0 [] _ (.empty P) 0 ?_).1 "overflow when adding duration to instant" rfl
    unfold getOrCreateSlotCongestion
    simp only [panics]
    exact .ret _ _ _
  · intro room
    have exact_ (earlier : UInt64) (le : earlier.toNat ≤ slot.toNat) :
        (BeaconTiming.constraintDeadlineForSlot g.config.beaconApi.genesisTime earlier).toNat =
          g.config.beaconApi.genesisTime.toNat + earlier.toNat * 12 + 8 :=
      BeaconTiming.constraintDeadlineForSlot_toNat (by omega)
    have deadline := exact_ slot (Nat.le_refl _)
    refine ⟨deadline,?_,?_,?_,?_⟩
    · intro earlier less
      have before := UInt64.lt_iff_toNat_lt.mp less
      rw [UInt64.lt_iff_toNat_lt,deadline,exact_ earlier (Nat.le_of_lt before)]
      omega
    · intro now
      rw [BeaconTiming.isWithinConstraintWindow,decide_eq_true_iff,UInt64.le_iff_toNat_le,deadline]
    · intro base limit w t es r w' t' run
      rcases opens_run (by omega) run with ⟨e,rfl⟩ | ⟨c,rfl,begins⟩
      · exact ⟨fun _ => nofun,fun _ => nofun⟩
      · refine ⟨fun _ => nofun,fun c' same => ?_⟩
        cases same
        rw [begins,deadline]
        omega
    · rintro _ row ⟨s,hr,rfl⟩ held
      obtain ⟨_,begins⟩ := reached_start hr held
      rw [begins,UInt64.toUInt64_toInt64,deadline]
      omega

/-- From genesis on a slot's time wraps: its window closes eight seconds after genesis, and asking for its record
panics. -/
theorem huge_slot_wraps : BeaconTiming.constraintDeadlineForSlot 0 4611686018427387904 = 8 ∧
    (∀ base limit, getOrCreateSlotCongestion (P := platform offer) 4611686018427387904 base limit 0 =
      pure (.error (.panic "overflow when adding duration to instant"))) ∧ ¬ Total small 4611686018427387904 := by
  have early : BeaconTiming.constraintDeadlineForSlot 0 4611686018427387904 = 8 := by decide
  refine ⟨early,fun _ _ => rfl,fun total => ?_⟩
  have deadline := total.deadline
  change (BeaconTiming.constraintDeadlineForSlot 0 4611686018427387904).toNat = _ at deadline
  rw [early] at deadline
  cases deadline

end PreconfGateway.Properties.SlotTimes
