import PreconfGateway.Properties.Authorisation

/-! The handler signs nothing for a slot that the column cannot hold: no delegation has the
wrapped slot, since the table of delegations takes no negative one. -/
namespace PreconfGateway.Properties.SlotColumn
open Encoding Types Db Crypto Interleaving Fixture Authorisation
variable {P : Platform} {g : Gateway P}

/-- A slot whose wrapped number is not negative fits the column. -/
theorem fits_of_nonneg {slot : UInt64} (h : 0 ≤ slot.toInt64) : i64TryFrom slot = some slot.toInt64 := by
  have back := (i64TryFrom_of_nonneg h).2
  rwa [UInt64.toUInt64_toInt64] at back

/-- A request is authorised only for a slot that some delegation row holds. -/
theorem authorised_fits {request : CommitmentRequest} {tr : Trace P} {new : NewCommitment} {slot : UInt64}
    {d : SignedDelegation} (h : Authorised g request tr new slot d) : i64TryFrom slot = some slot.toInt64 := by
  obtain ⟨rows,_,_,w,_,_,row,_,hrow,_,hslot,_⟩ := h.read
  have checked := w.delegations.checked row hrow
  simp only [DelegationRow.checks,DelegationRow.chkSlotPositive,Bool.and_eq_true,decide_eq_true_eq] at checked
  exact fits_of_nonneg (hslot ▸ checked.2)

/-- Every insert that a call sends has the slot of its payload in the column. -/
theorem sent_slot {w₀ : World P} {s : State (requests P) (World P) Job Outcome} (empty : w₀.delegations = .empty)
    (hr : Reachable g.system w₀ s) {id : Nat} {job : Job} {e : Event (requests P) (World P)} {new : NewCommitment}
    (saw : s.Saw id job e) (hq : e.op.query = .sql (.insertCommitment new)) :
    ∃ slot, PayloadParser.extractSlot P 1 new.payload = .ok slot ∧ i64TryFrom slot = some slot.toInt64 ∧
      new.slotNumber = some slot.toInt64 := by
  have sound := (authorisation_verified g).sound (fun _ => trusted_of_empty empty) hr
  obtain ⟨task,ht,rfl,he⟩ := saw
  obtain ⟨_,_,_,_,_,_,_,asks,owes⟩ := (sound.tasks id task ht).kept.mem he
  obtain ⟨request,slot,d,_,authorised,_⟩ := owes new hq
  have fits := authorised_fits authorised
  have column : new.slotNumber = i64TryFrom slot := by
    rw [hq] at asks
    generalize task.job = job at asks
    have one := authorised.columns.1
    have payload := authorised.slot_eq
    cases asks with
    | insertCommitment params sc type h =>
      have type_eq : sc.commitment.commitmentType = 1 := by
        obtain ⟨_,he⟩ := Option.ite_none_right_eq_some.mp h
        have cast : sc.commitment.commitmentType.toInt64 = 1 := (Option.some.inj he).trans one
        rw [← UInt64.toUInt64_toInt64 sc.commitment.commitmentType,cast]
        rfl
      have payload' : PayloadParser.extractSlot P 1 sc.commitment.payload = .ok slot := payload
      simp only [newCommitmentOf,slotNumberOf,type_eq,payload']
  exact ⟨slot,authorised.slot_eq,fits,by rw [column,fits]⟩

end PreconfGateway.Properties.SlotColumn
