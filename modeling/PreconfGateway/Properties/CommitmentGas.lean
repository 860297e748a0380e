import PreconfGateway.Properties.Atomicity
import PreconfGateway.Properties.GasTally
import PreconfGateway.Properties.SlotColumn

/-! When the gas of a slot is that of its commitments. A commitment and its gas are written
one after the other, so they agree where nothing goes wrong between the two. -/
namespace PreconfGateway.Properties.CommitmentGas
open Encoding Types Db Crypto Interleaving Rpc Services Fixture Atomicity GasTally
variable {P : Platform} {g : Gateway P} {limits : Limits} {relay : ConstraintsApiConfig} {k : P.float.F64}

/-- The estimate for a stored commitment. -/
def gasOf (P : Platform) (row : CommitmentRow) : UInt64 :=
  (FeePricing.estimateGasForCommitment P row.commitmentType.toUInt64 row.payload).toOption.getD 0

def storedFor (w : World P) (slot : UInt64) : List CommitmentRow :=
  w.commitments.rows.filter (fun r => r.slotNumber = some slot.toInt64)

/-- The record of the slot has the gas of its commitments, and without commitments none. -/
structure Matches (w : World P) (slot : UInt64) : Prop where
  gas : ∀ row, w.congestion.forSlot slot.toInt64 = some row →
    row.preconfirmedGas.toUInt64 = capped (((storedFor w slot).map (gasOf P)).map UInt64.toNat).sum
  absent : w.congestion.forSlot slot.toInt64 = none → storedFor w slot = []

/-- The gas a call owes to a slot once its commitment is stored. -/
def owed (P : Platform) : Job → UInt64 → Option UInt64
  | .commitmentRequest (some request), slot =>
    match PayloadParser.extractSlot P 1 request.payload with
    | .ok found =>
      if found = slot then (FeePricing.estimateGasForCommitment P 1 request.payload).toOption else none
    | .error _ => none
  | _, _ => none

/-- The call can add up its fee with this record of the slot. -/
def Affords (config : Config P) (job : Job) (row : CongestionRow P) : Prop :=
  ∀ slot gas c, owed P job slot = some gas → slotCongestionOf row = .ok c →
    (checkedMul (FeePricing.calculateProjectedCongestion config c gas).currentTxPrice gas).isSome = true

/-- The slot of the payload has a start, as a time of the clock and as a timestamp. -/
def HasStart (config : Config P) (payload : Bytes) : Prop :=
  ∀ slot, PayloadParser.extractSlot P 1 payload = .ok slot →
    (∃ start, unixEpochPlus (slotStart config slot) = .ok start) ∧
      P.timestampInRange (slotStart config slot).toInt64 = true

/-- Nothing goes wrong at this step: an insert that fails leaves no row, the requests behind
an insert are carried out, and the fee can be worked out. -/
def Faultless (config : Config P) (job : Job) (e : Event (requests P) (World P)) : Prop :=
  match e with
  | ⟨.plain (.sql (.insertCommitment _)), .error _, _, _, pre, post⟩ => post.commitments.rows = pre.commitments.rows
  | ⟨.plain (.sql (.insertCommitment new)), .ok (some _), _, _, _, _⟩ => HasStart config new.payload
  | ⟨.plain .gasPrice, .error _, _, _, _, _⟩ => False
  | ⟨.plain (.sql (.insertCongestion _)), .error _, _, _, _, _⟩ => False
  | ⟨.plain (.sql (.insertCongestion row)), .ok true, _, _, _, _⟩ => Affords config job row
  | ⟨.plain (.sql (.selectCongestion _)), .error _, _, _, _, _⟩ => False
  | ⟨.plain (.sql (.selectCongestion _)), .ok (some row), _, _, _, _⟩ => Affords config job row
  | ⟨.plain (.sql (.updateCongestion slot change)), _, _, _, pre, post⟩ =>
    ∀ row, (pre.congestion.forSlot slot).bind change = some row → post.congestion = pre.congestion.update row
  | _ => True

/-- The runs without faults in which no call breaks off between its commitment and its gas. -/
def faultless (g : Gateway P) : System (requests P) (World P) Job Outcome :=
  { g.system with
    permits := fun job _ e => Faultless g.config job e
    droppable := fun _ op => ¬ Accounting op.query }

/-- No request for a commitment is in flight. -/
def Quiescent (s : State (requests P) (World P) Job Outcome) : Prop :=
  ∀ id task params, s.tasks id = some task → task.job = .commitmentRequest params → ¬ task.Running

/-- The event of an insert that has added a row. -/
def Promises (e : Event (requests P) (World P)) : Prop :=
  ∃ new, e.op.query = .sql (.insertCommitment new) ∧ e.post.commitments.rows ≠ e.pre.commitments.rows

/-- The event of an update that has taken effect. -/
def Spends (k : P.float.F64) (slot gas : UInt64) (e : Event (requests P) (World P)) : Prop :=
  e.op.query = .sql (.updateCongestion slot.toInt64 (addition k gas)) ∧ Took k slot gas e

open Classical in
noncomputable def promised (P : Platform) (job : Job) (slot : UInt64) (e : Event (requests P) (World P)) : Option UInt64 :=
  if Promises e then owed P job slot else none

open Classical in
noncomputable def spent (k : P.float.F64) (job : Job) (slot : UInt64) (e : Event (requests P) (World P)) : Option UInt64 :=
  (owed P job slot).bind (fun gas => if Spends k slot gas e then some gas else none)

/-- What was promised for each slot has been spent on it. -/
def Balanced (k : P.float.F64) (job : Job) (tr : Trace P) : Prop :=
  ∀ slot, tr.filterMap (promised P job slot) = tr.filterMap (spent k job slot)

/-- One promise is still open. -/
def Owing (k : P.float.F64) (job : Job) (tr : Trace P) : Prop :=
  ∀ slot, tr.filterMap (promised P job slot) = (owed P job slot).toList ++ tr.filterMap (spent k job slot)

section Trace
variable {job : Job} {slot gas : UInt64} {e : Event (requests P) (World P)} {tr : Trace P}

private theorem filterMap_cons_toList {α β : Type} (f : α → Option β) (a : α) (as : List α) :
    (a :: as).filterMap f = (f a).toList ++ as.filterMap f := by
  cases h : f a with
  | none => exact List.filterMap_cons_none h
  | some b => exact List.filterMap_cons_some h

theorem owed_request {request : CommitmentRequest} (h : owed P (.commitmentRequest (some request)) slot = some gas) :
    PayloadParser.extractSlot P 1 request.payload = .ok slot ∧
      FeePricing.estimateGasForCommitment P 1 request.payload = .ok gas := by
  unfold owed at h
  dsimp only at h
  split at h
  · rename_i found hslot
    obtain ⟨rfl,estimate⟩ := Option.ite_none_right_eq_some.mp h
    refine ⟨hslot,?_⟩
    cases hg : FeePricing.estimateGasForCommitment P 1 request.payload with
    | error e =>
      rw [hg] at estimate
      cases estimate
    | ok found =>
      rw [hg] at estimate
      cases estimate
      rfl
  · cases h

theorem owed_of {request : CommitmentRequest} (hslot : PayloadParser.extractSlot P 1 request.payload = .ok slot)
    (estimate : FeePricing.estimateGasForCommitment P 1 request.payload = .ok gas) :
    owed P (.commitmentRequest (some request)) slot = some gas := by
  simp [owed,hslot,estimate,Except.toOption]

theorem promised_of (h : Promises e) : promised P job slot e = owed P job slot := if_pos h

theorem promised_none (h : ∀ new, e.op.query ≠ .sql (.insertCommitment new)) : promised P job slot e = none :=
  if_neg fun ⟨new,hq,_⟩ => h new hq

theorem promised_same (h : e.post.commitments.rows = e.pre.commitments.rows) : promised P job slot e = none :=
  if_neg fun ⟨_,_,changed⟩ => changed h

theorem spent_some (h : spent k job slot e = some gas) : owed P job slot = some gas ∧ Spends k slot gas e := by
  obtain ⟨found,owes,taken⟩ := Option.bind_eq_some_iff.mp h
  obtain ⟨spends,same⟩ := Option.ite_none_right_eq_some.mp taken
  cases same
  exact ⟨owes,spends⟩

theorem spent_of (owes : owed P job slot = some gas) (spends : Spends k slot gas e) : spent k job slot e = some gas :=
  Option.bind_eq_some_iff.mpr ⟨gas,owes,if_pos spends⟩

theorem spent_none (h : ∀ number change, e.op.query ≠ .sql (.updateCongestion number change)) :
    spent k job slot e = none := by
  cases now : spent k job slot e with
  | none => rfl
  | some gas => exact absurd (spent_some now).2.1 (h _ _)

theorem Balanced.cons (h : Balanced k job tr) (nothing : ∀ slot, promised P job slot e = none)
    (quiet : ∀ slot, spent k job slot e = none) : Balanced k job (e :: tr) := by
  intro slot
  rw [List.filterMap_cons_none (nothing slot),List.filterMap_cons_none (quiet slot)]
  exact h slot

theorem Balanced.promise (h : Balanced k job tr) (promises : Promises e) (quiet : ∀ slot, spent k job slot e = none) :
    Owing k job (e :: tr) := by
  intro slot
  rw [filterMap_cons_toList,List.filterMap_cons_none (quiet slot),promised_of promises,h slot]

theorem Owing.cons (h : Owing k job tr) (nothing : ∀ slot, promised P job slot e = none)
    (quiet : ∀ slot, spent k job slot e = none) : Owing k job (e :: tr) := by
  intro slot
  rw [List.filterMap_cons_none (nothing slot),List.filterMap_cons_none (quiet slot)]
  exact h slot

theorem Owing.spend (h : Owing k job tr) (nothing : ∀ slot, promised P job slot e = none)
    (pays : ∀ slot, spent k job slot e = owed P job slot) : Balanced k job (e :: tr) := by
  intro slot
  rw [List.filterMap_cons_none (nothing slot),filterMap_cons_toList,pays slot]
  exact h slot

end Trace

/-- Every record of the table reads back. -/
def Readable (w : World P) : Prop :=
  ∀ slot row, w.congestion.forSlot slot = some row → ∃ c, slotCongestionOf row = .ok c

/-- What a job may write: empty records, its own gas, and its own commitment. -/
def Books (k : P.float.F64) (job : Job) : Query P → Prop
  | .sql (.insertCongestion row) =>
    ∃ c : SlotCongestion P, row = c.row ∧ c.preconfirmedGas = 0 ∧ c.slotStartTime.toNat < 2 ^ 63
  | .sql (.updateCongestion number change) =>
    ∃ slot gas, owed P job slot = some gas ∧ number = slot.toInt64 ∧ change = addition k gas
  | .sql (.insertCommitment new) =>
    ∃ request, job = .commitmentRequest (some request) ∧ new.payload = request.payload ∧ new.commitmentType = 1
  | _ => True

def counting (config : Config P) (job : Job) : Contract (requests P) (World P) where
  inv := Readable
  rely := Keeps
  permits _ e := Faultless config job e
  starts tr op _ _ := Accounting op.query ∨ Balanced config.reth.feeConfig.scalingFactor job tr
  guarantee _ e := Books config.reth.feeConfig.scalingFactor job e.op.query
  rely_refl := Keeps.refl
  rely_trans := Keeps.trans
  starts_rely h _ := h

/-- A request that writes no commitment and no record. -/
def Neutral (q : Query P) : Prop :=
  (∀ new, q ≠ .sql (.insertCommitment new)) ∧ (∀ row, q ≠ .sql (.insertCongestion row)) ∧
    ∀ number change, q ≠ .sql (.updateCongestion number change)

section Safety
variable {config : Config P} {job : Job} {slot gas : UInt64} {tr : Trace P} {w : World P} {t : Nat}

private theorem neutral_books {q : Query P} (h : Neutral q) : Books k job q := by
  unfold Books
  split
  · exact absurd rfl (h.2.1 _)
  · exact absurd rfl (h.2.2 _ _)
  · exact absurd rfl (h.1 _)
  · exact trivial

/-- A program that writes neither keeps the balance. -/
theorem neutral_safe {α : Type} {post : α → Prop} {p : Async P α}
    (hp : p.Obeys (fun op : Op P => Neutral op.query) post)
    (balanced : Balanced config.reth.feeConfig.scalingFactor job tr) :
    (counting config job).Safe (world P limits relay)
      (fun tr a _ _ => Balanced config.reth.feeConfig.scalingFactor job tr ∧ post a) p tr w t := by
  induction p generalizing tr w t with
  | ret a => exact ⟨balanced,hp⟩
  | call op next ih =>
    refine Contract.Safe.call (.inr balanced) fun w₁ u r w₂ _ _ _ _ _ _ => ?_
    exact ⟨neutral_books hp.1,ih r (hp.2 r) (balanced.cons (fun _ => promised_none hp.1.1) fun _ => spent_none hp.1.2.2)⟩

theorem estimate_one (payload : Bytes) : ∃ gas, FeePricing.estimateGasForCommitment P 1 payload = .ok gas := by
  unfold FeePricing.estimateGasForCommitment
  rw [if_pos rfl]
  split <;> exact ⟨_,rfl⟩

theorem readable_iff {row : CongestionRow P} :
    (∃ c, slotCongestionOf row = .ok c) ↔ row.slotStartTime.toUInt64.toNat < 2 ^ 63 := by
  unfold slotCongestionOf unixEpochPlus
  by_cases h : row.slotStartTime.toUInt64.toNat < 2 ^ 63
  · rw [if_pos h]
    exact iff_of_true ⟨_,rfl⟩ h
  · rw [if_neg h]
    refine iff_of_false ?_ h
    rintro ⟨_,hc⟩
    cases hc

/-- A record that was there is there later, and reads. -/
theorem Keeps.readable {w w' : World P} (h : Keeps w w') (readable : Readable w')
    (there : w.congestion.forSlot slot.toInt64 ≠ none) :
    ∃ row c, w'.congestion.forSlot slot.toInt64 = some row ∧ slotCongestionOf row = .ok c := by
  obtain ⟨row,hrow⟩ := Option.ne_none_iff_exists'.mp there
  obtain ⟨row',hrow',_⟩ := h _ _ hrow
  obtain ⟨c,hc⟩ := readable _ _ hrow'
  exact ⟨row',c,hrow',hc⟩

end Safety

section Call
variable {config : Config P} {request : CommitmentRequest} {slot gas : UInt64} {tr : Trace P} {w : World P} {t : Nat}

/-- The record of the slot has been found, and the total is a number. -/
def Priced (config : Config P) (request : CommitmentRequest) (slot gas : UInt64) (tr : Trace P)
    (r : Except Fault (SlotCongestion P)) (w : World P) (_ : Nat) : Prop :=
  Owing config.reth.feeConfig.scalingFactor (.commitmentRequest (some request)) tr ∧
    w.congestion.forSlot slot.toInt64 ≠ none ∧ ∃ c, r = .ok c ∧
      (checkedMul (FeePricing.calculateProjectedCongestion config c gas).currentTxPrice gas).isSome = true

private theorem existing_safe (owes : owed P (.commitmentRequest (some request)) slot = some gas)
    (owing : Owing config.reth.feeConfig.scalingFactor (.commitmentRequest (some request)) tr)
    (there : w.congestion.forSlot slot.toInt64 ≠ none) :
    (counting config (.commitmentRequest (some request))).Safe (world P limits relay)
      (fun tr r w _ => Owing config.reth.feeConfig.scalingFactor (.commitmentRequest (some request)) tr ∧
        w.congestion.forSlot slot.toInt64 ≠ none ∧ ∃ c, r = .ok (some c) ∧
          (checkedMul (FeePricing.calculateProjectedCongestion config c gas).currentTxPrice gas).isSome = true)
      (getSlotCongestion slot) tr w t := by
  refine Gateway.safe_request (.inl trivial) fun w₁ u r w₂ readable keeps _ _ answers faultless => ⟨trivial,?_⟩
  have still := owing.cons (e := ⟨.plain (.sql (.selectCongestion slot.toInt64)), r, t, u, w₁, w₂⟩)
    (fun _ => promised_none nofun) fun _ => spent_none nofun
  obtain ⟨row,c,hrow,read⟩ := Keeps.readable keeps readable there
  rcases r with e | found
  · exact faultless.elim
  · obtain ⟨rfl,rfl⟩ := Answers.selectCongestion answers
    rw [hrow] at faultless still ⊢
    dsimp only
    rw [read]
    exact Contract.Safe.ret ⟨still,by rw [hrow]; nofun,c,rfl,faultless slot gas c owes read⟩

private theorem record_safe {price : UInt64} (start : HasStart config request.payload)
    (owes : owed P (.commitmentRequest (some request)) slot = some gas)
    (owing : Owing config.reth.feeConfig.scalingFactor (.commitmentRequest (some request)) tr) :
    (counting config (.commitmentRequest (some request))).Safe (world P limits relay) (Priced config request slot gas)
      (getOrCreateSlotCongestion slot price config.reth.feeConfig.defaultGasLimit config.beaconApi.genesisTime) tr w t := by
  obtain ⟨⟨begins,started⟩,range⟩ := start slot (owed_request owes).1
  unfold slotStart at started range
  have small : begins.toNat < 2 ^ 63 := by
    unfold unixEpochPlus at started
    split at started
    · rename_i small
      cases started
      exact small
    · cases started
  unfold getOrCreateSlotCongestion
  simp only [started,range,Bool.not_true,Bool.false_eq_true,if_false]
  refine Gateway.safe_request (.inl trivial) fun w₁ u r w₂ readable keeps _ _ answers faultless => ⟨⟨_,rfl,rfl,small⟩,?_⟩
  have still := owing.cons (e := ⟨.plain (.sql (.insertCongestion _)), r, t, u, w₁, w₂⟩)
    (fun _ => promised_none nofun) fun _ => spent_none nofun
  rcases r with e | new
  · exact faultless.elim
  · obtain ⟨_,after⟩ := Answers.insertCongestion answers
    have there : w₂.congestion.forSlot slot.toInt64 ≠ none := by
      rw [after,Congestion.forSlot_insert]
      cases w₁.congestion.forSlot slot.toInt64 with
      | none =>
        have own : (SlotCongestion.new (P := P) slot price config.reth.feeConfig.defaultGasLimit begins).row.slot =
            slot.toInt64 := rfl
        rw [Option.none_or,if_pos own]
        nofun
      | some row => nofun
    cases new with
    | true => exact Contract.Safe.ret ⟨still,there,_,rfl,faultless slot gas _ owes (slotCongestionOf_row small)⟩
    | false =>
      refine (existing_safe owes still there).bind fun tr r w t found => ?_
      obtain ⟨owing,there,c,rfl,fits⟩ := found
      exact Contract.Safe.ret ⟨owing,there,c,rfl,fits⟩

private theorem totalled_gas {price : UInt64} {c : SlotCongestion P} {calculation : FeePricing.FeeCalculation P}
    (h : FeePricing.totalled slot price gas c = .ok calculation) : calculation.estimatedGas = gas := by
  unfold FeePricing.totalled at h
  split at h
  · cases h
  · cases h
    rfl

private theorem fee_safe (start : HasStart config request.payload)
    (owes : owed P (.commitmentRequest (some request)) slot = some gas)
    (owing : Owing config.reth.feeConfig.scalingFactor (.commitmentRequest (some request)) tr) :
    (counting config (.commitmentRequest (some request))).Safe (world P limits relay)
      (fun tr r w _ => Owing config.reth.feeConfig.scalingFactor (.commitmentRequest (some request)) tr ∧
        w.congestion.forSlot slot.toInt64 ≠ none ∧ ∃ calculation, r = .ok calculation ∧ calculation.estimatedGas = gas)
      (FeePricing.calculateFeeForCommitment config 1 request.payload slot) tr w t := by
  refine Gateway.safe_request (.inl trivial) fun w₁ u r w₂ _ _ _ _ _ faultless => ⟨trivial,?_⟩
  have still := owing.cons (e := ⟨.plain .gasPrice, r, t, u, w₁, w₂⟩) (fun _ => promised_none nofun)
    fun _ => spent_none nofun
  rcases r with e | info
  · exact faultless.elim
  · dsimp only [Except.mapError]
    rw [(owed_request owes).2]
    refine (record_safe start owes still).bind fun tr r w t priced => ?_
    obtain ⟨owing,there,c,rfl,fits⟩ := priced
    obtain ⟨calculation,total⟩ := totalled_ok.mpr fits
    exact Contract.Safe.ret ⟨owing,there,calculation,total,totalled_gas total⟩

/-- The update of a record that is there settles what the call owes. -/
private theorem apply_safe (owes : owed P (.commitmentRequest (some request)) slot = some gas)
    (owing : Owing config.reth.feeConfig.scalingFactor (.commitmentRequest (some request)) tr)
    (there : w.congestion.forSlot slot.toInt64 ≠ none) :
    (counting config (.commitmentRequest (some request))).Safe (world P limits relay)
      (fun tr _ _ _ => Balanced config.reth.feeConfig.scalingFactor (.commitmentRequest (some request)) tr)
      (FeePricing.applyGasUsageToSlot config slot gas) tr w t := by
  refine Gateway.safe_request (.inl trivial) fun w₁ u r w₂ readable keeps _ _ _ faultless =>
    ⟨⟨slot,gas,owes,rfl,rfl⟩,?_⟩
  obtain ⟨row,c,hrow,read⟩ := Keeps.readable keeps readable there
  have made : (w₁.congestion.forSlot slot.toInt64).bind (addition config.reth.feeConfig.scalingFactor gas) =
      some (c.addGasUsage gas config.reth.feeConfig.scalingFactor).row := by
    rw [hrow,Option.bind_some,addition,read]
    rfl
  have settled := owing.spend (e := ⟨.plain (.sql (.updateCongestion slot.toInt64
      (addition config.reth.feeConfig.scalingFactor gas))), r, t, u, w₁, w₂⟩) (fun _ => promised_none fun new asked => by cases asked) (by
    intro other
    cases now : owed P (.commitmentRequest (some request)) other with
    | none => simp [spent,now]
    | some found =>
      obtain ⟨same,_⟩ := owed_request now
      cases same.symm.trans (owed_request owes).1
      cases owes.symm.trans now
      exact spent_of now ⟨rfl,_,made,faultless _ made⟩)
  rcases r with e | found
  · exact Contract.Safe.ret settled
  · cases found with
    | none => exact Contract.Safe.ret settled
    | some row => exact Contract.Safe.ret settled

private theorem account_safe {sc : SignedCommitment} (one : request.commitmentType = 1)
    (start : HasStart config request.payload) (hslot : PayloadParser.extractSlot P 1 request.payload = .ok slot)
    (owing : Owing config.reth.feeConfig.scalingFactor (.commitmentRequest (some request)) tr) :
    (counting config (.commitmentRequest (some request))).Safe (world P limits relay)
      (fun tr _ _ _ => Balanced config.reth.feeConfig.scalingFactor (.commitmentRequest (some request)) tr)
      (accountGas config request slot sc) tr w t := by
  obtain ⟨gas,estimate⟩ := estimate_one (P := P) request.payload
  have owes := owed_of hslot estimate
  unfold accountGas
  rw [one]
  refine (fee_safe start owes owing).bind fun tr r w t known => ?_
  obtain ⟨owing,there,calculation,rfl,rfl⟩ := known
  refine (apply_safe owes owing there).bind fun tr r w t settled => ?_
  rcases r with (_ | _) | _ <;> exact Contract.Safe.ret settled

private theorem store_safe {sc : SignedCommitment} (signed : Signed config request slot sc)
    (balanced : Balanced config.reth.feeConfig.scalingFactor (.commitmentRequest (some request)) tr) :
    (counting config (.commitmentRequest (some request))).Safe (world P limits relay)
      (fun tr _ _ _ => Balanced config.reth.feeConfig.scalingFactor (.commitmentRequest (some request)) tr)
      (storeCommitment config request slot sc) tr w t := by
  have payload : sc.commitment.payload = request.payload := by rw [signed.commitment]
  unfold storeCommitment
  rw [saveCommitment_one P (by rw [signed.commitment]),bind_assoc]
  refine Gateway.safe_request (.inr balanced) fun w₁ u r w₂ _ _ _ _ answers faultless =>
    ⟨⟨request,rfl,payload,rfl⟩,?_⟩
  have quiet : ∀ slot, spent config.reth.feeConfig.scalingFactor (.commitmentRequest (some request)) slot
      (⟨.plain (.sql (.insertCommitment (newCommitmentOf P sc 1))), r, t, u, w₁, w₂⟩ : Event (requests P) (World P)) = none :=
    fun _ => spent_none nofun
  rcases r with e | saved
  · exact Contract.Safe.ret (balanced.cons (fun _ => promised_same faultless) quiet)
  · cases saved with
    | none =>
      obtain rfl := Answers.insertCommitment_none answers
      exact Contract.Safe.ret (balanced.cons (fun _ => promised_same rfl) quiet)
    | some id =>
      obtain ⟨createdAt,added,_⟩ := Answers.insertCommitment answers
      have start : HasStart config request.payload := payload ▸ faultless
      refine account_safe signed.commitmentType start signed.slot_eq (balanced.promise ⟨_,rfl,?_⟩ quiet)
      intro same
      rw [added] at same
      exact nomatch List.append_right_eq_self.mp same

end Call

/-- The other jobs write no commitment and no record. -/
theorem asks_neutral {job : Job} {q : Query P} (asks : g.Asks job q) (other : ∀ params, job ≠ .commitmentRequest params) :
    Neutral q := by
  cases asks
  case commitmentExists params _ => exact absurd rfl (other params)
  case readAuthority params _ => exact absurd rfl (other params)
  case proposerForSlot request _ _ => exact absurd rfl (other (some request))
  case insertCommitment params _ _ _ => exact absurd rfl (other params)
  case gasPrice params => exact absurd rfl (other params)
  case insertCongestion params _ => exact absurd rfl (other params)
  case selectCongestion params _ => exact absurd rfl (other params)
  case updateCongestion params _ _ => exact absurd rfl (other params)
  all_goals exact ⟨nofun,nofun,nofun⟩

theorem code_safe (g : Gateway P) (job : Job) (w : World P) (t : Nat) :
    (counting g.config job).Safe g.machine
      (fun tr _ _ _ => Balanced g.config.reth.feeConfig.scalingFactor job tr) (g.code job) [] w t := by
  have start : Balanced g.config.reth.feeConfig.scalingFactor job [] := fun _ => rfl
  by_cases call : ∃ params, job = .commitmentRequest params
  · obtain ⟨params,rfl⟩ := call
    cases params with
    | none => exact Contract.Safe.ret start
    | some request =>
      have handled : (counting g.config (.commitmentRequest (some request))).Safe g.machine
          (fun tr _ _ _ => Balanced g.config.reth.feeConfig.scalingFactor (.commitmentRequest (some request)) tr)
          (commitmentRequestHandler g.config (some request)) [] w t := by
        rw [commitmentRequestHandler_split]
        have authorises : (authoriseRequest g.config request).Obeys (fun op : Op P => Neutral op.query)
            (fun r => ∀ slot sc, r = .ok (slot, sc) → Signed g.config request slot sc) :=
          authoriseRequest_obeys (fun _ => ⟨nofun,nofun,nofun⟩) (fun _ => ⟨nofun,nofun,nofun⟩)
            fun _ _ => ⟨nofun,nofun,nofun⟩
        refine (neutral_safe authorises start).bind fun tr r w t authorised => ?_
        obtain ⟨balanced,signed⟩ := authorised
        rcases r with e | ⟨slot,sc⟩
        · exact Contract.Safe.ret balanced
        · exact store_safe (signed slot sc rfl) balanced
      exact handled.bind fun _ _ _ _ balanced => Contract.Safe.ret balanced
  · have neutral : (g.code job).Obeys (fun op : Op P => Neutral op.query) (fun _ => True) :=
      (g.code_obeys job).mono (fun _ asks => asks_neutral asks fun params he => call ⟨params,he⟩) fun _ h => h
    exact (neutral_safe neutral start).mono fun _ _ _ _ h => h.1

/-- What may be written to the table of records reads back. -/
theorem books_readable {job : Job} {q : Query P} {w w' : World P} (readable : Readable w) (books : Books k job q)
    (changes : Changes w q w') : Readable w' := by
  cases changes with
  | recorded row =>
    obtain ⟨c,rfl,_,small⟩ := books
    intro slot row hrow
    rw [Congestion.forSlot_insert] at hrow
    cases held : w.congestion.forSlot slot with
    | some old =>
      rw [held] at hrow
      cases hrow
      exact readable slot _ held
    | none =>
      rw [held,Option.none_or] at hrow
      obtain ⟨_,he⟩ := Option.ite_none_right_eq_some.mp hrow
      cases he
      exact ⟨c,slotCongestionOf_row small⟩
  | counted number change new found =>
    intro slot row hrow
    rw [Congestion.forSlot_update] at hrow
    obtain ⟨old,hold,rfl⟩ := Option.map_eq_some_iff.mp hrow
    have start : (new.written old).slotStartTime = old.slotStartTime := by
      unfold CongestionRow.written
      split <;> rfl
    rw [readable_iff,start,← readable_iff]
    exact readable slot old hold
  | same | inserted | marked | stored | switchedOff | taken => exact readable

/-- Calls without faults keep the balance, however they interleave. -/
theorem faultless_verified (g : Gateway P) : Verified (faultless g) (counting g.config) Keeps
    (fun job tr _ _ _ => Balanced g.config.reth.feeConfig.scalingFactor job tr) where
  refl := Keeps.refl
  trans := Keeps.trans
  permits _ _ _ h := h
  start job t w _ _ := code_safe g job w t
  step job _ _ readable answers _ books := by
    have changes := Changes.of_answers answers
    exact ⟨fun _ => books_readable (readable job) books changes,keeps_of_changes changes,
      fun _ _ => keeps_of_changes changes⟩

abbrev Ledger (P : Platform) := List (Entry (requests P) (World P) Job)

noncomputable def promises (slot : UInt64) (log : Ledger P) : List UInt64 :=
  log.filterMap (fun entry => promised P entry.job slot entry.event)

noncomputable def spends (k : P.float.F64) (slot : UInt64) (log : Ledger P) : List UInt64 :=
  log.filterMap (fun entry => spent k entry.job slot entry.event)

/-- The commitments of the slot are those that the ledger promises gas for. -/
def Listed (slot : UInt64) (log : Ledger P) (w : World P) : Prop :=
  (storedFor w slot).map (gasOf P) = (promises slot log).reverse

/-- The record of the slot has the gas that the ledger spends on it. -/
def Summed (k : P.float.F64) (slot : UInt64) (log : Ledger P) (w : World P) : Prop :=
  (w.congestion.forSlot slot.toInt64 = none ∧ spends k slot log = []) ∨
    ∃ c : SlotCongestion P, c.preconfirmedGas = 0 ∧ c.slotStartTime.toNat < 2 ^ 63 ∧
      w.congestion.forSlot slot.toInt64 = some (used k c (spends k slot log)).row

section Ledger
variable {slot : UInt64} {past : Ledger P} {entry : Entry (requests P) (World P) Job}

theorem promises_none (h : promised P entry.job slot entry.event = none) :
    promises slot (entry :: past) = promises slot past := List.filterMap_cons_none h

theorem promises_some {gas : UInt64} (h : promised P entry.job slot entry.event = some gas) :
    promises slot (entry :: past) = gas :: promises slot past := List.filterMap_cons_some h

theorem spends_none (h : spent k entry.job slot entry.event = none) : spends k slot (entry :: past) = spends k slot past :=
  List.filterMap_cons_none h

theorem spends_some {gas : UInt64} (h : spent k entry.job slot entry.event = some gas) :
    spends k slot (entry :: past) = gas :: spends k slot past := List.filterMap_cons_some h

private theorem listed_step (h : Listed slot past entry.event.pre)
    (books : Books k entry.job entry.event.op.query)
    (column : ∀ new, entry.event.op.query = .sql (.insertCommitment new) → ∃ slot,
      PayloadParser.extractSlot P 1 new.payload = .ok slot ∧ new.slotNumber = some slot.toInt64)
    (changes : Changes entry.event.pre entry.event.op.query entry.event.post) :
    Listed slot (entry :: past) entry.event.post := by
  have quiet (same : (storedFor entry.event.post slot).map (gasOf P) = (storedFor entry.event.pre slot).map (gasOf P))
      (nothing : promised P entry.job slot entry.event = none) : Listed slot (entry :: past) entry.event.post := by
    rw [Listed,same,promises_none nothing]
    exact h
  obtain ⟨id,job,⟨op,reply,start,stop,pre,post⟩⟩ := entry
  dsimp only at *
  generalize hq : op.query = q at books column changes
  cases changes with
  | inserted new rowId createdAt commitments added =>
    rcases insert_kind added with ⟨taken,_⟩ | ⟨_,rows,_⟩
    · cases taken
    · obtain ⟨request,rfl,payload,type⟩ := books
      obtain ⟨found,hslot,number⟩ := column new rfl
      rw [payload] at hslot
      obtain ⟨gas,estimate⟩ := estimate_one (P := P) request.payload
      have row_gas : gasOf P (new.row rowId createdAt) = gas := by
        change ((FeePricing.estimateGasForCommitment P new.commitmentType.toUInt64 new.payload).toOption).getD 0 = gas
        rw [payload,type]
        change ((FeePricing.estimateGasForCommitment P 1 request.payload).toOption).getD 0 = gas
        rw [estimate]
        rfl
      have changed : commitments.rows ≠ pre.commitments.rows := by
        rw [rows]
        exact fun same => nomatch List.append_right_eq_self.mp same
      have event : Promises (⟨op, reply, start, stop, pre, { pre with commitments := commitments }⟩ :
          Event (requests P) (World P)) := ⟨new,hq,changed⟩
      have one : (storedFor { pre with commitments := commitments } slot).map (gasOf P) =
          (storedFor pre slot).map (gasOf P) ++ (if found = slot then [gas] else []) := by
        have columns : (new.row rowId createdAt).slotNumber = some found.toInt64 := number
        rw [storedFor,rows,List.filter_append,List.map_append,List.filter_singleton,columns]
        by_cases same : found = slot
        · simp [same,row_gas,storedFor]
        · have other : found.toInt64 ≠ slot.toInt64 := fun he => same (toInt64_injective he)
          simp [same,other,storedFor]
      rw [Listed,one,h]
      have here (slot : UInt64) : promised P (.commitmentRequest (some request)) slot
          (⟨op, reply, start, stop, pre, { pre with commitments := commitments }⟩ : Event (requests P) (World P)) =
            owed P (.commitmentRequest (some request)) slot := promised_of event
      by_cases same : found = slot
      · subst same
        rw [promises_some ((here found).trans (owed_of hslot estimate)),List.reverse_cons,if_pos rfl]
      · have nothing : owed P (.commitmentRequest (some request)) slot = none := by
          cases owes : owed P (.commitmentRequest (some request)) slot with
          | none => rfl
          | some gas => exact absurd (Except.ok.inj (hslot.symm.trans (owed_request owes).1)) same
        rw [promises_none ((here slot).trans nothing),if_neg same,List.append_nil]
  | marked hashes =>
    refine quiet ?_ (promised_none fun new he => nomatch hq.symm.trans he)
    have kept (r : CommitmentRow) : (r.processed hashes).slotNumber = r.slotNumber ∧ gasOf P (r.processed hashes) = gasOf P r := by
      unfold CommitmentRow.processed
      split <;> exact ⟨rfl,rfl⟩
    simp only [storedFor,Commitments.markProcessed,List.filter_map,List.map_map,Function.comp_def,kept]
  | same | stored | switchedOff | recorded | counted | taken => exact quiet rfl (promised_same rfl)

private theorem summed_step (h : Summed k slot past entry.event.pre) (books : Books k entry.job entry.event.op.query)
    (changes : Changes entry.event.pre entry.event.op.query entry.event.post) :
    Summed k slot (entry :: past) entry.event.post := by
  cases now : spent k entry.job slot entry.event with
  | some gas =>
    obtain ⟨_,_,new,found,after⟩ := spent_some now
    obtain ⟨old,hold,made⟩ := Option.bind_eq_some_iff.mp found
    rcases h with ⟨none,_⟩ | ⟨c,empty,start,row⟩
    · cases none.symm.trans hold
    · cases row.symm.trans hold
      have read := slotCongestionOf_row (c := used k c (spends k slot past)) (by
        rw [used_start]
        exact start)
      obtain ⟨_,same,rfl⟩ := addition_some made
      cases read.symm.trans same
      refine .inr ⟨c,empty,start,?_⟩
      rw [spends_some now,used_cons,after,Congestion.forSlot_update,row,Option.map_some]
      exact congrArg some (written_addition read)
  | none =>
    have same : spends k slot (entry :: past) = spends k slot past := spends_none now
    have stays (keep : entry.event.post.congestion.forSlot slot.toInt64 = entry.event.pre.congestion.forSlot slot.toInt64) :
        Summed k slot (entry :: past) entry.event.post := by
      rw [Summed,keep,same]
      exact h
    obtain ⟨id,job,⟨op,reply,start,stop,pre,post⟩⟩ := entry
    dsimp only at *
    generalize hq : op.query = q at books changes
    cases changes with
    | recorded row =>
      obtain ⟨c,rfl,empty,small⟩ := books
      rw [Congestion.forSlot_insert] at stays
      by_cases first : pre.congestion.forSlot slot.toInt64 = Option.none ∧ c.row.slot = slot.toInt64
      · obtain ⟨absent,own⟩ := first
        rcases h with ⟨_,nothing⟩ | ⟨_,_,_,row⟩
        · refine .inr ⟨c,empty,small,?_⟩
          rw [same,nothing,Congestion.forSlot_insert,absent,Option.none_or]
          exact if_pos own
        · cases absent.symm.trans row
      · refine stays ?_
        cases held : pre.congestion.forSlot slot.toInt64 with
        | some row => rfl
        | none =>
          rw [Option.none_or]
          exact if_neg fun own => first ⟨held,own⟩
    | counted number change new found =>
      obtain ⟨other,gas,owes,rfl,rfl⟩ := books
      obtain ⟨old,hold,made⟩ := Option.bind_eq_some_iff.mp found
      obtain ⟨c,read,rfl⟩ := addition_some made
      refine stays (Congestion.forSlot_update_other ?_)
      intro clash
      have other_eq : other.toInt64 = slot.toInt64 := by
        rw [← clash,← Congestion.forSlot_slot hold,← (slotCongestionOf_ok read).1]
        simp only [SlotCongestion.row,SlotCongestion.addGasUsage_slot]
      cases toInt64_injective other_eq
      cases now.symm.trans (spent_of owes ⟨hq,_,found,rfl⟩)
    | same | inserted | marked | stored | switchedOff | taken => exact stays rfl

end Ledger

section Reached
variable {w₀ : World P} {s : State (requests P) (World P) Job Outcome} {log : Ledger P}

/-- A call that is not in flight has spent what it has promised, whether it ended or broke off. -/
theorem quiescent_balanced (hr : Reachable (faultless g) w₀ s) (readable : Readable w₀) (quiet : Quiescent s) {id : Nat}
    {task : Task (requests P) (World P) Job Outcome} (ht : s.tasks id = some task) :
    Balanced g.config.reth.feeConfig.scalingFactor task.job task.trace := by
  by_cases call : ∃ params, task.job = .commitmentRequest params
  · obtain ⟨params,job⟩ := call
    have sound := (faultless_verified g).sound (fun _ => readable) hr
    cases dropped : task.dropped with
    | true =>
      obtain ⟨u,old,op,hu,ho,waits,same,past,droppable⟩ := hr.stopped ht dropped
      have safe := (((faultless_verified g).sound (fun _ => readable) hu).tasks id old ho).running ⟨op,waits⟩
      obtain ⟨_,pending⟩ := waits
      cases program : old.program with
      | ret a =>
        rw [program] at pending
        cases pending
      | call op' next =>
        rw [program] at pending safe
        cases pending
        rw [← same,← past]
        exact safe.1.resolve_left droppable
    | false =>
      cases program : task.program with
      | ret a =>
        obtain ⟨_,_,balanced⟩ := (sound.tasks id task ht).finished a program
        exact balanced
      | call op next => exact absurd (Task.running_of_call dropped program) (quiet id task params ht job)
  · have nothing (slot : UInt64) : owed P task.job slot = none := by
      unfold owed
      split
      · exact absurd ⟨_,‹_›⟩ call
      · rfl
    intro slot
    have promised_nothing (e : Event (requests P) (World P)) : promised P task.job slot e = none := by
      rw [promised,nothing]
      exact ite_self _
    have spent_nothing (e : Event (requests P) (World P)) :
        spent g.config.reth.feeConfig.scalingFactor task.job slot e = none := by
      rw [spent,nothing]
      rfl
    simp [promised_nothing,spent_nothing]

/-- Between calls the ledger has spent on each slot what it has promised it. -/
theorem ledger_balanced (hr : Reachable (faultless g) w₀ s) (readable : Readable w₀) (quiet : Quiescent s)
    (logged : s.Logged w₀ log) (slot : UInt64) :
    (promises slot log).Perm (spends g.config.reth.feeConfig.scalingFactor slot log) := by
  refine perm_of_tasks fun id => ?_
  have trace := logged.traces id
  cases ht : s.tasks id with
  | none =>
    rw [State.traceOf,ht] at trace
    rw [List.map_eq_nil_iff.mp trace.symm]
    rfl
  | some task =>
    rw [State.traceOf,ht] at trace
    change task.trace = _ at trace
    have balanced := quiescent_balanced hr readable quiet ht slot
    rw [trace,List.filterMap_map,List.filterMap_map] at balanced
    have jobs : ∀ entry ∈ log.filter (fun entry => entry.id = id), entry.job = task.job := by
      intro entry he
      obtain ⟨mem,own⟩ := List.mem_filter.mp he
      rw [decide_eq_true_eq] at own
      obtain ⟨task',ht',job⟩ := logged.jobs entry mem
      rw [own] at ht'
      cases ht.symm.trans ht'
      exact job.symm
    refine (List.filterMap_congr fun entry he => ?_).trans (balanced.trans (List.filterMap_congr fun entry he => ?_))
    · rw [jobs entry he]
      rfl
    · rw [jobs entry he]
      rfl

/-- Every entry of the ledger leaves the tables with what it promises and spends. -/
theorem booked (hr : Reachable (faultless g) w₀ s) (commitments : w₀.commitments = .empty)
    (delegations : w₀.delegations = .empty) (congestion : w₀.congestion = .empty) (logged : s.Logged w₀ log)
    (slot : UInt64) : Listed slot log s.world ∧ Summed g.config.reth.feeConfig.scalingFactor slot log s.world := by
  have unread : Readable w₀ := by
    rw [Readable,congestion]
    nofun
  have sound := (faultless_verified g).sound (fun _ => unread) hr
  have wide : Narrows (faultless g) g.system := ⟨rfl,rfl,fun _ _ _ h => h,fun _ _ h => h,fun _ _ _ _ => trivial,fun _ _ _ => trivial⟩
  refine logged.linked.invariant (fun log w => Listed slot log w ∧ Summed g.config.reth.feeConfig.scalingFactor slot log w)
    ⟨?_,.inl ⟨?_,rfl⟩⟩ ?_
  · rw [Listed,storedFor,commitments]
    rfl
  · rw [congestion]
    rfl
  · rintro entry he past ⟨listed,summed⟩
    obtain ⟨task,ht,job,seen⟩ := logged.saw he
    obtain ⟨_,_,_,_,_,answers,_,books⟩ := (sound.tasks _ task ht).kept.mem seen
    have changes := Changes.of_answers answers
    rw [job] at books
    refine ⟨listed_step listed books (fun new hq => ?_) changes,summed_step summed books changes⟩
    obtain ⟨found,hslot,_,column⟩ := SlotColumn.sent_slot delegations (wide.reachable hr) (logged.saw he) hq
    exact ⟨found,hslot,column⟩

/-- In every state without a call in flight of every run without faults, the gas of each slot
is the sum over its commitments, held to the largest number. -/
theorem commitment_gas_matches (g : Gateway P) {w₀ : World P} {s : State (requests P) (World P) Job Outcome}
    (commitments : w₀.commitments = .empty) (delegations : w₀.delegations = .empty)
    (congestion : w₀.congestion = .empty) (hr : Reachable (faultless g) w₀ s) (quiet : Quiescent s) (slot : UInt64) :
    Matches s.world slot := by
  obtain ⟨log,logged⟩ := hr.logged
  have unread : Readable w₀ := by
    rw [Readable,congestion]
    nofun
  have balanced := ledger_balanced hr unread quiet logged slot
  obtain ⟨listed,summed⟩ := booked hr commitments delegations congestion logged slot
  refine ⟨fun row hrow => ?_,fun none => ?_⟩
  · rcases summed with ⟨none,_⟩ | ⟨c,empty,_,held⟩
    · cases none.symm.trans hrow
    · cases held.symm.trans hrow
      have total : (((storedFor s.world slot).map (gasOf P)).map UInt64.toNat).sum =
          ((spends g.config.reth.feeConfig.scalingFactor slot log).map UInt64.toNat).sum := by
        rw [listed]
        exact (((List.reverse_perm _).trans balanced).map _).sum_nat
      apply UInt64.toNat_inj.mp
      rw [capped_toNat,total,← used_gas (k := g.config.reth.feeConfig.scalingFactor) empty]
      simp only [SlotCongestion.row,UInt64.toUInt64_toInt64]
  · rcases summed with ⟨_,nothing⟩ | ⟨c,_,_,held⟩
    · rw [nothing] at balanced
      rw [Listed,balanced.eq_nil] at listed
      exact List.map_eq_nil_iff.mp listed
    · cases none.symm.trans held

end Reached

/-- A request before any commitment is stored cannot go wrong. -/
theorem neutral_faultless {config : Config P} {job : Job} {e : Event (requests P) (World P)}
    (quiet : ¬ Accounting e.op.query) (other : ∀ new, e.op.query ≠ .sql (.insertCommitment new)) :
    Faultless config job e := by
  unfold Faultless
  split
  · exact absurd rfl (other _)
  · exact absurd rfl (other _)
  · exact quiet trivial
  · exact quiet trivial
  · exact absurd trivial quiet
  · exact quiet trivial
  · exact absurd trivial quiet
  · exact absurd trivial quiet
  · exact trivial

private theorem up_faultless {e : Event (requests (platform offer)) (World (platform offer))} (h : up e = true)
    (answers : small.machine.Answers e.stop e.pre e.op e.reply e.post) :
    Faultless small.config (.commitmentRequest (some (request 5 7 own))) e := by
  have slot_eq : PayloadParser.extractSlot (platform offer) 1 (payload 5 7) = .ok 5 := by decide +kernel
  unfold Faultless
  split
  · cases h
  · have hp := of_decide_eq_true h
    rw [hp]
    intro slot hslot
    cases slot_eq.symm.trans hslot
    exact ⟨⟨60,by decide +kernel⟩,by decide +kernel⟩
  · cases h
  · cases h
  · have hrow := of_decide_eq_true h
    subst hrow
    intro slot gas c owes read
    obtain ⟨hslot,estimate⟩ := owed_request owes
    cases slot_eq.symm.trans hslot
    have gas_eq : FeePricing.estimateGasForCommitment (platform offer) 1 (payload 5 7) = .ok 31016 := by decide +kernel
    cases gas_eq.symm.trans estimate
    cases (slotCongestionOf_row (by decide)).symm.trans read
    decide +kernel
  · cases h
  · cases h
  · rename_i slot change reply start stop pre post
    rcases reply with e | found
    · cases h
    · obtain ⟨hfound,effect⟩ := Answers.updateCongestion answers
      intro row made
      exact effect row (by rw [hfound]; exact made)
  · exact trivial

/-- A poll and a served request are a run without faults. -/
theorem served_faultless : ∃ s, Reachable (faultless small) (.empty _) s ∧ s.world = served ∧ Matches s.world 5 := by
  obtain ⟨es,stores,last⟩ := store_signed
  obtain ⟨s,hr,hi,hw,_,free,⟨poll,hpoll,polls,alive⟩,first,all,mine⟩ := Authorisation.reach_of_store (by decide) stores
  have tasks : ∀ id task, s.tasks id = some task → task = poll ∨
      task = ⟨.commitmentRequest (some (request 5 7 own)), .ret (.commitment (.ok signed)), 61000,
        (first ++ es).reverse, false⟩ := by
    intro id task ht
    rcases id with _ | _ | id
    · exact .inl (Option.some.inj (ht.symm.trans hpoll))
    · exact .inr (Option.some.inj (ht.symm.trans mine))
    · cases (free (id + 2) (by omega)).symm.trans ht
  have met : ∀ id job e, s.Saw id job e → Faultless small.config job e := by
    intro id job e saw
    obtain ⟨asks,answers,_⟩ := reached_event hr saw
    obtain ⟨task,ht,rfl,he⟩ := saw
    rcases tasks id task ht with rfl | rfl
    · rw [polls] at asks ⊢
      generalize hq : e.op.query = q at asks
      refine neutral_faultless ?_ ?_ <;> rw [hq] <;> cases asks <;> first | exact id | nofun
    · refine up_faultless ?_ answers
      have both : (first ++ es).all up = true := by
        rw [List.all_append,all,last]
        rfl
      exact List.all_eq_true.mp both e (List.mem_reverse.mp he)
  have kept : ∀ id task, s.tasks id = some task → task.dropped = false := by
    intro id task ht
    rcases tasks id task ht with rfl | rfl
    · exact alive
    · rfl
  have run : Reachable (faultless small) (.empty _) s :=
    (hr.permitted (Faultless small.config) met).undropped (fun _ op => ¬ Accounting op.query) kept
  exact ⟨s,run,hw,commitment_gas_matches small rfl rfl rfl run (fun id task _ ht _ => hi id task ht) 5⟩

/-- The commitment for another transaction. -/
def signedNext : SignedCommitment where
  commitment := ⟨1, payload 5 8, "0x65eac8ebfe492f5597b25171dad5677b890e384f8d76d8d0c7f698736431da8a", own⟩
  signature := "0x96f09f374b954d562f8ccdaac25525f15b20009dbc099746bdd1897014a542bd09459c5e14e388f6bea24cf3b038755ee075953a97af37174259f7b96d80fa681b"

def nextRow : CommitmentRow := (newCommitmentOf (platform offer) signedNext 1).row 1 1

/-- What is left when a second call could not be priced: both commitments, and the gas of the first. -/
def servedBoth : World (platform offer) :=
  { served with commitments := ⟨[servedRow, nextRow], by decide, by decide +kernel, by decide +kernel⟩ }

theorem serve_next_run : ∃ es, Run small.machine Eq (commitmentRequestHandler small.config (some (request 5 8 own)))
    served 61000 es (.error .internalError) servedBoth 61000 := by
  have admitted : admitRequest small.config (request 5 8 own) = .ok (5, signedNext.commitment.requestHash) := by
    decide +kernel
  have signs : signRequest small.config (request 5 8 own) signedNext.commitment.requestHash own = .ok signedNext := by
    decide +kernel
  have run : (small.machine.play [(.row 1 1, 61000),(.price (.error "down"), 61000)]
      (storeCommitment small.config (request 5 8 own) 5 signedNext) served 61000).any (fun out =>
        out.2.1 = .error .internalError && out.2.2.1.commitments.rows = servedBoth.commitments.rows &&
          out.2.2.1.delegations.rows = served.delegations.rows &&
            out.2.2.1.congestion.rows = served.congestion.rows && out.2.2.1.accepted = [] &&
              out.2.2.2 = 61000) = true := by
    decide +kernel
  obtain ⟨first,authorised,_⟩ := authorise_run_of admitted finds_own signs (w := served) (by decide +kernel) rfl 61000
  obtain ⟨⟨es,r,w,u⟩,hplay,hp⟩ := (Option.any_eq_true _ _).mp run
  simp only [Bool.and_eq_true,decide_eq_true_eq] at hp
  obtain ⟨⟨⟨⟨⟨rfl,commitments⟩,delegations⟩,congestion⟩,accepted⟩,rfl⟩ := hp
  have hw : w = servedBoth := World.ext (Commitments.ext commitments) (Delegations.ext delegations)
    (Congestion.ext congestion) accepted
  subst hw
  rw [commitmentRequestHandler_split]
  exact ⟨first ++ es,authorised.bind (Machine.play_run _ hplay)⟩

theorem both_reachable : ∃ s : State (requests (platform offer)) (World (platform offer)) Job Outcome,
    Reachable small.system (.empty _) s ∧ s.Idle ∧ s.world = servedBoth ∧ s.clock = 61000 ∧
      (∀ i, 3 ≤ i → s.tasks i = none) ∧ ∀ i task, s.tasks i = some task →
        task.job = .pollDelegations ∨ ∃ params, task.job = .commitmentRequest params := by
  obtain ⟨s,hr,hi,hw,hclock,free,⟨poll,hpoll,polls⟩,first,hfirst,calls,_⟩ := Authorisation.served_reachable
  obtain ⟨es,serves⟩ := serve_next_run
  have call : Run small.machine Eq (small.system.code (.commitmentRequest (some (request 5 8 own)))) s.world s.clock
      (es ++ []) (.commitment (.error .internalError)) servedBoth 61000 := by
    rw [hw,hclock]
    exact serves.bind (.ret (Outcome.commitment (.error .internalError)) servedBoth 61000)
  obtain ⟨s',hr',hi',hw',ht',mine,others⟩ := hr.run hi (free 2 (Nat.le_refl 2)) trivial call (fun _ _ _ => trivial)
  refine ⟨s',hr',hi',hw',ht',fun i hle => (others i (by omega)).trans (free i (by omega)),?_⟩
  intro i task hi
  by_cases h2 : i = 2
  · subst h2
    cases mine.symm.trans hi
    exact .inr ⟨_,rfl⟩
  · rw [others i h2] at hi
    by_cases h0 : i = 0
    · subst h0
      cases hpoll.symm.trans hi
      exact .inl polls
    · by_cases h1 : i = 1
      · subst h1
        cases hfirst.symm.trans hi
        exact .inr ⟨_,calls⟩
      · cases (free i (by omega)).symm.trans hi

/-- The second of two calls is not told a gas price: two commitments, and the gas of one. -/
theorem unpriced_gas_missing : ∃ s, Reachable small.system (.empty _) s ∧ Quiescent s ∧ ¬ Matches s.world 5 := by
  obtain ⟨s,hr,hi,hw,_⟩ := both_reachable
  refine ⟨s,hr,fun id task _ ht _ => hi id task ht,?_⟩
  rw [hw]
  intro wrong
  have sum : (((storedFor servedBoth 5).map (gasOf (platform offer))).map UInt64.toNat).sum = 62032 := by
    decide +kernel
  have one : (servedBoth.congestion.forSlot 5).any (fun row => row.preconfirmedGas = 31016) = true := by
    decide +kernel
  obtain ⟨row,hrow,gas⟩ := (Option.any_eq_true _ _).mp one
  have same := wrong.gas row hrow
  rw [sum,of_decide_eq_true gas] at same
  exact absurd same (by decide)

end PreconfGateway.Properties.CommitmentGas
