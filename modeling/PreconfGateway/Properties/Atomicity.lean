import PreconfGateway.Fixture
import PreconfGateway.Rpc.Stages

/-! When the insert of a call and its answer go together. After the insert the call still
needs a gas price, a congestion record and a total that fits, and fails without them. -/
namespace PreconfGateway.Properties.Atomicity
open Encoding Types Db Crypto Interleaving Rpc Services Fixture
variable {P : Platform}

/-- The call has added a row. -/
def Adds (es : Trace P) : Prop :=
  ∃ e ∈ es, ∃ new, e.op.query = .sql (.insertCommitment new) ∧
    e.post.commitments.rows ≠ e.pre.commitments.rows

def slotStart (config : Config P) (slot : UInt64) : UInt64 :=
  saturatingAdd config.beaconApi.genesisTime (saturatingMul slot 12)

/-- The record of the slot, just created for this price or found and readable. -/
def Recorded (config : Config P) (slot price : UInt64) (es : Trace P) (c : SlotCongestion P) : Prop :=
  ∃ start, unixEpochPlus (slotStart config slot) = .ok start ∧
    P.timestampInRange (slotStart config slot).toInt64 = true ∧
      let created : SlotCongestion P := .new slot price config.reth.feeConfig.defaultGasLimit start
      (Told es (.sql (.insertCongestion created.row)) (.ok true) ∧ c = created) ∨
        (Told es (.sql (.insertCongestion created.row)) (.ok false) ∧
          ∃ row, Told es (.sql (.selectCongestion slot.toInt64)) (.ok (some row)) ∧ slotCongestionOf row = .ok c)

/-- The oracle told a price, the slot has its record, and the total cost fits. -/
def FeeKnown (config : Config P) (payload : Bytes) (slot : UInt64) (es : Trace P) : Prop :=
  ∃ info gas c, Told es .gasPrice (.ok info) ∧
    FeePricing.estimateGasForCommitment P 1 payload = .ok gas ∧
      Recorded config slot info.gasPriceAsU64Clamped es c ∧
        (checkedMul (FeePricing.calculateProjectedCongestion config c gas).currentTxPrice gas).isSome = true

/-- A row that was locked for the update has a start that the clock reaches. -/
def UpdateReadable (slot : UInt64) (es : Trace P) : Prop :=
  ∀ change row, Told es (.sql (.updateCongestion slot.toInt64 change)) (.ok (some row)) →
    ∃ c, slotCongestionOf row = .ok c

/-- The database said that it took the row, and everything after it went well. -/
def Settled (config : Config P) (request : CommitmentRequest) (es : Trace P) : Prop :=
  (∃ new id, Told es (.sql (.insertCommitment new)) (.ok (some id))) ∧
    ∃ slot, PayloadParser.extractSlot P 1 request.payload = .ok slot ∧
      FeeKnown config request.payload slot es ∧ UpdateReadable slot es

section Runs
variable {M : Machine (requests P) (World P)} {between : World P → World P → Prop} {config : Config P}
  {slot : UInt64} {w w' : World P} {t t' : Nat} {es : Trace P}

private theorem price_ne (s : Statement P) : (.gasPrice : Query P) ≠ .sql s := nofun

theorem getOrCreate_run {price : UInt64} {r : Except Fault (SlotCongestion P)}
    (h : Run M between (getOrCreateSlotCongestion slot price config.reth.feeConfig.defaultGasLimit
      config.beaconApi.genesisTime) w t es r w' t') (c : SlotCongestion P) :
    r = .ok c ↔ Recorded config slot price es c := by
  unfold getOrCreateSlotCongestion at h
  unfold Recorded slotStart
  dsimp only at h ⊢
  split at h
  · rename_i e he
    obtain ⟨_,rfl,_⟩ := h.ret_inv
    simp [he]
  · rename_i start hstart
    split at h
    · rename_i range
      obtain ⟨_,rfl,_⟩ := h.ret_inv
      simp only [Bool.not_eq_true'] at range
      simp [fault,range]
    · rename_i range
      simp only [Bool.not_eq_true',Bool.not_eq_false] at range
      obtain ⟨w₁,u,reply,w₂,rest,rfl,_,_,_,_,h⟩ := run_ask h
      simp only [hstart,range,Except.ok.injEq,exists_eq_left',told_here,true_and]
      rcases reply with e | new
      · obtain ⟨rfl,rfl,_⟩ := h.ret_inv
        simp [fault,told_nil]
      · cases new
        · obtain ⟨es₁,found,w₃,t₁,es₂,rfl,hget,h⟩ := h.bind_inv
          obtain ⟨w₄,u',reply,w₅,rest,rfl,_,_,_,_,hget⟩ := run_ask hget
          have other (row : CongestionRow P) :
              (.sql (.insertCongestion row) : Query P) ≠ .sql (.selectCongestion slot.toInt64) := nofun
          rcases reply with e | row
          · obtain ⟨rfl,rfl,_⟩ := hget.ret_inv
            obtain ⟨rfl,rfl,_⟩ := h.ret_inv
            simp [told_here,told_nil,told_other (other _).symm,told_other (other _)]
          · cases row with
            | none =>
              obtain ⟨rfl,rfl,_⟩ := hget.ret_inv
              obtain ⟨rfl,rfl,_⟩ := h.ret_inv
              simp [fault,told_here,told_nil,told_other (other _).symm,told_other (other _)]
            | some row =>
              obtain ⟨rfl,rfl,_⟩ := hget.ret_inv
              cases hrow : slotCongestionOf row with
              | error e =>
                rw [hrow] at h
                obtain ⟨rfl,rfl,_⟩ := h.ret_inv
                simp [told_here,told_nil,told_other (other _).symm,told_other (other _),hrow]
              | ok found =>
                rw [hrow] at h
                obtain ⟨rfl,rfl,_⟩ := h.ret_inv
                simp [told_here,told_nil,told_other (other _).symm,told_other (other _),hrow]
        · obtain ⟨rfl,rfl,_⟩ := h.ret_inv
          simp [told_nil,eq_comm]

/-- Recording does not depend on a price that was asked for before. -/
private theorem recorded_cons {price : UInt64} {reply : Except String GasPriceInfo} {u : Nat} {w₁ w₂ : World P}
    {c : SlotCongestion P} :
    Recorded config slot price (⟨.plain .gasPrice, reply, t, u, w₁, w₂⟩ :: es) c ↔
      Recorded config slot price es c := by
  unfold Recorded
  simp only [told_other (price_ne _).symm]

theorem totalled_ok {price gas : UInt64} {c : SlotCongestion P} :
    (∃ calculation, FeePricing.totalled slot price gas c = .ok calculation) ↔
      (checkedMul c.currentTxPrice gas).isSome = true := by
  unfold FeePricing.totalled
  split
  · rename_i h
    simp [fault,h]
  · rename_i h
    simp [h]

theorem fee_run {payload : Bytes} {r : Except Fault (FeePricing.FeeCalculation P)}
    (h : Run M between (FeePricing.calculateFeeForCommitment config 1 payload slot) w t es r w' t') :
    (∃ calculation, r = .ok calculation) ↔ FeeKnown config payload slot es := by
  obtain ⟨es₁,found,w₁,t₁,es₂,rfl,hprice,h⟩ := h.bind_inv
  obtain ⟨w₂,u,reply,w₃,rest,rfl,_,_,_,_,hprice⟩ := run_ask hprice
  obtain ⟨rfl,rfl,_⟩ := hprice.ret_inv
  unfold FeeKnown
  rcases reply with e | info
  · obtain ⟨rfl,rfl,_⟩ := h.ret_inv
    simp [told_here,told_nil]
  · dsimp only [Except.mapError] at h
    split at h
    · rename_i e he
      obtain ⟨rfl,rfl,_⟩ := h.ret_inv
      simp [fault,he]
    · rename_i gas hgas
      obtain ⟨es₁,found,w₁,t₁,es₃,rfl,hget,h⟩ := h.bind_inv
      have record := getOrCreate_run hget
      have silent : (getOrCreateSlotCongestion (P := P) slot info.gasPriceAsU64Clamped
          config.reth.feeConfig.defaultGasLimit config.beaconApi.genesisTime).Obeys
            (fun op : Op P => op.query ≠ .gasPrice) (fun _ => True) :=
        getOrCreate_obeys (fun _ _ => nofun) nofun
      have quiet : ∀ r, ¬ Told es₁ .gasPrice r := fun r => told_never (hget.obeys silent).1
      rcases found with e | congestion
      · obtain ⟨rfl,rfl,_⟩ := h.ret_inv
        simp only [List.append_nil,List.cons_append,List.nil_append,told_here,quiet,or_false,recorded_cons,hgas,
          Except.ok.injEq]
        simp [← record]
      · obtain ⟨rfl,rfl,_⟩ := h.ret_inv
        simp only [List.append_nil,List.cons_append,List.nil_append,told_here,quiet,or_false,recorded_cons,hgas,
          Except.ok.injEq]
        simp [← record,totalled_ok]

private theorem update_readable {change : CongestionRow P → Option (CongestionRow P)}
    {reply : Except DbError (Option (CongestionRow P))} {u : Nat} {w₁ w₂ : World P} :
    UpdateReadable slot [⟨.plain (.sql (.updateCongestion slot.toInt64 change)), reply, t, u, w₁, w₂⟩] ↔
      ∀ row, reply = .ok (some row) → ∃ c, slotCongestionOf row = .ok c := by
  constructor
  · intro h row hr
    exact h change row (told_here.mpr (.inl hr))
  · rintro h change' row ⟨_,_,_,_,hm⟩
    cases List.mem_singleton.mp hm
    exact h row rfl

private theorem slotCongestionOf_panics {row : CongestionRow P} {e : Fault}
    (h : slotCongestionOf row = .error e) : ∃ message, e = .panic message := by
  unfold slotCongestionOf unixEpochPlus at h
  split at h
  · cases h
  · cases h
    exact ⟨_,rfl⟩

/-- The update breaks the call off only where the locked row cannot be read. -/
theorem apply_run {gas : UInt64} {r : Except Fault (SlotCongestion P)}
    (h : Run M between (FeePricing.applyGasUsageToSlot config slot gas) w t es r w' t') :
    (∃ message, r = .error (.panic message)) ↔ ¬ UpdateReadable slot es := by
  obtain ⟨w₂,u,reply,w₃,rest,rfl,_,_,_,_,h⟩ := run_ask h
  rcases reply with e | row
  · obtain ⟨rfl,rfl,_⟩ := h.ret_inv
    simp [fault,update_readable]
  · cases row with
    | none =>
      obtain ⟨rfl,rfl,_⟩ := h.ret_inv
      simp [fault,update_readable]
    | some row =>
      obtain ⟨rfl,rfl,_⟩ := h.ret_inv
      cases hrow : slotCongestionOf row with
      | error e =>
        obtain ⟨message,rfl⟩ := slotCongestionOf_panics hrow
        simp [update_readable,hrow,Except.map]
      | ok c => simp [update_readable,hrow,Except.map]

private theorem feeKnown_before {payload : Bytes} {es' : Trace P}
    (h : ∀ e ∈ es', ∃ s change, e.op.query = .sql (.updateCongestion s change)) :
    FeeKnown config payload slot (es ++ es') ↔ FeeKnown config payload slot es := by
  have before {q : Query P} (hq : ∀ s change, q ≠ .sql (.updateCongestion s change)) {r : q.Reply} :
      Told (es ++ es') q r ↔ Told es q r := by
    refine told_before fun e he => ?_
    obtain ⟨s,change,hs⟩ := h e he
    rw [hs]
    exact (hq s change).symm
  have price (info : GasPriceInfo) := before (q := .gasPrice) (fun _ _ => nofun) (r := .ok info)
  have created (row : CongestionRow P) (new : Bool) :=
    before (q := .sql (.insertCongestion row)) (fun _ _ => nofun) (r := .ok new)
  have found (row : CongestionRow P) :=
    before (q := .sql (.selectCongestion slot.toInt64)) (fun _ _ => nofun) (r := .ok (some row))
  unfold FeeKnown Recorded
  simp only [price,created,found]

/-- After the insert, the answer is the commitment when the fee is known and the row readable. -/
theorem account_run {request : CommitmentRequest} {sc : SignedCommitment} {r : RpcResult SignedCommitment}
    (one : request.commitmentType = 1) (h : Run M between (accountGas config request slot sc) w t es r w' t') :
    (∃ found, r = .ok found) ↔ FeeKnown config request.payload slot es ∧ UpdateReadable slot es := by
  unfold accountGas at h
  rw [one] at h
  obtain ⟨es₁,fee,w₁,t₁,es₂,rfl,hfee,h⟩ := h.bind_inv
  have known := fee_run hfee
  have quiet : ∀ change : CongestionRow P → Option (CongestionRow P),
      ∀ e ∈ es₁, e.op.query ≠ .sql (.updateCongestion slot.toInt64 change) := by
    intro change
    have silent : (FeePricing.calculateFeeForCommitment config 1 request.payload slot).Obeys
        (fun op : Op P => op.query ≠ .sql (.updateCongestion slot.toInt64 change)) (fun _ => True) :=
      calculateFee_obeys nofun (fun _ _ => nofun) (fun _ => nofun)
    exact (hfee.obeys silent).1
  have readable : UpdateReadable slot (es₁ ++ es₂) ↔ UpdateReadable slot es₂ :=
    forall₂_congr fun change row => by rw [told_append _ (quiet change)]
  rcases fee with e | calculation
  · have unknown : ¬ FeeKnown config request.payload slot es₁ := by
      intro hk
      obtain ⟨_,h⟩ := known.mpr hk
      cases h
    cases e with
    | error chain =>
      obtain ⟨rfl,rfl,_⟩ := h.ret_inv
      simp [unknown]
    | panic message =>
      obtain ⟨rfl,rfl,_⟩ := h.ret_inv
      simp [unknown]
  · obtain ⟨es₂,applied,w₂,t₂,es₃,rfl,happly,h⟩ := h.bind_inv
    have ended : es₃ = [] ∧ ((∃ found, r = .ok found) ↔ ¬ ∃ message, applied = .error (.panic message)) := by
      rcases applied with (_ | _) | _
      all_goals
        obtain ⟨rfl,rfl,_⟩ := h.ret_inv
        simp
    obtain ⟨rfl,ended⟩ := ended
    rw [List.append_nil] at readable ⊢
    have only : (FeePricing.applyGasUsageToSlot config slot calculation.estimatedGas).Obeys
        (fun op : Op P => ∃ s change, op.query = .sql (.updateCongestion s change)) (fun _ => True) :=
      applyGasUsage_obeys (fun s change => ⟨s,change,rfl⟩)
    have updates : ∀ e ∈ es₂, ∃ s change, e.op.query = .sql (.updateCongestion s change) :=
      (happly.obeys only).1
    rw [ended,apply_run happly,not_not,feeKnown_before updates,readable,← known]
    simp

/-- The requests that follow the insert. -/
def Accounting : Query P → Prop
  | .gasPrice | .sql (.insertCongestion _) | .sql (.selectCongestion _) | .sql (.updateCongestion _ _) => True
  | _ => False

private theorem feeKnown_after (config : Config P) (slot : UInt64) (payload : Bytes) (es : Trace P)
    {es' : Trace P} (h : ∀ e ∈ es', ¬ Accounting e.op.query) :
    (FeeKnown config payload slot (es' ++ es) ↔ FeeKnown config payload slot es) ∧
      (UpdateReadable slot (es' ++ es) ↔ UpdateReadable slot es) := by
  have after {q : Query P} (hq : Accounting q) {r : q.Reply} : Told (es' ++ es) q r ↔ Told es q r := by
    refine told_append _ fun e he hs => ?_
    exact h e he (by rwa [hs])
  have price (info : GasPriceInfo) := after (q := .gasPrice) trivial (r := .ok info)
  have created (row : CongestionRow P) (new : Bool) :=
    after (q := .sql (.insertCongestion row)) trivial (r := .ok new)
  have found (row : CongestionRow P) :=
    after (q := .sql (.selectCongestion slot.toInt64)) trivial (r := .ok (some row))
  have updated (change : CongestionRow P → Option (CongestionRow P)) (row : CongestionRow P) :=
    after (q := .sql (.updateCongestion slot.toInt64 change)) trivial (r := .ok (some row))
  unfold FeeKnown Recorded UpdateReadable
  simp only [price,created,found,updated,and_self]

variable {limits : Limits} {relay : ConstraintsApiConfig}

/-- From the insert on: the row is added exactly when the commitment is returned, or
something went wrong after the insert took effect. -/
theorem store_run {request : CommitmentRequest} {sc : SignedCommitment} {r : RpcResult SignedCommitment}
    (signed : Signed config request slot sc)
    (h : Run (world P limits relay) World.Evolves (storeCommitment config request slot sc) w t es r w' t') :
    ((∃ found, r = .ok found) ↔ Adds es) ↔ (Adds es → Settled config request es) := by
  unfold storeCommitment at h
  rw [saveCommitment_one P (by rw [signed.commitment])] at h
  obtain ⟨es₁,saved,w₁,t₁,es₂,rfl,hsave,hrest⟩ := h.bind_inv
  obtain ⟨w₂,u,reply,w₃,rest,rfl,_,_,_,answers,hsave⟩ := run_ask hsave
  obtain ⟨rfl,rfl,rfl,rfl⟩ := hsave.ret_inv
  rcases reply with e | saved
  · obtain ⟨rfl,rfl,_⟩ := hrest.ret_inv
    rw [List.append_nil]
    have lost : ¬ Settled config request
        [⟨.plain (.sql (.insertCommitment (newCommitmentOf P sc 1))), .error e, t, t₁, w₂, w₁⟩] := by
      rintro ⟨⟨new,id,_,_,_,_,hm⟩,_⟩
      cases List.mem_singleton.mp hm
    simp [lost]
  · cases saved with
    | none =>
      obtain ⟨rfl,rfl,_⟩ := hrest.ret_inv
      rw [List.append_nil]
      have absent : ¬ Adds (P := P)
          [⟨.plain (.sql (.insertCommitment (newCommitmentOf P sc 1))), .ok none, t, t₁, w₂, w₁⟩] := by
        rintro ⟨e,he,new,_,hne⟩
        cases List.mem_singleton.mp he
        exact hne (by rw [Answers.insertCommitment_none answers])
      simp [absent]
    | some id =>
      obtain ⟨createdAt,hrows,_⟩ := Answers.insertCommitment answers
      have adds : Adds (P := P)
          ([⟨.plain (.sql (.insertCommitment (newCommitmentOf P sc 1))), .ok (some id), t, t₁, w₂, w₁⟩] ++ es₂) := by
        refine ⟨_,List.mem_cons_self,_,rfl,?_⟩
        rw [hrows]
        simp
      have early : ∀ e ∈ ([⟨.plain (.sql (.insertCommitment (newCommitmentOf P sc 1))), .ok (some id), t, t₁,
          w₂, w₁⟩] : Trace P), ¬ Accounting e.op.query := by
        intro e he
        cases List.mem_singleton.mp he
        exact not_false
      obtain ⟨fee,update⟩ := feeKnown_after config slot request.payload es₂ early
      simp only [adds,iff_true,forall_const]
      rw [account_run signed.commitmentType hrest,← fee,← update]
      constructor
      · intro hk
        exact ⟨⟨_,id,_,_,_,_,List.mem_cons_self⟩,slot,signed.slot_eq,hk⟩
      · rintro ⟨_,slot',hs,hk⟩
        cases signed.slot_eq.symm.trans hs
        exact hk

/-- A call adds its row exactly when it returns its commitment, if and only if an insert
that takes effect is acknowledged and the fee can be worked out afterwards. -/
theorem adds_iff_returns (config : Config P) (request : CommitmentRequest) {r : RpcResult SignedCommitment}
    (h : Run (world P limits relay) World.Evolves (commitmentRequestHandler config (some request)) w t es r w' t') :
    ((∃ sc, r = .ok sc) ↔ Adds es) ↔ (Adds es → Settled config request es) := by
  rw [commitmentRequestHandler_split] at h
  obtain ⟨es₁,authorised,w₁,t₁,es₂,rfl,hauth,h⟩ := h.bind_inv
  have before : (authoriseRequest config request).Obeys
      (fun op : Op P => ¬ Accounting op.query ∧ ∀ new, op.query ≠ .sql (.insertCommitment new))
        (fun r => ∀ slot sc, r = .ok (slot, sc) → Signed config request slot sc) :=
    authoriseRequest_obeys (fun _ => ⟨not_false,fun _ => nofun⟩) (fun _ => ⟨not_false,fun _ => nofun⟩)
      (fun _ _ => ⟨not_false,fun _ => nofun⟩)
  obtain ⟨early,signed⟩ := hauth.obeys before
  have adds : Adds (es₁ ++ es₂) ↔ Adds es₂ := by
    constructor
    · rintro ⟨e,he,new,hq,hne⟩
      rcases List.mem_append.mp he with he | he
      · exact absurd hq ((early e he).2 new)
      · exact ⟨e,he,new,hq,hne⟩
    · rintro ⟨e,he,new,hq,hne⟩
      exact ⟨e,List.mem_append_right _ he,new,hq,hne⟩
  rcases authorised with e | ⟨slot,sc⟩
  · obtain ⟨rfl,rfl,_⟩ := h.ret_inv
    have absent : ¬ Adds (es₁ ++ []) := by
      rw [adds]
      rintro ⟨_,hm,_⟩
      cases hm
    rw [List.append_nil] at absent ⊢
    simp [absent]
  · have settled : Settled config request (es₁ ++ es₂) ↔ Settled config request es₂ := by
      have told (new : NewCommitment) (id : Nat) := told_append es₂ (q := .sql (.insertCommitment new))
        (r := .ok (some id)) (fun e he => (early e he).2 new)
      have fee (s : UInt64) := feeKnown_after config s request.payload es₂ (fun e he => (early e he).1)
      unfold Settled
      simp only [told,(fee _).1,(fee _).2]
    rw [adds,settled]
    exact store_run (signed slot sc rfl) h

end Runs

/-- Every party is up: the beacon client names the second proposer, the gas price is ten, and
the first commitment of the slot opens its record. -/
def up (e : Event (requests (platform offer)) (World (platform offer))) : Bool :=
  match e with
  | ⟨.plain (.sql (.selectDelegations _)), .ok rows, _, _, _, _⟩ => rows = polled offer
  | ⟨.plain (.sql (.insertCommitment new)), .ok _, _, _, _, _⟩ => new.payload = payload 5 7
  | ⟨.plain (.sql (.insertCongestion row)), .ok true, _, _, _, _⟩ =>
    row = (SlotCongestion.new (P := platform offer) 5 10 30000000 60).row
  | ⟨.plain (.sql (.insertCongestion _)), .ok false, _, _, _, _⟩ => false
  | ⟨.plain (.sql (.selectCongestion _)), .ok _, _, _, _, _⟩ => false
  | ⟨.plain (.sql _), .ok _, _, _, _, _⟩ => true
  | ⟨.plain (.proposerForSlot _), .ok duty, _, _, _, _⟩ => duty = some scheduled
  | ⟨.plain .gasPrice, .ok price, _, _, _, _⟩ => price = ⟨10⟩
  | _ => false

/-- A request that can be signed passes every check while the polled delegation is there. -/
theorem authorise_run_of {tx : UInt8} {slasher : String} {sc : SignedCommitment} {w : World (platform offer)}
    (admitted : admitRequest small.config (request 5 tx slasher) = .ok (5, sc.commitment.requestHash))
    (found : findDelegation 5 slasher offer = some (delegation 2 own 5))
    (signs : signRequest small.config (request 5 tx slasher) sc.commitment.requestHash own = .ok sc)
    (fresh : w.commitments.withHash sc.commitment.requestHash = none) (same : w.delegations = stored.delegations)
    (t : Nat) : ∃ es, Run small.machine Eq (authoriseRequest small.config (request 5 tx slasher))
      w t es (.ok (5, sc)) w t ∧ es.all up = true := by
  have rows : (stored.delegations.activeForSlot 5).mapM signedDelegationOf = .ok offer := by decide +kernel
  have verifies : Verifies (platform offer) (delegation 2 own 5) := by decide +kernel
  have signature : checkDelegationSignature small.config 5 slasher (delegation 2 own 5) = .ok () :=
    (checkDelegationSignature_ok small 5 slasher).mpr verifies
  have proposer : checkProposer 5 (delegation 2 own 5) (.ok (some scheduled)) = .ok () := by decide +kernel
  have held : w.delegations.activeForSlot 5 = polled offer := by
    rw [same]
    decide +kernel
  rw [← same] at rows
  refine ⟨_,authoriseRequest_run admitted fresh (List.Perm.refl _) rows found signature proposer signs t,?_⟩
  simp [up,held]

theorem finds_own : findDelegation 5 own offer = some (delegation 2 own 5) := by decide +kernel

/-- The request passes every check at any time. -/
theorem authorise_run (t : Nat) : ∃ es, Run small.machine Eq (authoriseRequest small.config (request 5 7 own))
    stored t es (.ok (5, signed)) stored t ∧ es.all up = true := by
  have admitted : admitRequest small.config (request 5 7 own) = .ok (5, signed.commitment.requestHash) := by
    decide +kernel
  have key : signRequest small.config (request 5 7 own) signed.commitment.requestHash own = .ok signed := by
    decide +kernel
  exact authorise_run_of admitted finds_own key rfl rfl t

/-- After the signature the parties answer at once. -/
theorem store_of_play {t : Nat}
    (run : (small.machine.play [(.row 0 0, t),(.price (.ok ⟨10⟩), t),(.done, t),(.done, t)]
      (storeCommitment small.config (request 5 7 own) 5 signed) stored t).any (fun out =>
        out.2.1 = .ok signed && out.2.2.1.commitments.rows = served.commitments.rows &&
          out.2.2.1.delegations.rows = served.delegations.rows &&
            out.2.2.1.congestion.rows = served.congestion.rows && out.2.2.1.accepted = [] &&
              out.2.2.2 = t && out.1.all up) = true) :
    ∃ es, Run small.machine Eq (storeCommitment small.config (request 5 7 own) 5 signed)
      stored t es (.ok signed) served t ∧ es.all up = true := by
  obtain ⟨⟨es,r,w,u⟩,hplay,hp⟩ := (Option.any_eq_true _ _).mp run
  simp only [Bool.and_eq_true,decide_eq_true_eq] at hp
  obtain ⟨⟨⟨⟨⟨⟨rfl,commitments⟩,delegations⟩,congestion⟩,accepted⟩,rfl⟩,all⟩ := hp
  have hw : w = served := World.ext (Commitments.ext commitments) (Delegations.ext delegations)
    (Congestion.ext congestion) accepted
  subst hw
  exact ⟨es,Machine.play_run _ hplay,all⟩

theorem serve_of_store {t : Nat} {es : Trace (platform offer)}
    (stores : Run small.machine Eq (storeCommitment small.config (request 5 7 own) 5 signed)
      stored t es (.ok signed) served t) :
    ∃ first, Run small.machine Eq (commitmentRequestHandler small.config (some (request 5 7 own)))
      stored t (first ++ es) (.ok signed) served t ∧ first.all up = true := by
  obtain ⟨first,authorised,all⟩ := authorise_run t
  rw [commitmentRequestHandler_split]
  exact ⟨first,authorised.bind stores,all⟩

theorem store_signed : ∃ es, Run small.machine Eq (storeCommitment small.config (request 5 7 own) 5 signed)
    stored 61000 es (.ok signed) served 61000 ∧ es.all up = true := store_of_play (by decide +kernel)

/-- The request is served to the end. -/
theorem serve_run : ∃ es, Run small.machine Eq (commitmentRequestHandler small.config (some (request 5 7 own)))
    stored 61000 es (.ok signed) served 61000 ∧ es.all up = true := by
  obtain ⟨es,stores,last⟩ := store_signed
  obtain ⟨first,serves,all⟩ := serve_of_store stores
  refine ⟨first ++ es,serves,?_⟩
  rw [List.all_append,all,last]
  rfl

/-- The request of a served call, with its row and its answer. -/
theorem adds_iff_returns_served : ∃ es, Run small.machine World.Evolves
    (commitmentRequestHandler small.config (some (request 5 7 own))) stored 61000 es (.ok signed) served 61000 ∧
      (((∃ sc, (.ok signed : RpcResult SignedCommitment) = .ok sc) ↔ Adds es) ↔
        (Adds es → Settled small.config (request 5 7 own) es)) := by
  obtain ⟨es,hrun,_⟩ := serve_run
  have evolving := run_evolving hrun
  exact ⟨es,evolving,adds_iff_returns small.config (request 5 7 own) evolving⟩

/-- Without a gas price the call fails and its row stays. -/
theorem unpriced_call_adds : ∃ es w' t', Run small.machine World.Evolves
    (commitmentRequestHandler small.config (some (request 5 7 own))) stored 61000 es (.error .internalError) w' t' ∧
      Adds es := by
  have run : (small.machine.play [(.row 0 0, 61000),(.price (.error "connection refused"), 61000)]
      (storeCommitment small.config (request 5 7 own) 5 signed) stored 61000).any (fun out =>
        out.2.1 = .error .internalError && out.1.any (fun e => e.post.commitments.rows ≠ e.pre.commitments.rows &&
          match e.op.query with
          | .sql (.insertCommitment _) => true
          | _ => false)) = true := by
    decide +kernel
  obtain ⟨⟨es,r,w,t⟩,hplay,hp⟩ := (Option.any_eq_true _ _).mp run
  simp only [Bool.and_eq_true,decide_eq_true_eq,List.any_eq_true] at hp
  obtain ⟨rfl,e,he,changed,hq⟩ := hp
  obtain ⟨first,authorised,_⟩ := authorise_run 61000
  rw [commitmentRequestHandler_split]
  refine ⟨first ++ es,w,t,run_evolving (authorised.bind (Machine.play_run _ hplay)),e,
    List.mem_append_right _ he,?_⟩
  split at hq
  · rename_i new hnew
    exact ⟨new,hnew,changed⟩
  · cases hq

end PreconfGateway.Properties.Atomicity
