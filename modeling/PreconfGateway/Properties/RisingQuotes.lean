import PreconfGateway.Properties.FeeQuotes

/-! Records fill up and never empty, so in exact arithmetic a fee that is asked for once another has been
answered, for the same slot and no less gas, is in no part lower. -/
namespace PreconfGateway.Properties.RisingQuotes
open Encoding Types Db Interleaving Rpc Services Fixture Arithmetic Extended QuotedPrice FeeConsistency FeeQuotes
variable {P : Platform}

/-- The later row of a slot: what it was opened with stays, and gas is only added. -/
structure Fuller (r r' : CongestionRow P) : Prop where
  slot : r'.slot = r.slot
  base : r'.baseGasPrice = r.baseGasPrice
  limit : r'.totalGasLimit = r.totalGasLimit
  gas : r.preconfirmedGas.toUInt64 ≤ r'.preconfirmedGas.toUInt64

theorem Fuller.refl (r : CongestionRow P) : Fuller r r := ⟨rfl,rfl,rfl,UInt64.le_refl _⟩

theorem Fuller.trans {r r' r'' : CongestionRow P} (h : Fuller r r') (k : Fuller r' r'') : Fuller r r'' :=
  ⟨k.slot.trans h.slot,k.base.trans h.base,k.limit.trans h.limit,UInt64.le_trans h.gas k.gas⟩

def Fills (a b : World P) : Prop := ∀ r ∈ a.congestion.rows, ∃ r' ∈ b.congestion.rows, Fuller r r'

theorem Fills.refl (a : World P) : Fills a a := fun r hr => ⟨r,hr,.refl r⟩

theorem Fills.trans {a b c : World P} (h : Fills a b) (k : Fills b c) : Fills a c := by
  intro r hr
  obtain ⟨r',hr',more⟩ := h r hr
  obtain ⟨r'',hr'',more'⟩ := k r' hr'
  exact ⟨r'',hr'',more.trans more'⟩

section Steps
variable {g : Gateway P} {w w' w₀ : World P} {s s' : State (requests P) (World P) Entry Ending}

/-- An update adds gas to the row that it has found. -/
def Adds (k : P.float.F64) (q : Query P) : Prop :=
  ∀ slot change, q = .sql (.updateCongestion slot change) → ∃ gas, change = addition k gas

theorem fuller_addition {k : P.float.F64} {gas : UInt64} {row new : CongestionRow P} (h : addition k gas row = some new) :
    Fuller row (new.written row) := by
  obtain ⟨c,read,rfl⟩ := addition_some h
  rw [written_addition read]
  obtain ⟨rfl,_⟩ := slotCongestionOf_ok read
  refine ⟨?_,?_,?_,?_⟩
  · exact congrArg UInt64.toInt64 (c.addGasUsage_slot gas k)
  · exact congrArg UInt64.toInt64 (c.addGasUsage_base gas k)
  · exact congrArg UInt64.toInt64 (c.addGasUsage_limit gas k)
  · have sum : (c.addGasUsage gas k).row.preconfirmedGas = (saturatingAdd c.preconfirmedGas gas).toInt64 :=
      congrArg UInt64.toInt64 (c.addGasUsage_gas gas k)
    have old : c.row.preconfirmedGas = c.preconfirmedGas.toInt64 := rfl
    rw [sum,old,UInt64.toUInt64_toInt64,UInt64.toUInt64_toInt64,UInt64.le_iff_toNat_le,saturatingAdd_toNat]
    have := c.preconfirmedGas.toNat_lt
    omega

theorem fills_of_changes {k : P.float.F64} {q : Query P} (changes : Changes w q w') (adds : Adds k q) : Fills w w' := by
  cases changes with
  | recorded row =>
    intro r hr
    refine ⟨r,?_,.refl r⟩
    change r ∈ (w.congestion.insert row).2.rows
    unfold Congestion.insert
    split
    · exact hr
    · exact List.mem_append_left _ hr
  | counted slot change new found =>
    obtain ⟨gas,rfl⟩ := adds slot change rfl
    obtain ⟨row,held,made⟩ := Option.bind_eq_some_iff.mp found
    intro r hr
    refine ⟨new.written r,List.mem_map_of_mem hr,?_⟩
    by_cases same : r.slot = new.slot
    · -- the slot has one row, and the update was made from it
      obtain ⟨c,read,rfl⟩ := addition_some made
      obtain ⟨rfl,_⟩ := slotCongestionOf_ok read
      have slot_eq : (c.addGasUsage gas k).row.slot = c.row.slot := congrArg UInt64.toInt64 (c.addGasUsage_slot gas k)
      rw [Congestion.slot_injective hr (List.mem_of_find?_eq_some held) (same.trans slot_eq)]
      exact fuller_addition made
    · rw [CongestionRow.written,if_neg same]
      exact .refl r
  | same | inserted | marked | stored | switchedOff | taken => exact .refl _

theorem code_adds (entry : Entry) :
    (g.server.code entry).Obeys (fun op : Op P => Adds g.config.reth.feeConfig.scalingFactor op.query) (fun _ => True) := by
  cases entry with
  | inr k =>
    refine (g.server_obeys (.inr k)).mono (fun op asks => ?_) fun _ h => h
    rintro slot change same
    rw [same] at asks
    rcases asks with _ | ⟨asks⟩
    cases asks
  | inl j =>
    cases j with
    | commitmentRequest params =>
      have handler : (commitmentRequestHandler g.config params).Obeys
          (fun op : Op P => Adds g.config.reth.feeConfig.scalingFactor op.query) (fun _ => True) := by
        refine requestHandler_obeys (fun _ => nofun) (fun _ _ _ => nofun) nofun (fun _ _ => nofun) (fun _ => nofun) ?_
          (fun _ => nofun) fun _ _ _ _ => nofun
        rintro slot gas _ change ⟨⟩
        exact ⟨gas,rfl⟩
      have job : (g.code (.commitmentRequest params)).Obeys
          (fun op : Op P => Adds g.config.reth.feeConfig.scalingFactor op.query) (fun _ => True) :=
        handler.bind fun _ _ => trivial
      exact job.bind fun _ _ => trivial
    | _ =>
      refine (g.server_obeys _).mono (fun op asks => ?_) fun _ h => h
      rintro slot change same
      rw [same] at asks
      rcases asks with ⟨asks⟩ | _
      cases asks

theorem event_fills (hr : Reachable g.server w₀ s) {id : Nat} {entry : Entry} {e : Event (requests P) (World P)}
    (saw : s.Saw id entry e) : Fills e.pre e.post := by
  obtain ⟨adds,answers⟩ := hr.obeys code_adds saw
  exact fills_of_changes (Changes.of_answers answers) adds

end Steps

section Prices
variable {limit base : UInt64} {k low high x y : ℝ}

theorem factor_mono (nonneg : 0 ≤ x) (le : x ≤ y) : factor limit k x ≤ factor limit k y := by
  have fuller : Full limit k x → Full limit k y := by
    rintro (none | all | flat)
    · exact .inl none
    · exact .inr (.inl (all.trans le))
    · exact .inr (.inr flat)
  refine (reaches_iff (nonneg.trans le)).mp ?_
  have reached : Reaches limit k x (factor limit k x) := (reaches_iff nonneg).mpr (le_refl _)
  rcases reached with one | ⟨hundred,full | ⟨hk,below⟩⟩
  · exact .inl one
  · exact .inr ⟨hundred,.inl (fuller full)⟩
  · refine .inr ⟨hundred,.inr ⟨hk,?_⟩⟩
    have power : x ^ k ≤ y ^ k := Real.rpow_le_rpow nonneg le hk.le
    have one : 1 ≤ factor limit k x := (factor_bounds nonneg).1
    nlinarith

theorem charged_mono (le : x ≤ y) : charged base x ≤ charged base y := by
  have scaled : (0 : ℝ) ⊔ base.toNat * x ≤ 0 ⊔ base.toNat * y :=
    sup_le_sup_left (mul_le_mul_of_nonneg_left le (Nat.cast_nonneg _)) 0
  have whole := Int.ceil_mono scaled
  have first := charged_int base x
  have second := charged_int base y
  rw [UInt64.le_iff_toNat_le]
  omega

theorem toU64_mono (le : x ≤ y) : toU64 (finite x) ≤ toU64 (finite y) := by
  have whole := Int.floor_mono le
  unfold toU64
  dsimp only
  rw [UInt64.le_iff_toNat_le,UInt64.toNat_ofNat',UInt64.toNat_ofNat']
  have low : Nat.min ⌊x⌋.toNat (2 ^ 64 - 1) ≤ Nat.min ⌊y⌋.toNat (2 ^ 64 - 1) :=
    min_le_min_right (2 ^ 64 - 1) (Int.toNat_le_toNat whole)
  have high : Nat.min ⌊y⌋.toNat (2 ^ 64 - 1) ≤ 2 ^ 64 - 1 := Nat.min_le_right _ _
  omega

private theorem held (x : ℝ) : SlotCongestion.clamp exact (finite x) (exact.literal 0) (exact.literal 1) = finite (0 ⊔ (1 ⊓ x)) := by
  change (if decide (x < ((0 : ℕ) : ℝ)) = true then finite ((0 : ℕ) : ℝ)
    else if decide (((1 : ℕ) : ℝ) < x) = true then finite ((1 : ℕ) : ℝ) else finite x) = _
  simp only [decide_eq_true_eq,Nat.cast_zero,Nat.cast_one]
  rcases lt_or_ge x 0 with low | low
  · rw [if_pos low,inf_eq_right.mpr (low.le.trans zero_le_one),sup_eq_left.mpr low.le]
  · rw [if_neg (not_lt.mpr low)]
    rcases lt_or_ge 1 x with high | high
    · rw [if_pos high,inf_eq_left.mpr high.le,sup_eq_right.mpr zero_le_one]
    · rw [if_neg (not_lt.mpr high),inf_eq_right.mpr high,sup_eq_right.mpr low]

theorem partsPerMillion_mono (le : x ≤ y) : partsPerMillion exact (finite x) ≤ partsPerMillion exact (finite y) := by
  unfold partsPerMillion
  rw [held,held]
  apply toU64_mono
  exact mul_le_mul_of_nonneg_right (sup_le_sup_left (inf_le_inf_left 1 le) 0) (Nat.cast_nonneg _)

end Prices

section Quotes
variable {config : Config (exactly P)} {k low high : ℝ}

/-- More gas on top of a fuller record: no word of the answer is smaller. -/
theorem says_mono (scaling : config.reth.feeConfig.scalingFactor = finite k) (lowest : config.reth.feeConfig.minFeeMultiplier = finite low)
    (highest : config.reth.feeConfig.maxFeeMultiplier = finite high) {c c' : SlotCongestion (exactly P)} {gas gas' : UInt64}
    {b b' : Bytes} (more : Fuller c.row c'.row) (gases : gas ≤ gas') (first : Says config c gas b) (second : Says config c' gas' b') :
    List.Forall₂ (· ≤ ·) (feeWords b) (feeWords b') := by
  have base : c'.baseGasPrice = c.baseGasPrice := toInt64_injective more.base
  have limit : c'.totalGasLimit = c.totalGasLimit := toInt64_injective more.limit
  have recorded_gas : c.preconfirmedGas ≤ c'.preconfirmedGas := by
    have columns := more.gas
    change c.preconfirmedGas.toInt64.toUInt64 ≤ c'.preconfirmedGas.toInt64.toUInt64 at columns
    rwa [UInt64.toUInt64_toInt64,UInt64.toUInt64_toInt64] at columns
  have loads : load c gas ≤ load c' gas' := by
    have sums : (saturatingAdd c.preconfirmedGas gas).toNat ≤ (saturatingAdd c'.preconfirmedGas gas').toNat := by
      rw [saturatingAdd_toNat,saturatingAdd_toNat]
      have := UInt64.le_iff_toNat_le.mp recorded_gas
      have := UInt64.le_iff_toNat_le.mp gases
      omega
    rw [load,load,limit]
    exact div_le_div_of_nonneg_right (Nat.cast_le.mpr sums) (Nat.cast_nonneg _)
  have price : (FeePricing.calculateProjectedCongestion config c gas).currentTxPrice.toNat ≤
      (FeePricing.calculateProjectedCongestion config c' gas').currentTxPrice.toNat := by
    rw [(quoted c gas k scaling lowest highest).2,(quoted c' gas' k scaling lowest highest).2,base,limit]
    have factors : factor c.totalGasLimit k (load c gas) ≤ factor c.totalGasLimit k (load c' gas') :=
      factor_mono (load_nonneg c gas) loads
    exact UInt64.le_iff_toNat_le.mp (charged_mono (inf_le_inf_right high (sup_le_sup_right factors low)))
  have ratio (c : SlotCongestion (exactly P)) (gas : UInt64) :
      (FeePricing.calculateProjectedCongestion config c gas).gasUsedRatio = finite (load c gas) := by
    change (c.addGasUsage gas config.reth.feeConfig.scalingFactor).gasUsedRatio = _
    rw [scaling,recorded_ratio]
  have gases := UInt64.le_iff_toNat_le.mp gases
  unfold Says at first second
  dsimp only at first second
  rw [first,second,ratio,ratio]
  refine .cons (Nat.mul_le_mul price gases) (.cons price (.cons gases (.cons ?_ .nil)))
  exact UInt64.le_iff_toNat_le.mp (partsPerMillion_mono loads)

/-- The fee call has been answered with this fee. -/
def Charged (s : State (requests P) (World P) Entry Ending) (id : Nat) (request : CommitmentRequest) (info : FeeInfo) : Prop :=
  ∃ task, s.tasks id = some task ∧ task.job = .inr (.fee (some request)) ∧ task.program = .ret (.inr (.fee (.ok info)))

/-- The row that a fee was quoted from was in the table at some time of the call. -/
theorem charged_row {g : Gateway P} {w₀ : World P} {s : State (requests P) (World P) Entry Ending} (hr : Reachable g.server w₀ s)
    {id : Nat} {request : CommitmentRequest} {info : FeeInfo} (h : Charged s id request info) :
    ∃ slot row e, Quote g.config request slot row info ∧ s.Saw id (.inr (.fee (some request))) e ∧ row ∈ e.post.congestion.rows := by
  obtain ⟨task,ht,job,answered⟩ := h
  obtain ⟨w,_,found⟩ := (((quotes_verified g).sound (by rintro (j | k) <;> exact trivial) hr).tasks id task ht).finished _ answered
  rw [job] at found
  obtain ⟨_,slot,row,_,⟨⟩,quote,_,_,had⟩ := found _ info rfl rfl
  obtain ⟨e,saw,_,there⟩ := had_row (fun e he => ⟨task,ht,job,he⟩) had
  exact ⟨slot,row,e,quote,saw,there _ _ (server_event hr saw).2.1⟩

/-- In exact arithmetic, for any scaling factor and any bounds: a fee that is asked for after another has been answered, for
the same slot and for as much gas or more, has no lower cost, price, gas or congestion. -/
theorem later_fee_no_lower (g : Gateway (exactly P)) (scaling : g.config.reth.feeConfig.scalingFactor = finite k)
    (lowest : g.config.reth.feeConfig.minFeeMultiplier = finite low) (highest : g.config.reth.feeConfig.maxFeeMultiplier = finite high)
    {w₀ : World (exactly P)} {s s' : State (requests (exactly P)) (World (exactly P)) Entry Ending}
    (hr : Reachable g.server w₀ s) (steps : Relation.ReflTransGen (Step g.server) s s') {i j : Nat}
    {request request' : CommitmentRequest} {info info' : FeeInfo} (first : Charged s i request info) (fresh : s.tasks j = none)
    (second : Charged s' j request' info')
    (slots : PayloadParser.extractSlot (exactly P) 1 request'.payload = PayloadParser.extractSlot (exactly P) 1 request.payload)
    (gases : ∀ gas gas', FeePricing.estimateGasForCommitment (exactly P) 1 request.payload = .ok gas →
      FeePricing.estimateGasForCommitment (exactly P) 1 request'.payload = .ok gas' → gas ≤ gas') :
    List.Forall₂ (· ≤ ·) (feeWords info.payload) (feeWords info'.payload) := by
  have hr' := hr.steps steps
  obtain ⟨slot,row,e,quote,saw,there⟩ := charged_row hr first
  obtain ⟨slot',row',e',quote',saw',there'⟩ := charged_row hr' second
  have new : ¬ s.Saw j (.inr (.fee (some request'))) e' := by
    rintro ⟨task,ht,_⟩
    cases fresh.symm.trans ht
  have event {u : State (requests (exactly P)) (World (exactly P)) Entry Ending} (hu : Reachable g.server w₀ u)
      {id : Nat} {entry : Entry} {e : Event (requests (exactly P)) (World (exactly P))} (h : u.Saw id entry e) :
      Fills e.pre e.post := event_fills hu h
  have fills : Fills e.post e'.post :=
    ((hr.since Fills.refl Fills.trans event saw).trans (hr.later steps Fills.refl Fills.trans event saw' new)).trans (event hr' saw')
  obtain ⟨r,hr₁,more⟩ := fills row there
  have same : slot' = slot := Except.ok.inj (quote'.named.symm.trans (slots.trans quote.named))
  have one : r = row' := by
    refine Congestion.slot_injective hr₁ there' ?_
    rw [more.slot,quote.recorded,quote'.recorded,same]
  obtain ⟨c,gas,read,estimate,quoted⟩ := quote.priced
  obtain ⟨c',gas',read',estimate',quoted'⟩ := quote'.priced
  rw [one,← (slotCongestionOf_ok read).1,← (slotCongestionOf_ok read').1] at more
  exact says_mono scaling lowest highest more (gases gas gas' estimate estimate') quoted quoted'

end Quotes

/-- A gateway that reckons exactly, with a highest multiplier. -/
noncomputable def exactGateway (high : ℝ) : Gateway (exactly (platform [])) := ⟨bounded 1 high, ⟨1000, 1000, 1000, 1000⟩, manager, small.started⟩

private theorem named : PayloadParser.extractSlot (exactly (platform [])) 1 (request 5 7 own).payload = .ok 5 := by rfl

private theorem estimated : FeePricing.estimateGasForCommitment (exactly (platform [])) 1 (request 5 7 own).payload = .ok 31016 := by rfl

section Later
variable {c : SlotCongestion (exactly (platform []))} {w : World (exactly (platform []))}

private theorem cheap (base : c.baseGasPrice = 100) :
    (FeePricing.calculateProjectedCongestion (bounded 1 100) c 31016).currentTxPrice.toNat * 31016 < 2 ^ 64 := by
  have charge : (FeePricing.calculateProjectedCongestion (bounded 1 100) c 31016).currentTxPrice =
      charged c.baseGasPrice (quote c 31016 2 1 100) := (@quoted _ c 31016 2 (bounded 1 100) 1 100 rfl rfl rfl).2
  have hundred : ((c.baseGasPrice.toNat : ℕ) : ℝ) = 100 := by
    have same : c.baseGasPrice.toNat = 100 := congrArg UInt64.toNat base
    rw [same,Nat.cast_ofNat]
  have high : quote c 31016 2 1 100 ≤ 100 := inf_le_right
  have limited : ((charged c.baseGasPrice (quote c 31016 2 1 100)).toNat : ℤ) ≤ 10000 := by
    rw [charged_int,min_le_iff]
    right
    rw [Int.ceil_le,hundred]
    push_cast
    exact sup_le (by norm_num) (by linarith)
  rw [charge]
  omega

/-- A calculation for the slot that has its record already. -/
theorem calculation_run (base : c.baseGasPrice = 100) (reads : slotCongestionOf c.row = .ok c)
    (held : w.congestion.forSlot (5 : UInt64).toInt64 = some c.row) : ∃ es f, f.estimatedGas = 31016 ∧
      Run (exactGateway 100).machine Eq (FeePricing.calculateFeeForCommitment (bounded 1 100) 1 (request 5 7 own).payload 5) w 0 es
        (.ok f) w 0 := by
  obtain ⟨es,get,_⟩ := @existing_run _ ⟨1000, 1000, 1000, 1000⟩ ⟨5, 2, []⟩ w 0 5
    (GasPriceInfo.gasPriceAsU64Clamped ⟨100⟩) 30000000 0 _ _ (by decide) rfl held reads
  have made : ∃ f, FeePricing.totalled 5 (GasPriceInfo.gasPriceAsU64Clamped ⟨100⟩) 31016
      (FeePricing.calculateProjectedCongestion (bounded 1 100) c 31016) = .ok f := by
    have fits : checkedMul (FeePricing.calculateProjectedCongestion (bounded 1 100) c 31016).currentTxPrice 31016 =
      some _ := if_pos (cheap base)
    unfold FeePricing.totalled
    rw [fits]
    exact ⟨_,rfl⟩
  obtain ⟨f,made⟩ := made
  refine ⟨⟨.plain .gasPrice, .ok ⟨100⟩, 0, 0, w, w⟩ :: (es ++ []),f,(totalled_inv made).2.1,?_⟩
  refine ask_step ⟨.price (.ok ⟨100⟩),rfl⟩ ?_
  simp only [Except.mapError,estimated]
  refine get.bind ?_
  rw [← made]
  exact .ret _ _ _

theorem charge_run (base : c.baseGasPrice = 100) (reads : slotCongestionOf c.row = .ok c)
    (held : w.congestion.forSlot (5 : UInt64).toInt64 = some c.row) : ∃ es info, Run (exactGateway 100).machine Eq
      ((exactGateway 100).server.code (.inr (.fee (some (request 5 7 own))))) w 0 es (.inr (.fee (.ok info))) w 0 := by
  obtain ⟨es,f,_,fee⟩ := calculation_run base reads held
  have quoted : Run (exactGateway 100).machine Eq (quoteFee (bounded 1 100) (request 5 7 own) 5) w 0 _
      (.ok ⟨feePayload f, 1⟩) w 0 := fee.bind (.ret _ _ _)
  have clock : (exactGateway 100).machine.Answers 0 w (.plain .now) 0 w := ⟨.done,rfl⟩
  have handled : ∃ es, Run (exactGateway 100).machine Eq (feeHandler (bounded 1 100) (some (request 5 7 own))) w 0 es
      (.ok ⟨feePayload f, 1⟩) w 0 := by
    have slot : validateAndExtractSlot (exactly (platform [])) (request 5 7 own).commitmentType (request 5 7 own).payload = .ok 5 :=
      mapError_ok.mpr named
    unfold feeHandler
    dsimp only
    rw [if_neg (by decide),slot]
    exact ⟨_,ask_step clock quoted⟩
  obtain ⟨_,handled⟩ := handled
  have answered : Run (exactGateway 100).machine Eq ((exactGateway 100).further (.fee (some (request 5 7 own)))) w 0 _
      (.fee (.ok ⟨feePayload f, 1⟩)) w 0 := handled.bind (.ret _ _ _)
  exact ⟨_,_,answered.bind (.ret _ _ _)⟩

end Later

/-- The record of the slot, and a delegation for it. -/
noncomputable def ready : World (exactly (platform [])) := { holding with delegations := stored.delegations }

private theorem unused_reads : slotCongestionOf unused.row = .ok unused := slotCongestionOf_row (by decide)

noncomputable def saved (table : Commitments) : World (exactly (platform [])) := { ready with commitments := table }

private theorem row_inserted : ∃ table, (exactGateway 100).machine.Answers 0 ready
    (.plain (.sql (.insertCommitment (newCommitmentOf (exactly (platform [])) signed 1)))) (.ok (some 0)) (saved table) := by
  have row : (Commitments.empty.insert ((newCommitmentOf (exactly (platform [])) signed 1).row 0 0)).any
      (fun out => out.1 = some 0) = true := by decide +kernel
  obtain ⟨⟨id,table⟩,made,same⟩ := (Option.any_eq_true _ _).mp row
  obtain rfl : id = some 0 := of_decide_eq_true same
  have none : ready.commitments = .empty := rfl
  refine ⟨table,.row 0 0,?_⟩
  simp only [exactGateway,Gateway.machine,world,Op.respond,Query.respond,Statement.execute,none,made,Option.map_some,saved]

/-- A commitment for the slot adds its gas to the record. -/
theorem commitment_run : ∃ es w, Run (exactGateway 100).machine Eq
    ((exactGateway 100).server.code (.inl (.commitmentRequest (some (request 5 7 own))))) ready 0 es
      (.inl (.commitment (.ok signed))) w 0 ∧
        w.congestion.forSlot (5 : UInt64).toInt64 = some (unused.addGasUsage 31016 (finite 2)).row := by
  have admitted : admitRequest (bounded 1 100) (request 5 7 own) = .ok (5, signed.commitment.requestHash) := by
    decide +kernel
  have read : (stored.delegations.activeForSlot 5).mapM signedDelegationOf = .ok offer := by decide +kernel
  have found : findDelegation 5 own offer = some (delegation 2 own 5) := by decide +kernel
  have verifies : checkDelegationSignature (bounded 1 100) 5 own (delegation 2 own 5) = .ok () := by decide +kernel
  have proposer : checkProposer 5 (delegation 2 own 5) (.ok (some scheduled)) = .ok () := by decide +kernel
  have signs : signRequest (bounded 1 100) (request 5 7 own) signed.commitment.requestHash own = .ok signed := by
    decide +kernel
  have authorised := @authoriseRequest_run (exactly (platform [])) (bounded 1 100) (request 5 7 own) 5 _ _ _ _ _ _ ready
    ⟨1000, 1000, 1000, 1000⟩ ⟨5, 2, []⟩ admitted rfl (List.Perm.refl _) read found verifies proposer signs 0
  obtain ⟨table,inserted⟩ := row_inserted
  have held : (saved table).congestion.forSlot (5 : UInt64).toInt64 = some unused.row := rfl
  obtain ⟨_,f,gas,calculated⟩ := @calculation_run unused (saved table) rfl unused_reads held
  obtain ⟨_,w,_,_,update,_⟩ := @apply_run _ ⟨1000, 1000, 1000, 1000⟩ ⟨5, 2, []⟩ _ 0 _ _ _ (bounded 1 100) 31016 held unused_reads
  have applies := update
  rw [← gas] at applies
  have accounts : Run (exactGateway 100).machine Eq (accountGas (bounded 1 100) (request 5 7 own) 5 signed) (saved table) 0 _
      (.ok signed) w 0 := calculated.bind (applies.bind (.ret _ _ _))
  obtain ⟨_,stores⟩ : ∃ es, Run (exactGateway 100).machine Eq (storeCommitment (bounded 1 100) (request 5 7 own) 5 signed)
      ready 0 es (.ok signed) w 0 := by
    unfold storeCommitment
    rw [saveCommitment_one _ rfl]
    exact ⟨_,ask_step inserted accounts⟩
  obtain ⟨_,serves⟩ : ∃ es, Run (exactGateway 100).machine Eq
      (commitmentRequestHandler (bounded 1 100) (some (request 5 7 own))) ready 0 es (.ok signed) w 0 := by
    rw [commitmentRequestHandler_split]
    exact ⟨_,authorised.bind stores⟩
  have coded : Run (exactGateway 100).machine Eq ((exactGateway 100).code (.commitmentRequest (some (request 5 7 own)))) ready 0 _
      (.commitment (.ok signed)) w 0 := serves.bind (.ret _ _ _)
  exact ⟨_,w,coded.bind (.ret _ _ _),(applied held unused_reads update).2⟩

/-- A commitment for the slot is served between two fees. -/
theorem later_fee_no_lower_filled : ∃ s s' info info', Reachable (exactGateway 100).server ready s ∧
    Relation.ReflTransGen (Step (exactGateway 100).server) s s' ∧
      (∃ row, s'.world.congestion.forSlot (5 : UInt64).toInt64 = some row ∧ row.preconfirmedGas = 31016) ∧
        Charged s 0 (request 5 7 own) info ∧ Charged s' 2 (request 5 7 own) info' ∧
          List.Forall₂ (· ≤ ·) (feeWords info.payload) (feeWords info'.payload) := by
  have start : Reachable (exactGateway 100).server ready (.initial ready 0) := .initial 0
  obtain ⟨_,info,run⟩ := @charge_run unused ready rfl unused_reads rfl
  obtain ⟨s,hr,idle,world,clock,done,others⟩ := @Reachable.run _ _ _ _ _ _ _ start (fun _ _ h => by cases h) 0
    (.inr (.fee (some (request 5 7 own)))) rfl trivial _ _ _ _ run (fun _ _ _ => trivial)
  have first : Charged s 0 (request 5 7 own) info := ⟨_,done,rfl,rfl⟩
  obtain ⟨_,w,serves,held⟩ := commitment_run
  rw [← world,← clock] at serves
  obtain ⟨s₁,steps,idle',world',clock',_,others'⟩ := @Run.leads _ _ _ _ _ s
    (Relation.ReflTransGen (Step (exactGateway 100).server) s) (fun h step => h.tail step) .refl idle 1
      (.inl (.commitmentRequest (some (request 5 7 own)))) (others 1 (by decide)) trivial _ _ _ _ serves (fun _ _ _ => trivial)
  have base : (unused.addGasUsage 31016 (finite 2)).baseGasPrice = 100 := SlotCongestion.addGasUsage_base _ _ _
  have time : (unused.addGasUsage 31016 (finite 2)).slotStartTime = 60 := SlotCongestion.addGasUsage_start _ _ _
  have reads := slotCongestionOf_row (c := unused.addGasUsage 31016 (finite 2)) (by rw [time]; decide)
  obtain ⟨_,info',run'⟩ := charge_run base reads held
  rw [← world',← clock,← clock'] at run'
  obtain ⟨s',steps',_,same,_,done',_⟩ := @Run.leads _ _ _ _ _ s₁
    (Relation.ReflTransGen (Step (exactGateway 100).server) s) (fun h step => h.tail step) steps idle' 2
      (.inr (.fee (some (request 5 7 own)))) ((others' 2 (by decide)).trans (others 2 (by decide))) trivial _ _ _ _ run'
        (fun _ _ _ => trivial)
  have second : Charged s' 2 (request 5 7 own) info' := ⟨_,done',rfl,rfl⟩
  refine ⟨s,s',info,info',hr,steps',⟨(unused.addGasUsage 31016 (finite 2)).row,?_,?_⟩,first,second,
    later_fee_no_lower (exactGateway 100) rfl rfl rfl hr steps' first (others 2 (by decide)) second rfl fun gas gas' one two => ?_⟩
  · rw [same,world']
    exact held
  · exact congrArg UInt64.toInt64 (SlotCongestion.addGasUsage_gas _ _ _)
  · rw [Except.ok.inj (one.symm.trans two)]
    exact UInt64.le_refl _

end PreconfGateway.Properties.RisingQuotes
