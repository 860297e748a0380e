import PreconfGateway.Properties.QuotedPrice

/-! A fee calculation against the numbers it reports: the price of the oracle, the multiplier
and the gas, each of which comes from another place. -/
namespace PreconfGateway.Properties.FeeConsistency
open Encoding Types Db Services Interleaving Fixture Arithmetic Extended QuotedPrice
variable {P : Platform}

/-- What the fields of a calculation say of each other, without rounding. -/
structure Consistent (f : FeePricing.FeeCalculation (exactly P)) (recorded limit : UInt64) (low high : ℝ) : Prop where
  price : ∃ m : ℝ, f.feeMultiplier = finite m ∧ (low ≤ m ∧ m ≤ high) ∧
    (f.finalPrice.toNat : ℤ) = min (2 ^ 64 - 1) ⌈f.baseGasPrice.toNat * m⌉
  ratio : f.congestionRatio = div (finite (recorded.toNat + f.estimatedGas.toNat)) (finite limit.toNat)
  total : f.totalCost.toNat = f.finalPrice.toNat * f.estimatedGas.toNat

/-- Some whole number below the largest one lies between x and y. -/
def Parted (x y : ℝ) : Prop := ∃ n : ℤ, n < 2 ^ 64 - 1 ∧ (x ≤ n ∧ n < y ∨ y ≤ n ∧ n < x)

section Parted
variable {x y m : ℝ} {a b : ℕ}

/-- Numbers that are not parted round up to one price. -/
theorem not_parted_iff : ¬ Parted x y ↔ min (2 ^ 64 - 1) ⌈x⌉ = min (2 ^ 64 - 1) ⌈y⌉ := by
  simp only [Parted,← Int.ceil_le,← Int.lt_ceil]
  constructor
  · intro none
    by_contra differ
    apply none
    refine ⟨min ⌈x⌉ ⌈y⌉,?_,?_⟩
    · omega
    · omega
  · rintro same ⟨n,small,between⟩
    omega

/-- Equal base prices come to equal prices. -/
theorem not_parted_same (nonneg : 0 ≤ m) : ¬ Parted (0 ⊔ a * m) (a * m) := by
  rw [not_parted_iff,sup_eq_right.mpr (mul_nonneg (Nat.cast_nonneg _) nonneg)]

/-- A factor from one on parts the multiples of different numbers, short of the largest number. -/
theorem parted_of_lt (one : 1 ≤ m) (less : a < b) (small : a * m < 2 ^ 64 - 2) : Parted (a * m) (b * m) := by
  refine ⟨⌈a * m⌉,?_,.inl ⟨Int.le_ceil _,?_⟩⟩
  · have above : ((⌈a * m⌉ : ℤ) : ℝ) < ((2 ^ 64 - 1 : ℤ) : ℝ) := by
      push_cast
      linarith [Int.ceil_lt_add_one (a * m)]
    exact_mod_cast above
  · have next : (a : ℝ) + 1 ≤ b := by exact_mod_cast less
    have rise : (a : ℝ) * m + m ≤ b * m := by
      have scaled := mul_le_mul_of_nonneg_right next (zero_le_one.trans one)
      rwa [add_mul,one_mul] at scaled
    linarith [Int.ceil_lt_add_one (a * m)]

end Parted

/-- The multiplier that is quoted for some gas. -/
noncomputable def quote (c : SlotCongestion (exactly P)) (gas : UInt64) (k low high : ℝ) : ℝ :=
  (factor c.totalGasLimit k (load c gas) ⊔ low) ⊓ high

/-- Bounds that leave room, a limit, a sum that fits, and a stored base price whose multiple is not parted
from that of the oracle's. -/
structure Sound (c : SlotCongestion (exactly P)) (price gas : UInt64) (k low high : ℝ) : Prop where
  bounds : low ≤ high
  limited : c.totalGasLimit ≠ 0
  fits : c.preconfirmedGas.toNat + gas.toNat < 2 ^ 64
  together : ¬ Parted (0 ⊔ c.baseGasPrice.toNat * quote c gas k low high) (price.toNat * quote c gas k low high)

section Total
variable {slot price gas : UInt64} {projected : SlotCongestion P} {f : FeePricing.FeeCalculation P}

/-- A calculation is the record it was made of, with a product that did not wrap. -/
theorem totalled_inv (h : FeePricing.totalled slot price gas projected = .ok f) :
    f.baseGasPrice = price ∧ f.estimatedGas = gas ∧ f.congestionRatio = projected.gasUsedRatio ∧
      f.feeMultiplier = projected.calculatedFeeMultiplier ∧ f.finalPrice = projected.currentTxPrice ∧
        f.totalCost.toNat = f.finalPrice.toNat * f.estimatedGas.toNat := by
  unfold FeePricing.totalled checkedMul at h
  by_cases fits : projected.currentTxPrice.toNat * gas.toNat < 2 ^ 64
  · rw [if_pos fits] at h
    cases h
    exact ⟨rfl,rfl,rfl,rfl,rfl,(UInt64.toNat_mul _ _).trans (Nat.mod_eq_of_lt fits)⟩
  · rw [if_neg fits] at h
    cases h

end Total

section Record
variable {config : Config (exactly P)} {k low high : ℝ} {c : SlotCongestion (exactly P)}
  {slot price gas : UInt64} {f : FeePricing.FeeCalculation (exactly P)}

theorem quote_within : (low ≤ quote c gas k low high ∧ quote c gas k low high ≤ high) ↔ low ≤ high := by
  constructor
  · rintro ⟨above,below⟩
    exact above.trans below
  · intro bounds
    exact ⟨le_inf le_sup_right bounds,inf_le_right⟩

/-- The price that is charged, as a whole number. -/
theorem charged_int (base : UInt64) (m : ℝ) :
    ((charged base m).toNat : ℤ) = min (2 ^ 64 - 1) ⌈0 ⊔ base.toNat * m⌉ := by
  have whole : ⌈(0 : ℝ) ⊔ base.toNat * m⌉ = max 0 ⌈base.toNat * m⌉ := by
    rw [Int.ceil_mono.map_sup,Int.ceil_zero]
  rw [whole,charged,UInt64.toNat_ofNat']
  change ((min ⌈base.toNat * m⌉.toNat (2 ^ 64 - 1) % 2 ^ 64 : ℕ) : ℤ) = _
  omega

theorem load_exact : finite (load c gas) = div (finite (c.preconfirmedGas.toNat + gas.toNat)) (finite c.totalGasLimit.toNat) ↔
    c.totalGasLimit ≠ 0 ∧ c.preconfirmedGas.toNat + gas.toNat < 2 ^ 64 := by
  by_cases limited : c.totalGasLimit = 0
  · have nothing : (((0 : UInt64).toNat : ℕ) : ℝ) = 0 := by rw [UInt64.toNat_zero,Nat.cast_zero]
    simp only [limited,ne_eq,not_true,false_and,iff_false,nothing,div,if_true,infinite]
    split_ifs <;> intro same <;> cases same
  · have some : (c.totalGasLimit.toNat : ℝ) ≠ 0 := by
      rw [Nat.cast_ne_zero]
      exact fun h => limited (UInt64.toNat_inj.mp h)
    rw [div_finite some,finite_inj,load,div_left_inj' some,saturatingAdd_toNat]
    simp only [ne_eq,limited,not_false_iff,true_and]
    constructor
    · intro same
      have sum : min (c.preconfirmedGas.toNat + gas.toNat) (2 ^ 64 - 1) = c.preconfirmedGas.toNat + gas.toNat := by
        exact_mod_cast same
      omega
    · intro fits
      rw [Nat.min_eq_left (by omega)]
      push_cast
      rfl

/-- A calculation from a record is consistent exactly if the record and the oracle's price are sound. -/
theorem consistent_iff (scaling : config.reth.feeConfig.scalingFactor = finite k)
    (lowest : config.reth.feeConfig.minFeeMultiplier = finite low)
    (highest : config.reth.feeConfig.maxFeeMultiplier = finite high)
    (h : FeePricing.totalled slot price gas (FeePricing.calculateProjectedCongestion config c gas) = .ok f) :
    Consistent f c.preconfirmedGas c.totalGasLimit low high ↔ Sound c price gas k low high := by
  obtain ⟨base,estimated,share,multiplier,final,total⟩ := totalled_inv h
  obtain ⟨held,charge⟩ := quoted c gas k scaling lowest highest
  have shared : (FeePricing.calculateProjectedCongestion config c gas).gasUsedRatio = finite (load c gas) := by
    change (c.addGasUsage gas config.reth.feeConfig.scalingFactor).gasUsedRatio = _
    rw [scaling,recorded_ratio]
  rw [held] at multiplier
  rw [charge] at final
  rw [shared] at share
  have whole : ((charged c.baseGasPrice (quote c gas k low high)).toNat : ℤ) =
    min (2 ^ 64 - 1) ⌈0 ⊔ c.baseGasPrice.toNat * quote c gas k low high⌉ := charged_int _ _
  constructor
  · rintro ⟨⟨m,made,within,price_⟩,ratio,_⟩
    obtain rfl : m = quote c gas k low high := finite_inj.mp (made.symm.trans multiplier)
    rw [share,estimated] at ratio
    obtain ⟨limited,fits⟩ := load_exact.mp ratio
    refine ⟨quote_within.mp within,limited,fits,not_parted_iff.mpr ?_⟩
    rw [← whole,← base,← price_,final]
    rfl
  · rintro ⟨bounds,limited,fits,together⟩
    refine ⟨⟨quote c gas k low high,multiplier,quote_within.mpr bounds,?_⟩,?_,total⟩
    · rw [base,← not_parted_iff.mp together,← whole,final]
      rfl
    · rw [share,estimated]
      exact load_exact.mpr ⟨limited,fits⟩

end Record

/-- The record that a calculation starts from: it was inserted with the oracle's price, or its row was read. -/
def Provided (config : Config P) (es : Trace P) (slot price : UInt64) (c : SlotCongestion P) : Prop :=
  (Told es (.sql (.insertCongestion c.row)) (.ok true) ∧
      c = .new slot price config.reth.feeConfig.defaultGasLimit (saturatingAdd config.beaconApi.genesisTime (saturatingMul slot 12))) ∨
    ∃ row, Told es (.sql (.selectCongestion slot.toInt64)) (.ok (some row)) ∧ slotCongestionOf row = .ok c

section Run
variable {config : Config P} {between : World P → World P → Prop} {limits : Limits} {relay : ConstraintsApiConfig}
  {w w' : World P} {t t' : Nat} {es : Trace P} {slot price : UInt64} {c : SlotCongestion P}

/-- The record is provided by the requests that were made for it, and no other is. -/
theorem provided (h : Run (world P limits relay) between (getOrCreateSlotCongestion slot price
      config.reth.feeConfig.defaultGasLimit config.beaconApi.genesisTime) w t es (.ok c) w' t') :
    Provided config es slot price c ∧ ∀ c', Provided config es slot price c' → c' = c := by
  unfold getOrCreateSlotCongestion at h
  cases epoch : unixEpochPlus (saturatingAdd config.beaconApi.genesisTime (saturatingMul slot 12)) with
  | error e =>
    simp only [epoch] at h
    exact nomatch h.ret_inv.2.1
  | ok start =>
    obtain rfl : start = saturatingAdd config.beaconApi.genesisTime (saturatingMul slot 12) := by
      unfold unixEpochPlus at epoch
      split at epoch <;> cases epoch
      rfl
    simp only [epoch] at h
    split at h
    · exact nomatch h.ret_inv.2.1
    · obtain ⟨_,_,reply,_,rest,rfl,_,_,_,_,h⟩ := run_ask h
      rcases reply with e | _ | _
      · exact nomatch h.ret_inv.2.1
      · -- the row was there, and is read
        obtain ⟨es₁,found,_,_,es₂,rfl,hget,hend⟩ := h.bind_inv
        obtain ⟨_,_,reply,_,rest,rfl,_,_,_,_,hback⟩ := run_ask hget
        rcases reply with e | _ | row
        · obtain ⟨_,rfl,_⟩ := hback.ret_inv
          exact nomatch hend.ret_inv.2.1
        · obtain ⟨_,rfl,_⟩ := hback.ret_inv
          exact nomatch hend.ret_inv.2.1
        · obtain ⟨rfl,rfl,_⟩ := hback.ret_inv
          cases reads : slotCongestionOf row with
          | error e =>
            rw [reads] at hend
            exact nomatch hend.ret_inv.2.1
          | ok c' =>
            rw [reads] at hend
            obtain ⟨rfl,same,_⟩ := hend.ret_inv
            cases same
            refine ⟨.inr ⟨row,(told_other (by nofun)).mpr (told_here.mpr (.inl rfl)),reads⟩,?_⟩
            rintro c' (⟨told,rfl⟩ | ⟨row',told,reads'⟩)
            · rcases told_here.mp told with other | told
              · cases other
              · exact absurd ((told_other (by nofun)).mp told) told_nil
            · rcases told_here.mp ((told_other (by nofun)).mp told) with same | told
              · cases same
                exact Except.ok.inj (reads'.symm.trans reads)
              · exact absurd told told_nil
      · obtain ⟨rfl,same,_⟩ := h.ret_inv
        cases same
        refine ⟨.inl ⟨told_here.mpr (.inl rfl),rfl⟩,?_⟩
        rintro c' (⟨_,rfl⟩ | ⟨row,told,_⟩)
        · rfl
        · exact absurd ((told_other (by nofun)).mp told) told_nil

/-- A calculation that goes through was told one price and provided with one record, and is totalled from them. -/
theorem calculated {payload : Bytes} {f : FeePricing.FeeCalculation P}
    (h : Run (world P limits relay) between (FeePricing.calculateFeeForCommitment config 1 payload slot) w t es (.ok f) w' t') :
    ∃ info gas c, Told es .gasPrice (.ok info) ∧ FeePricing.estimateGasForCommitment P 1 payload = .ok gas ∧
      Provided config es slot info.gasPriceAsU64Clamped c ∧ (∀ info', Told es .gasPrice (.ok info') → info' = info) ∧
        (∀ c', Provided config es slot info.gasPriceAsU64Clamped c' → c' = c) ∧
          FeePricing.totalled slot info.gasPriceAsU64Clamped gas (FeePricing.calculateProjectedCongestion config c gas) = .ok f := by
  unfold FeePricing.calculateFeeForCommitment FeePricing.getCachedGasPrice at h
  obtain ⟨es₁,found,_,_,es₂,rfl,hprice,hrest⟩ := h.bind_inv
  obtain ⟨_,_,reply,_,rest,rfl,_,_,_,_,hback⟩ := run_ask hprice
  obtain ⟨rfl,rfl,rfl,rfl⟩ := hback.ret_inv
  rcases reply with e | info
  · exact nomatch hrest.ret_inv.2.1
  · cases estimated : FeePricing.estimateGasForCommitment P 1 payload with
    | error e =>
      simp only [Except.mapError,estimated] at hrest
      exact nomatch hrest.ret_inv.2.1
    | ok gas =>
      simp only [Except.mapError,estimated] at hrest
      obtain ⟨es₃,record,_,_,es₄,rfl,hget,hend⟩ := hrest.bind_inv
      rcases record with e | c
      · exact nomatch hend.ret_inv.2.1
      · obtain ⟨rfl,same,_⟩ := hend.ret_inv
        rw [List.append_nil]
        have silent : (getOrCreateSlotCongestion (P := P) slot info.gasPriceAsU64Clamped config.reth.feeConfig.defaultGasLimit
            config.beaconApi.genesisTime).Obeys (fun op : Op P => op.query ≠ .gasPrice) (fun _ => True) :=
          getOrCreate_obeys (fun _ _ => by nofun) (by nofun)
        have quiet : ∀ e ∈ es₃, e.op.query ≠ .gasPrice := (hget.obeys silent).1
        obtain ⟨made,only⟩ := provided hget
        refine ⟨info,gas,c,told_here.mpr (.inl rfl),rfl,?_,?_,?_,same.symm⟩
        · rcases made with ⟨told,new⟩ | ⟨row,told,reads⟩
          · exact .inl ⟨(told_other (by nofun)).mpr told,new⟩
          · exact .inr ⟨row,(told_other (by nofun)).mpr told,reads⟩
        · intro info' told
          rcases told_here.mp told with same | told
          · exact (Except.ok.inj same).symm
          · exact absurd told (told_never quiet)
        · rintro c' (⟨told,new⟩ | ⟨row,told,reads⟩)
          · exact only c' (.inl ⟨(told_other (by nofun)).mp told,new⟩)
          · exact only c' (.inr ⟨row,(told_other (by nofun)).mp told,reads⟩)

end Run

/-- In exact arithmetic a fee calculation that goes through has a price, an estimate and a record, and it is
consistent exactly if its bounds leave room, the slot has a gas limit, the gas fits beside the recorded gas, and no
whole price lies between those that the recorded base price and the oracle's price come to. -/
theorem fee_consistent_iff {config : Config (exactly P)} {k low high : ℝ}
    {between : World (exactly P) → World (exactly P) → Prop} {limits : Limits} {relay : ConstraintsApiConfig}
    {w w' : World (exactly P)} {t t' : Nat} {es : Trace (exactly P)} {slot : UInt64} {payload : Bytes}
    {f : FeePricing.FeeCalculation (exactly P)}
    (scaling : config.reth.feeConfig.scalingFactor = finite k)
    (lowest : config.reth.feeConfig.minFeeMultiplier = finite low)
    (highest : config.reth.feeConfig.maxFeeMultiplier = finite high)
    (h : Run (world _ limits relay) between (FeePricing.calculateFeeForCommitment config 1 payload slot) w t es (.ok f) w' t') :
    (∃ info gas c, Told es .gasPrice (.ok info) ∧ FeePricing.estimateGasForCommitment (exactly P) 1 payload = .ok gas ∧
        Provided config es slot info.gasPriceAsU64Clamped c) ∧
      ∀ info gas c, Told es .gasPrice (.ok info) → FeePricing.estimateGasForCommitment (exactly P) 1 payload = .ok gas →
        Provided config es slot info.gasPriceAsU64Clamped c →
          (Consistent f c.preconfirmedGas c.totalGasLimit low high ↔ Sound c info.gasPriceAsU64Clamped gas k low high) := by
  obtain ⟨info,gas,c,told,estimated,from_,onlyInfo,onlyRecord,made⟩ := calculated h
  refine ⟨⟨info,gas,c,told,estimated,from_⟩,?_⟩
  intro info' gas' c' told' estimated' from'
  obtain rfl := onlyInfo info' told'
  obtain rfl := onlyRecord c' from'
  cases estimated.symm.trans estimated'
  exact consistent_iff scaling lowest highest made

private theorem unparsed : FeePricing.estimateGasForCommitment (exactly (platform [])) 1 [] = .ok 50000 := by rfl

private theorem unused_base : ((unused.baseGasPrice.toNat : ℕ) : ℝ) = 100 := by
  have base : unused.baseGasPrice.toNat = 100 := rfl
  rw [base,Nat.cast_ofNat]

/-- The multiplier of the usual bounds. -/
private theorem usual_quote : 1 ≤ quote unused 50000 2 1 100 ∧ quote unused 50000 2 1 100 ≤ 100 := by
  obtain ⟨low,high⟩ := @factor_bounds unused.totalGasLimit 2 _ (load_nonneg unused 50000)
  exact ⟨le_inf (low.trans le_sup_left) (by norm_num),inf_le_right⟩

/-- A slot that has its row already is answered with what the row reads as. -/
theorem existing_run {limits : Limits} {relay : ConstraintsApiConfig} {w : World P} {t : Nat} {slot base limit genesis : UInt64}
    {row : CongestionRow P} {c : SlotCongestion P}
    (start : (saturatingAdd genesis (saturatingMul slot 12)).toNat < 2 ^ 63)
    (calendar : P.timestampInRange (saturatingAdd genesis (saturatingMul slot 12)).toInt64 = true)
    (held : w.congestion.forSlot slot.toInt64 = some row) (reads : slotCongestionOf row = .ok c) :
    ∃ es, Run (world P limits relay) Eq (getOrCreateSlotCongestion slot base limit genesis) w t es (.ok c) w t ∧
      Told es (.sql (.selectCongestion slot.toInt64)) (.ok (some row)) := by
  have epoch : unixEpochPlus (saturatingAdd genesis (saturatingMul slot 12)) = .ok (saturatingAdd genesis (saturatingMul slot 12)) :=
    if_pos start
  unfold getOrCreateSlotCongestion
  simp only [epoch,calendar,Bool.not_true,Bool.false_eq_true,if_false]
  have stays : (world P limits relay).Answers t w (.plain (.sql (.insertCongestion (SlotCongestion.new slot base limit
      (saturatingAdd genesis (saturatingMul slot 12))).row))) (.ok false) w := by
    have kept : w.congestion.insert (SlotCongestion.new slot base limit
        (saturatingAdd genesis (saturatingMul slot 12)) : SlotCongestion P).row = (false, w.congestion) :=
      Congestion.insert_taken held
    refine ⟨.done,?_⟩
    simp only [world,Op.respond,Query.respond,Statement.execute,kept,Option.map_some]
  have found : (world P limits relay).Answers t w (.plain (.sql (.selectCongestion slot.toInt64))) (.ok (some row)) w := by
    refine ⟨.done,?_⟩
    change some (Except.ok (w.congestion.forSlot slot.toInt64), w) = _
    rw [held]
  have last : Run (world P limits relay) Eq (pure ((slotCongestionOf row).map some) : Async P _) w t [] (.ok (some c)) w t := by
    rw [reads]
    exact .ret _ _ _
  refine ⟨_,ask_step stays ((ask_step found last).bind (.ret _ _ _)),?_⟩
  rw [told_other (by rintro ⟨⟩)]
  exact told_here.mpr (.inl rfl)

/-- A calculation for a slot whose record was made at a base price of 100. -/
theorem fee_run (price : Nat) : ∃ es f, Told es .gasPrice (.ok ⟨price⟩) ∧
    Provided (bounded 1 100) es 5 (GasPriceInfo.gasPriceAsU64Clamped ⟨price⟩) unused ∧
      Run (world _ ⟨1000, 1000, 1000, 1000⟩ ⟨5, 2, []⟩) Eq (FeePricing.calculateFeeForCommitment (bounded 1 100) 1 [] 5)
        holding 0 es (.ok f) holding 0 := by
  let price64 := GasPriceInfo.gasPriceAsU64Clamped ⟨price⟩
  have reads : slotCongestionOf unused.row = .ok unused := slotCongestionOf_row (by decide)
  obtain ⟨es,get,told⟩ := @existing_run _ ⟨1000, 1000, 1000, 1000⟩ ⟨5, 2, []⟩ holding 0 5 price64 30000000 0 _ _
    (by decide) rfl (by rfl) reads
  obtain ⟨_,charge⟩ := @quoted _ unused 50000 2 (bounded 1 100) 1 100 rfl rfl rfl
  have cheap : (FeePricing.calculateProjectedCongestion (bounded 1 100) unused 50000).currentTxPrice.toNat * 50000 < 2 ^ 64 := by
    have small : ((charged unused.baseGasPrice (quote unused 50000 2 1 100)).toNat : ℤ) ≤ 10000 := by
      rw [charged_int,min_le_iff]
      right
      rw [Int.ceil_le]
      have high := usual_quote.2
      push_cast
      rw [unused_base]
      exact sup_le (by norm_num) (by linarith)
    have same : (FeePricing.calculateProjectedCongestion (bounded 1 100) unused 50000).currentTxPrice =
      charged unused.baseGasPrice (quote unused 50000 2 1 100) := charge
    rw [same]
    omega
  have made : ∃ f, FeePricing.totalled 5 price64 50000
      (FeePricing.calculateProjectedCongestion (bounded 1 100) unused 50000) = .ok f := by
    have fits : checkedMul (FeePricing.calculateProjectedCongestion (bounded 1 100) unused 50000).currentTxPrice 50000 =
      some _ := if_pos cheap
    unfold FeePricing.totalled
    rw [fits]
    exact ⟨_,rfl⟩
  obtain ⟨f,made⟩ := made
  have whole : Run (world _ ⟨1000, 1000, 1000, 1000⟩ ⟨5, 2, []⟩) Eq
      (FeePricing.calculateFeeForCommitment (bounded 1 100) 1 [] 5) holding 0
        (⟨.plain .gasPrice, .ok ⟨price⟩, 0, 0, holding, holding⟩ :: (es ++ [])) (.ok f) holding 0 := by
    refine ask_step ⟨.price (.ok ⟨price⟩),rfl⟩ ?_
    simp only [Except.mapError,unparsed]
    refine get.bind ?_
    rw [← made]
    exact .ret _ _ _
  refine ⟨_,f,told_here.mpr (.inl rfl),.inr ⟨_,?_,reads⟩,whole⟩
  rw [List.append_nil,told_other (by nofun)]
  exact told

/-- The slot was recorded at 100, where the oracle stands now. -/
theorem fee_consistent_steady : ∃ es f w' t',
    Run (world _ ⟨1000, 1000, 1000, 1000⟩ ⟨5, 2, []⟩) Eq (FeePricing.calculateFeeForCommitment (bounded 1 100) 1 [] 5)
      holding 0 es (.ok f) w' t' ∧ Consistent f 0 30000000 1 100 := by
  obtain ⟨es,f,told,from_,run⟩ := fee_run 100
  obtain ⟨_,consistent⟩ := @fee_consistent_iff _ (bounded 1 100) 2 1 100 _ _ _ _ _ _ _ _ _ _ _ rfl rfl rfl run
  refine ⟨es,f,_,_,run,(consistent _ _ _ told unparsed from_).mpr ⟨by norm_num,?_,by decide,?_⟩⟩
  · change (30000000 : UInt64) ≠ 0
    decide
  · exact not_parted_same (zero_le_one.trans usual_quote.1)

/-- The slot was recorded at 100, and the oracle has doubled since: the price stays, below the base price that
is reported. -/
theorem fee_from_stale_price : ∃ es f w' t',
    Run (world _ ⟨1000, 1000, 1000, 1000⟩ ⟨5, 2, []⟩) Eq (FeePricing.calculateFeeForCommitment (bounded 1 100) 1 [] 5)
      holding 0 es (.ok f) w' t' ∧ f.baseGasPrice = 200 ∧ ¬ Consistent f 0 30000000 1 100 := by
  obtain ⟨es,f,told,from_,run⟩ := fee_run 200
  obtain ⟨info,gas,c,_,estimated,_,onlyInfo,onlyRecord,made⟩ := calculated run
  obtain rfl := onlyInfo _ told
  obtain rfl := onlyRecord _ from_
  cases estimated.symm.trans unparsed
  refine ⟨es,f,_,_,run,(totalled_inv made).1,fun consistent => ?_⟩
  have sound := (@consistent_iff _ (bounded 1 100) 2 1 100 unused _ _ _ _ rfl rfl rfl made).mp consistent
  apply sound.together
  obtain ⟨low,high⟩ := usual_quote
  have parted : Parted ((100 : ℕ) * quote unused 50000 2 1 100) ((200 : ℕ) * quote unused 50000 2 1 100) := by
    apply parted_of_lt low (by norm_num)
    push_cast
    linarith
  have nonneg : (0 : ℝ) ≤ (100 : ℕ) * quote unused 50000 2 1 100 := mul_nonneg (Nat.cast_nonneg _) (zero_le_one.trans low)
  rw [← sup_eq_right.mpr nonneg] at parted
  exact parted

end PreconfGateway.Properties.FeeConsistency