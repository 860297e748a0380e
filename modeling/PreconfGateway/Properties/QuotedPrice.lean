import PreconfGateway.Arithmetic.Extended
import PreconfGateway.Db.CongestionStore
import PreconfGateway.Fixture

/-! The price that is quoted for some gas and the price that is recorded when the gas is
added. The one keeps to the configured bounds, the other to fixed ones. -/
namespace PreconfGateway.Properties.QuotedPrice
open Types Db Services Interleaving Fixture Arithmetic Extended
variable {P : Platform}

/-- Arithmetic without rounding. -/
noncomputable def exact : Floating where
  F64 := Extended
  literal n := finite n
  ofU64 n := finite n.toNat
  toU64 := toU64
  sub := sub
  mul := mul
  div := div
  powf := powf
  max := max
  min := min
  ceil := ceil
  lt := lt
  le := le
  isFinite := isFinite

noncomputable abbrev exactly (P : Platform) : Platform := { P with float := exact }

/-- The share of the limit that is used once the gas is added. -/
noncomputable def load (c : SlotCongestion (exactly P)) (gas : UInt64) : ℝ :=
  (saturatingAdd c.preconfirmedGas gas).toNat / c.totalGasLimit.toNat

/-- There is no limit, all of it is used, or the formula divides by zero. -/
def Full (limit : UInt64) (k load : ℝ) : Prop := limit = 0 ∨ 1 ≤ load ∨ k = 0

/-- At this load the formula, held between 1 and 100, comes to b or more. -/
def Reaches (limit : UInt64) (k load b : ℝ) : Prop :=
  b ≤ 1 ∨ b ≤ 100 ∧ (Full limit k load ∨ 0 < k ∧ b * (1 - load ^ k) ≤ 1)

/-- At this load the formula, held between 1 and 100, comes to more than b. -/
def Exceeds (limit : UInt64) (k load b : ℝ) : Prop :=
  b < 1 ∨ b < 100 ∧ (Full limit k load ∨ 0 < k ∧ b * (1 - load ^ k) < 1)

open Classical in
/-- The recorded multiplier in closed form. -/
noncomputable def factor (limit : UInt64) (k load : ℝ) : ℝ :=
  if Full limit k load then 100 else if k < 0 then 1 else 100 ⊓ (1 / (1 - load ^ k))

/-- A price for a unit of gas: rounded up, and held to the largest number. -/
noncomputable def charged (base : UInt64) (m : ℝ) : UInt64 := .ofNat (Nat.min ⌈base.toNat * m⌉.toNat (2 ^ 64 - 1))

section Curve
variable {limit : UInt64} {k load b : ℝ}

private theorem power_lt_one (open_ : ¬ Full limit k load) (pos : 0 ≤ load) (hk : 0 < k) : load ^ k < 1 := by
  simp only [Full,not_or,not_le] at open_
  exact Real.rpow_lt_one pos open_.2.1 hk

theorem factor_bounds (pos : 0 ≤ load) : 1 ≤ factor limit k load ∧ factor limit k load ≤ 100 := by
  unfold factor
  split
  · norm_num
  · rename_i open_
    split
    · norm_num
    · rename_i hk
      have hk' : 0 < k := lt_of_le_of_ne (not_lt.mp hk) (fun h => open_ (.inr (.inr h.symm)))
      have small := power_lt_one open_ pos hk'
      have low := Real.rpow_nonneg pos k
      refine ⟨le_inf (by norm_num) ?_,inf_le_left⟩
      rw [le_div_iff₀ (by linarith)]
      linarith

private theorem open_cases (open_ : ¬ Full limit k load) : k < 0 ∨ 0 < k := by
  simp only [Full,not_or] at open_
  exact lt_or_gt_of_ne open_.2.2

theorem reaches_iff (pos : 0 ≤ load) : Reaches limit k load b ↔ b ≤ factor limit k load := by
  obtain ⟨low,high⟩ : 1 ≤ factor limit k load ∧ factor limit k load ≤ 100 := factor_bounds pos
  constructor
  · rintro (one | ⟨hundred,full | ⟨hk,below⟩⟩)
    · exact one.trans low
    · rwa [factor,if_pos full]
    · unfold factor
      split
      · exact hundred
      · rename_i open_
        have small := power_lt_one open_ pos hk
        rw [if_neg (not_lt.mpr hk.le)]
        exact le_inf hundred ((le_div_iff₀ (by linarith)).mpr below)
  · intro h
    by_cases full : Full limit k load
    · exact .inr ⟨h.trans high,.inl full⟩
    · rw [factor,if_neg full] at h
      rcases open_cases full with neg | hk
      · exact .inl (by rwa [if_pos neg] at h)
      · rw [if_neg (not_lt.mpr hk.le)] at h
        have small := power_lt_one full pos hk
        exact .inr ⟨h.trans inf_le_left,.inr ⟨hk,(le_div_iff₀ (by linarith)).mp (h.trans inf_le_right)⟩⟩

theorem exceeds_iff (pos : 0 ≤ load) : Exceeds limit k load b ↔ b < factor limit k load := by
  obtain ⟨low,high⟩ : 1 ≤ factor limit k load ∧ factor limit k load ≤ 100 := factor_bounds pos
  constructor
  · rintro (one | ⟨hundred,full | ⟨hk,below⟩⟩)
    · exact one.trans_le low
    · rwa [factor,if_pos full]
    · unfold factor
      split
      · exact hundred
      · rename_i open_
        have small := power_lt_one open_ pos hk
        rw [if_neg (not_lt.mpr hk.le)]
        exact lt_inf_iff.mpr ⟨hundred,(lt_div_iff₀ (by linarith)).mpr below⟩
  · intro h
    by_cases full : Full limit k load
    · exact .inr ⟨h.trans_le high,.inl full⟩
    · rw [factor,if_neg full] at h
      rcases open_cases full with neg | hk
      · exact .inl (by rwa [if_pos neg] at h)
      · rw [if_neg (not_lt.mpr hk.le)] at h
        have small := power_lt_one full pos hk
        obtain ⟨hundred,below⟩ := lt_inf_iff.mp h
        exact .inr ⟨hundred,.inr ⟨hk,(lt_div_iff₀ (by linarith)).mp below⟩⟩

end Curve

section Recorded
variable (c : SlotCongestion (exactly P)) (gas : UInt64) (k : ℝ)

theorem load_nonneg : 0 ≤ load c gas := div_nonneg (Nat.cast_nonneg _) (Nat.cast_nonneg _)

private theorem charged_hundred (base : UInt64) : saturatingMul base 100 = charged base 100 := by
  have exact_ : ⌈(base.toNat : ℝ) * 100⌉ = ((base.toNat * 100 : Nat) : Int) := by
    rw [← Int.ceil_natCast (R := ℝ) (base.toNat * 100)]
    push_cast
    rfl
  rw [charged,exact_,Int.toNat_natCast]
  rfl

private theorem clamp_finite (x : ℝ) :
    SlotCongestion.clamp exact (finite x) (exact.literal 1) (exact.literal 100) = finite (1 ⊔ (100 ⊓ x)) := by
  change (if decide (x < ((1 : ℕ) : ℝ)) = true then finite ((1 : ℕ) : ℝ)
    else if decide (((100 : ℕ) : ℝ) < x) = true then finite ((100 : ℕ) : ℝ) else finite x) = _
  simp only [decide_eq_true_eq,Nat.cast_one,Nat.cast_ofNat]
  split
  · rename_i low
    rw [inf_eq_right.mpr (by linarith),sup_eq_left.mpr low.le]
  · rename_i low
    split
    · rename_i high
      rw [inf_eq_left.mpr high.le,sup_eq_right.mpr (by norm_num)]
    · rename_i high
      rw [inf_eq_right.mpr (not_lt.mp high),sup_eq_right.mpr (not_lt.mp low)]

private theorem ratio_finite (open_ : c.totalGasLimit ≠ 0) :
    exact.max (exact.div (exact.ofU64 (saturatingAdd c.preconfirmedGas gas)) (exact.ofU64 c.totalGasLimit))
      (exact.literal 0) = finite (load c gas) := by
  have limit : (c.totalGasLimit.toNat : ℝ) ≠ 0 := by
    rw [Nat.cast_ne_zero]
    exact fun h => open_ (UInt64.toNat_inj.mp h)
  change max (div (finite _) (finite _)) (finite ((0 : ℕ) : ℝ)) = _
  rw [div_finite limit,max_finite,Nat.cast_zero]
  exact congrArg finite (sup_eq_left.mpr (load_nonneg c gas))

/-- The formula below a full load, as the numbers with infinities compute it. -/
private theorem formula {limit : UInt64} {r : ℝ} (open_ : limit ≠ 0) (pos : 0 ≤ r) (less : r < 1) :
    (let raw := div (finite 1) (sub (finite 1) (powf (finite r) (finite k)))
      if !isFinite raw then finite 100 else SlotCongestion.clamp exact raw (exact.literal 1) (exact.literal 100)) =
        finite (factor limit k r) := by
  have clear : Full limit k r ↔ k = 0 := by
    simp only [Full,open_,not_le.mpr less,false_or]
  rcases lt_trichotomy k 0 with neg | rfl | hk
  · have one : factor limit k r = 1 := by
      rw [factor,if_neg (clear.not.mpr neg.ne),if_pos neg]
    rcases pos.eq_or_lt' with rfl | base
    · -- the power is infinite, and one over it nothing
      have power : powf (finite 0) (finite k) = posInf := by
        rw [powf,if_neg (lt_irrefl _),if_pos ⟨rfl,neg⟩]
      rw [power,one]
      exact (clamp_finite 0).trans (congrArg finite (by norm_num))
    · have power := powf_finite (k := k) pos (fun h => absurd h base.ne')
      have big : 1 < r ^ k := Real.one_lt_rpow_of_pos_of_lt_one_of_neg base less neg
      rw [power,sub_finite,div_finite (by linarith),one]
      refine (clamp_finite _).trans (congrArg finite (sup_eq_left.mpr ?_))
      exact inf_le_right.trans ((div_nonpos_of_nonneg_of_nonpos one_pos.le (by linarith)).trans one_pos.le)
  · have power := powf_finite (k := 0) pos (fun _ => le_refl _)
    have none : div (finite 1) (finite (1 - 1)) = posInf := by
      rw [div,if_pos (sub_self _),infinite,if_pos one_pos]
    rw [power,Real.rpow_zero,sub_finite,none,factor,if_pos (clear.mpr rfl)]
    rfl
  · have power := powf_finite pos (fun _ => hk.le)
    have small := Real.rpow_lt_one pos less hk
    have low := Real.rpow_nonneg pos k
    rw [power,sub_finite,div_finite (by linarith),factor,if_neg (clear.not.mpr hk.ne'),if_neg (not_lt.mpr hk.le)]
    refine (clamp_finite _).trans (congrArg finite (sup_eq_right.mpr (le_inf (by norm_num) ?_)))
    rw [le_div_iff₀ (by linarith)]
    linarith

/-- The multiplier before a price is made of it. -/
private theorem multiplier_finite {limit : UInt64} {r : ℝ} (open_ : limit ≠ 0) (pos : 0 ≤ r) :
    (let raw := if exact.le (exact.literal 1) (finite r) then exact.literal 100
        else exact.div (exact.literal 1) (exact.sub (exact.literal 1) (exact.powf (finite r) (finite k)))
      if !exact.isFinite raw then exact.literal 100
        else SlotCongestion.clamp exact raw (exact.literal 1) (exact.literal 100)) = finite (factor limit k r) := by
  have hundred : exact.literal 100 = finite 100 := congrArg finite Nat.cast_ofNat
  have one : exact.literal 1 = finite 1 := congrArg finite Nat.cast_one
  have atLeast : exact.le (finite 1) (finite r) = decide (1 ≤ r) := rfl
  by_cases more : 1 ≤ r
  · have full : Full limit k r := .inr (.inl more)
    have held := clamp_finite 100
    rw [one,hundred] at held
    simp only [atLeast,more,decide_true,if_true,factor,full,one,hundred]
    exact (if_neg nofun).trans (held.trans (congrArg finite (by norm_num)))
  · have made := formula k open_ pos (not_le.mp more)
    rw [one,hundred] at made
    simp only [atLeast,more,decide_false,Bool.false_eq_true,one,hundred]
    exact made

/-- A factor that is not negative makes a price that is rounded up. -/
private theorem price_finite (base : UInt64) {m : ℝ} (hm : 0 ≤ m) :
    exact.isFinite (exact.mul (exact.ofU64 base) (finite m)) = true ∧
      exact.lt (exact.mul (exact.ofU64 base) (finite m)) (exact.literal 0) = false ∧
        exact.toU64 (exact.ceil (exact.mul (exact.ofU64 base) (finite m))) = charged base m := by
  refine ⟨rfl,?_,?_⟩
  · change decide ((base.toNat : ℝ) * m < ((0 : ℕ) : ℝ)) = false
    rw [Nat.cast_zero,decide_eq_false_iff_not,not_lt]
    exact mul_nonneg (Nat.cast_nonneg _) hm
  · change UInt64.ofNat (Nat.min ⌊((⌈(base.toNat : ℝ) * m⌉ : ℤ) : ℝ)⌋.toNat (2 ^ 64 - 1)) = _
    rw [Int.floor_intCast,charged]

/-- What adding the gas makes of multiplier and price. -/
theorem recorded : (c.addGasUsage gas (finite k)).calculatedFeeMultiplier = finite (factor c.totalGasLimit k (load c gas)) ∧
    (c.addGasUsage gas (finite k)).currentTxPrice = charged c.baseGasPrice (factor c.totalGasLimit k (load c gas)) := by
  have pos := load_nonneg c gas
  unfold SlotCongestion.addGasUsage
  by_cases none : c.totalGasLimit = 0
  · have full : Full c.totalGasLimit k (load c gas) := .inl none
    rw [factor,if_pos full]
    simp only [none,if_true]
    exact ⟨congrArg finite Nat.cast_ofNat,charged_hundred _⟩
  · have ratio := ratio_finite c gas none
    have multiplier := multiplier_finite k none pos
    have sane : exact.isFinite (finite (load c gas)) = true := rfl
    dsimp only at multiplier
    simp only [none,if_false,ratio,sane,Bool.not_true,Bool.false_eq_true,multiplier]
    have one : 1 ≤ factor c.totalGasLimit k (load c gas) := (factor_bounds pos).1
    obtain ⟨finite_,nonneg,price⟩ := price_finite c.baseGasPrice (zero_le_one.trans one)
    refine ⟨rfl,?_⟩
    simp only [finite_,nonneg,Bool.not_true,Bool.or_self,Bool.false_eq_true,if_false,price]

/-- The ratio is the load, and nothing where there is no limit. -/
theorem recorded_ratio : (c.addGasUsage gas (finite k)).gasUsedRatio = finite (load c gas) := by
  unfold SlotCongestion.addGasUsage
  by_cases none : c.totalGasLimit = 0
  · have idle : load c gas = ((0 : ℕ) : ℝ) := by
      rw [load,none,UInt64.toNat_zero,Nat.cast_zero,div_zero]
    simp only [none,if_true,idle]
    rfl
  · have ratio := ratio_finite c gas none
    have sane : exact.isFinite (finite (load c gas)) = true := rfl
    simp only [none,if_false,ratio,sane,Bool.not_true,Bool.false_eq_true]
    rfl

/-- The quote falls back to the largest number where the cast would stop. -/
private theorem quoted_price (base : UInt64) (m : ℝ) :
    (let scaledPrice := exact.ceil (exact.mul (exact.ofU64 base) (finite m))
      let highest : UInt64 := .ofNat (2 ^ 64 - 1)
      if exact.isFinite scaledPrice && exact.le scaledPrice (exact.ofU64 highest) then exact.toU64 scaledPrice
        else highest) = charged base m := by
  have top : ((UInt64.ofNat (2 ^ 64 - 1)).toNat : ℝ) = ((2 ^ 64 - 1 : ℕ) : ℝ) := by
    rw [UInt64.toNat_ofNat']
    norm_num
  change (if (true && decide (((⌈(base.toNat : ℝ) * m⌉ : ℤ) : ℝ) ≤ ((UInt64.ofNat (2 ^ 64 - 1)).toNat : ℝ))) = true then
    UInt64.ofNat (Nat.min ⌊((⌈(base.toNat : ℝ) * m⌉ : ℤ) : ℝ)⌋.toNat (2 ^ 64 - 1)) else UInt64.ofNat (2 ^ 64 - 1)) = _
  simp only [Bool.true_and,decide_eq_true_eq,top,Int.floor_intCast]
  split
  · rfl
  · rename_i high
    have top_le : (2 ^ 64 - 1 : ℕ) ≤ ⌈(base.toNat : ℝ) * m⌉.toNat := by
      rw [not_le] at high
      have above : ((2 ^ 64 - 1 : ℕ) : ℤ) < ⌈(base.toNat : ℝ) * m⌉ := by exact_mod_cast high
      omega
    rw [charged]
    exact congrArg UInt64.ofNat (Nat.min_eq_right top_le).symm

/-- The quote: the recorded multiplier within the configured bounds, and its price. -/
theorem quoted {config : Config (exactly P)} {low high : ℝ}
    (scaling : config.reth.feeConfig.scalingFactor = finite k)
    (lowest : config.reth.feeConfig.minFeeMultiplier = finite low)
    (highest : config.reth.feeConfig.maxFeeMultiplier = finite high) :
    (FeePricing.calculateProjectedCongestion config c gas).calculatedFeeMultiplier =
        finite ((factor c.totalGasLimit k (load c gas) ⊔ low) ⊓ high) ∧
      (FeePricing.calculateProjectedCongestion config c gas).currentTxPrice =
        charged c.baseGasPrice ((factor c.totalGasLimit k (load c gas) ⊔ low) ⊓ high) := by
  obtain ⟨multiplier,_⟩ := recorded c gas k
  have held : (FeePricing.calculateProjectedCongestion config c gas).calculatedFeeMultiplier =
      finite ((factor c.totalGasLimit k (load c gas) ⊔ low) ⊓ high) := by
    change min (max ((c.addGasUsage gas config.reth.feeConfig.scalingFactor).calculatedFeeMultiplier)
      config.reth.feeConfig.minFeeMultiplier) config.reth.feeConfig.maxFeeMultiplier = _
    rw [scaling,lowest,highest,multiplier,max_finite,min_finite]
  refine ⟨held,?_⟩
  have base := SlotCongestion.addGasUsage_base c gas config.reth.feeConfig.scalingFactor
  have price := quoted_price c.baseGasPrice ((factor c.totalGasLimit k (load c gas) ⊔ low) ⊓ high)
  rw [← held,← base] at price
  exact price.trans (by rw [base])

end Recorded

/-- Bounds leave a number alone if it lies between them, or is the upper one. -/
theorem held_iff {m low high : ℝ} : (m ⊔ low) ⊓ high = m ↔ m ≤ high ∧ (low ≤ m ∨ high ≤ m) := by
  constructor
  · intro h
    have below : m ≤ high := by
      rw [← h]
      exact inf_le_right
    refine ⟨below,?_⟩
    rcases le_total low m with above | beneath
    · exact .inl above
    · -- raised to the lower bound, it can only have been brought back by the upper one
      rw [sup_eq_right.mpr beneath] at h
      rcases min_choice low high with hlow | hhigh
      · exact .inl (by rw [← h,hlow])
      · exact .inr (by rw [← h,hhigh])
  · rintro ⟨below,above | above⟩
    · rw [sup_eq_left.mpr above,inf_eq_left.mpr below]
    · rw [le_antisymm below above,inf_eq_right.mpr le_sup_left]

section Store
variable {limits : Limits} {relay : ConstraintsApiConfig} {w w' : World P} {t t' : Nat}
  {es : List (Event (requests P) (World P))} {slot : UInt64} {c : SlotCongestion P} {row : CongestionRow P}

/-- An update that succeeds leaves the row with the gas added. -/
theorem applied {config : Config P} {gas : UInt64} {after : SlotCongestion P}
    (held : w.congestion.forSlot slot.toInt64 = some row) (reads : slotCongestionOf row = .ok c)
    (h : Run (world P limits relay) Eq (FeePricing.applyGasUsageToSlot config slot gas) w t es (.ok after) w' t') :
    after = c.addGasUsage gas config.reth.feeConfig.scalingFactor ∧
      w'.congestion.forSlot slot.toInt64 = some after.row := by
  obtain ⟨w₁,u,reply,w₂,rest,rfl,rfl,_,_,answers,h⟩ := run_ask h
  rcases reply with e | found
  · exact nomatch h.ret_inv.2.1
  · obtain ⟨hfound,effect⟩ := Answers.updateCongestion answers
    rw [held] at hfound
    subst hfound
    obtain ⟨_,made,rfl,_⟩ := h.ret_inv
    have result : after = c.addGasUsage gas config.reth.feeConfig.scalingFactor := by
      change Except.ok after = (slotCongestionOf row).map _ at made
      rw [reads] at made
      cases made
      rfl
    subst result
    refine ⟨rfl,?_⟩
    have written : addition config.reth.feeConfig.scalingFactor gas row =
        some (c.addGasUsage gas config.reth.feeConfig.scalingFactor).row := by
      rw [addition,reads]
      rfl
    rw [effect _ written,Congestion.forSlot_update,held,Option.map_some,written_addition reads]

/-- A report that succeeds is of the price in the row. -/
theorem reported {price : Option UInt64}
    (h : Run (world P limits relay) Eq (getCurrentGasPriceForSlot P slot) w t es (.ok price) w' t') :
    price = (w.congestion.forSlot slot.toInt64).map (fun r => r.currentTxPrice.toUInt64) := by
  obtain ⟨w₁,u,reply,w₂,rest,rfl,rfl,_,_,answers,h⟩ := run_ask h
  rcases reply with e | found
  · exact nomatch h.ret_inv.2.1
  · obtain ⟨rfl,rfl⟩ := Answers.selectCongestion answers
    obtain ⟨_,made,_⟩ := h.ret_inv
    exact Except.ok.inj made

/-- With the database at hand the update and the report go through. -/
theorem apply_run {config : Config P} {gas : UInt64} (held : w.congestion.forSlot slot.toInt64 = some row)
    (reads : slotCongestionOf row = .ok c) : ∃ es w' es' price,
      Run (world P limits relay) Eq (FeePricing.applyGasUsageToSlot config slot gas) w t es
        (.ok (c.addGasUsage gas config.reth.feeConfig.scalingFactor)) w' t ∧
      Run (world P limits relay) Eq (getCurrentGasPriceForSlot P slot) w' t es' (.ok price) w' t := by
  let k := config.reth.feeConfig.scalingFactor
  let after := c.addGasUsage gas k
  have made : addition k gas row = some after.row := by
    rw [addition,reads]
    rfl
  have answers : (world P limits relay).Answers t w (.plain (.sql (.updateCongestion slot.toInt64 (addition k gas))))
      (.ok (some row)) { w with congestion := w.congestion.update after.row } := by
    refine ⟨.done,?_⟩
    change some (Except.ok (w.congestion.forSlot slot.toInt64), _) = _
    simp only [held,Option.bind_some,made]
  have result : (slotCongestionOf row).map (fun c => c.addGasUsage gas k) = .ok after := by
    rw [reads]
    rfl
  obtain ⟨es,update⟩ : ∃ es, Run (world P limits relay) Eq (FeePricing.applyGasUsageToSlot config slot gas) w t es
      (.ok after) { w with congestion := w.congestion.update after.row } t := by
    refine ask_run answers ⟨[],?_⟩
    rw [← result]
    exact .ret _ _ _
  obtain ⟨es',report⟩ : ∃ es', Run (world P limits relay) Eq (getCurrentGasPriceForSlot P slot)
      { w with congestion := w.congestion.update after.row } t es'
      (.ok (((w.congestion.update after.row).forSlot slot.toInt64).map (fun r => r.currentTxPrice.toUInt64)))
      { w with congestion := w.congestion.update after.row } t := by
    refine ask_run (q := .sql (.selectCongestion slot.toInt64))
      (r := .ok ((w.congestion.update after.row).forSlot slot.toInt64)) ⟨.done,rfl⟩ ⟨[],?_⟩
    exact .ret _ _ _
  exact ⟨es,_,es',_,update,report⟩

end Store

/-- The quote is what is recorded and reported, exactly if the load does not drive the formula above
the configured maximum and does drive it up to the minimum, or to the maximum itself. -/
theorem quote_recorded_iff {config : Config (exactly P)} {k low high : ℝ} {limits : Limits}
    {relay : ConstraintsApiConfig} {w w' w'' : World (exactly P)} {t t' t'' : Nat}
    {es es' : List (Event (requests (exactly P)) (World (exactly P)))} {slot gas : UInt64}
    {c after : SlotCongestion (exactly P)} {row : CongestionRow (exactly P)} {price : Option UInt64}
    (scaling : config.reth.feeConfig.scalingFactor = finite k)
    (lowest : config.reth.feeConfig.minFeeMultiplier = finite low)
    (highest : config.reth.feeConfig.maxFeeMultiplier = finite high)
    (held : w.congestion.forSlot slot.toInt64 = some row) (reads : slotCongestionOf row = .ok c)
    (update : Run (world _ limits relay) Eq (FeePricing.applyGasUsageToSlot config slot gas) w t es (.ok after) w' t')
    (report : Run (world _ limits relay) Eq (getCurrentGasPriceForSlot _ slot) w' t' es' (.ok price) w'' t'') :
    w'.congestion.forSlot slot.toInt64 = some after.row ∧
      (((FeePricing.calculateProjectedCongestion config c gas).calculatedFeeMultiplier = after.calculatedFeeMultiplier ∧
          (FeePricing.calculateProjectedCongestion config c gas).currentTxPrice = after.currentTxPrice ∧
            price = some (FeePricing.calculateProjectedCongestion config c gas).currentTxPrice) ↔
        ¬ Exceeds c.totalGasLimit k (load c gas) high ∧
          (Reaches c.totalGasLimit k (load c gas) low ∨ Reaches c.totalGasLimit k (load c gas) high)) := by
  have pos := load_nonneg c gas
  obtain ⟨made,persisted⟩ := applied held reads update
  have seen := reported report
  obtain ⟨multiplier,charge⟩ := recorded c gas k
  obtain ⟨bounded,charge'⟩ := quoted c gas k scaling lowest highest
  rw [scaling] at made
  subst made
  refine ⟨persisted,?_⟩
  rw [persisted,Option.map_some] at seen
  have reread : (c.addGasUsage gas (finite k)).row.currentTxPrice.toUInt64 = (c.addGasUsage gas (finite k)).currentTxPrice :=
    UInt64.toUInt64_toInt64 _
  rw [reread] at seen
  rw [reaches_iff pos,reaches_iff pos,exceeds_iff pos,not_lt,bounded,multiplier,charge,seen,charge,
    ← held_iff]
  constructor
  · rintro ⟨same,_⟩
    exact finite_inj.mp same
  · intro same
    rw [same]
    exact ⟨rfl,by rw [charge',same],by rw [charge',same]⟩

/-- A gateway that reckons exactly, within the given bounds. -/
noncomputable def bounded (low high : ℝ) : Config (exactly (platform [])) where
  validation := ⟨[own]⟩
  beaconApi := ⟨0⟩
  constraintsApi := ⟨5, 2, []⟩
  delegation := ⟨0, "0x00000002"⟩
  reth := ⟨⟨finite 2, 30000000, finite low, finite high⟩⟩
  signing := ⟨[9], (key 1).bytes, key 1, own⟩

/-- A record without gas. -/
noncomputable def unused : SlotCongestion (exactly (platform [])) := .new 5 100 30000000 60

noncomputable def holding : World (exactly (platform [])) where
  commitments := .empty
  delegations := .empty
  congestion := ⟨[unused.row], by simp⟩
  accepted := []

/-- The record with a tenth of its limit used. -/
noncomputable def used : SlotCongestion (exactly (platform [])) := unused.addGasUsage 3000000 (finite 2)

noncomputable def filled : World (exactly (platform [])) := { holding with congestion := ⟨[used.row], by simp⟩ }

private theorem used_reads : slotCongestionOf used.row = .ok used := by
  have start : used.slotStartTime = 60 := SlotCongestion.addGasUsage_start _ _ _
  apply slotCongestionOf_row
  rw [start]
  decide

private theorem used_held : filled.congestion.forSlot (5 : UInt64).toInt64 = some used.row := by
  have slot : used.row.slot = (5 : UInt64).toInt64 := congrArg UInt64.toInt64 (SlotCongestion.addGasUsage_slot _ _ _)
  simp [filled,Congestion.forSlot,slot]

/-- At a fifth of the limit the formula comes to 25/24. -/
private theorem used_factor : factor used.totalGasLimit 2 (load used 3000000) = 25 / 24 := by
  have limit : used.totalGasLimit = 30000000 := SlotCongestion.addGasUsage_limit _ _ _
  have share : load used 3000000 = 1 / 5 := by
    have before : used.preconfirmedGas = 3000000 := SlotCongestion.addGasUsage_gas _ _ _
    have gas : (saturatingAdd used.preconfirmedGas 3000000).toNat = 6000000 := by
      rw [before]
      rfl
    have whole : (30000000 : UInt64).toNat = 30000000 := rfl
    rw [load,gas,limit,whole]
    norm_num
  have open_ : ¬ Full used.totalGasLimit 2 (1 / 5) := by
    have some : (30000000 : UInt64) ≠ 0 := by decide
    simp only [Full,limit,some,false_or]
    norm_num
  rw [share,factor,if_neg open_]
  norm_num

/-- With a minimum of two, gas of little congestion is quoted at two and recorded at 25/24. -/
theorem quote_above_record : ∃ es w' after,
    Run (world _ ⟨1000, 1000, 1000, 1000⟩ ⟨5, 2, []⟩) Eq
      (FeePricing.applyGasUsageToSlot (bounded 2 100) 5 3000000) filled 0 es (.ok after) w' 0 ∧
    (FeePricing.calculateProjectedCongestion (bounded 2 100) used 3000000).calculatedFeeMultiplier = finite 2 ∧
      after.calculatedFeeMultiplier = finite (25 / 24) ∧ (finite 2 : Extended) ≠ finite (25 / 24) := by
  obtain ⟨es,w',_,_,update,_⟩ := @apply_run _ ⟨1000, 1000, 1000, 1000⟩ ⟨5, 2, []⟩ _ 0 _ _ _ (bounded 2 100) 3000000
    used_held used_reads
  have recorded := (recorded used 3000000 2).1
  have quoted := (@quoted _ used 3000000 2 (bounded 2 100) 2 100 rfl rfl rfl).1
  rw [used_factor] at recorded quoted
  refine ⟨es,w',_,update,quoted.trans (congrArg finite ?_),recorded,?_⟩
  · norm_num
  · norm_num

/-- The same record under the usual bounds: the update goes through and the quote is kept. -/
theorem quote_recorded_usual : ∃ es w' es' price after,
    Run (world _ ⟨1000, 1000, 1000, 1000⟩ ⟨5, 2, []⟩) Eq
      (FeePricing.applyGasUsageToSlot (bounded 1 100) 5 3000000) filled 0 es (.ok after) w' 0 ∧
    Run (world _ ⟨1000, 1000, 1000, 1000⟩ ⟨5, 2, []⟩) Eq
      (getCurrentGasPriceForSlot _ 5) w' 0 es' (.ok price) w' 0 ∧
    price = some (FeePricing.calculateProjectedCongestion (bounded 1 100) used 3000000).currentTxPrice := by
  obtain ⟨es,w',es',price,update,report⟩ := @apply_run _ ⟨1000, 1000, 1000, 1000⟩ ⟨5, 2, []⟩ _ 0 _ _ _
    (bounded 1 100) 3000000 used_held used_reads
  obtain ⟨_,equal⟩ := @quote_recorded_iff _ (bounded 1 100) 2 1 100 _ _ _ _ _ _ _ _ _ _ _ _ _ _ _ _ rfl rfl rfl
    used_held used_reads update report
  have pos := load_nonneg used 3000000
  refine ⟨es,w',es',price,_,update,report,(equal.mpr ?_).2.2⟩
  rw [exceeds_iff pos,reaches_iff pos,used_factor]
  norm_num

end PreconfGateway.Properties.QuotedPrice
