import Mathlib.Data.List.Induction
import PreconfGateway.Arithmetic.Pole
import PreconfGateway.Db.CongestionStore
import PreconfGateway.Fixture

/-! The price in a record as a curve over the gas that was added, reckoned in fractions. -/
namespace PreconfGateway.Properties.PriceCurve
open Db Fixture Arithmetic
variable {P : Platform}

/-- The fee formula in exact fractions. -/
abbrev rationally (P : Platform) : Platform := { P with float := floating }

/-- An integer as the scaling factor. -/
def scaling (P : Platform) (k : Nat) : (rationally P).float.F64 := (k : Rat)

/-- A fresh record after these usages. -/
def after (P : Platform) (slot base limit start : UInt64) (k : Nat) (gases : List UInt64) :
    SlotCongestion (rationally P) :=
  gases.foldl (fun c gas => c.addGasUsage gas (scaling P k)) (.new slot base limit start)

/-- All the gas that was added, with nothing lost to saturation. -/
def total (gases : List UInt64) : Nat := (gases.map UInt64.toNat).sum

/-- The price of a unit of gas: rounded up, and cast. -/
def charged (base : UInt64) (m : Rat) : UInt64 := .ofNat (min ((base.toNat : Rat) * m).ceil.toNat (2 ^ 64 - 1))

section Charged
variable {base : UInt64} {m n : Rat}

theorem charged_toNat : (charged base m).toNat = min ((base.toNat : Rat) * m).ceil.toNat (2 ^ 64 - 1) := capped_toNat _

theorem charged_mono (le : m ≤ n) : charged base m ≤ charged base n := by
  have scaled : (base.toNat : Rat) * m ≤ (base.toNat : Rat) * n := mul_le_mul_of_nonneg_left le (Nat.cast_nonneg _)
  have ceiled : ((base.toNat : Rat) * m).ceil ≤ ((base.toNat : Rat) * n).ceil :=
    Rat.ceil_le_iff.mpr (scaled.trans Rat.le_ceil)
  rw [UInt64.le_iff_toNat_le,charged_toNat,charged_toNat]
  omega

theorem charged_one : charged base 1 = base := by
  have whole : ((base.toNat : Rat) * 1).ceil = (base.toNat : Int) := by
    rw [mul_one]
    exact Rat.ceil_intCast base.toNat
  apply UInt64.toNat_inj.mp
  rw [charged_toNat,whole,Int.toNat_natCast]
  have := base.toNat_lt
  omega

theorem charged_hundred_le (le : m ≤ 100) : (charged base m).toNat ≤ 100 * base.toNat := by
  have scaled : (base.toNat : Rat) * m ≤ ((100 * base.toNat : Nat) : Rat) := by
    push_cast
    rw [mul_comm (100 : Rat)]
    exact mul_le_mul_of_nonneg_left le (Nat.cast_nonneg _)
  have ceiled : ((base.toNat : Rat) * m).ceil ≤ ((100 * base.toNat : Nat) : Int) := Rat.ceil_le_iff.mpr scaled
  rw [charged_toNat]
  omega

end Charged

/-- The share of the limit that is used. -/
def usage (c : SlotCongestion (rationally P)) : Rat := (c.preconfirmedGas.toNat : Rat) / c.totalGasLimit.toNat

theorem usage_nonneg (c : SlotCongestion (rationally P)) : 0 ≤ usage c :=
  div_nonneg (Nat.cast_nonneg _) (Nat.cast_nonneg _)

/-- Ratio, multiplier and price are those of the curve at the gas of the record. -/
structure OnCurve (k : Nat) (c : SlotCongestion (rationally P)) : Prop where
  ratio : c.gasUsedRatio = usage c
  multiplier : c.calculatedFeeMultiplier = pole (100 : Rat) k (usage c)
  price : c.currentTxPrice = charged c.baseGasPrice (pole 100 k (usage c))

private theorem floor_nat (k : Nat) : (k : Rat).floor.toNat = k := by
  have floor : (k : Rat).floor = (k : Int) := Rat.floor_intCast k
  rw [floor,Int.toNat_natCast]

section Usage
variable {k : Nat} {r m : Rat} {base : UInt64}

/-- The multiplier for a ratio, step by step as it is computed. -/
def multiplierFor (k : Nat) (r : Rat) : Rat :=
  let raw : Rat := if 1 ≤ r then 100 else 1 / (1 - r ^ k)
  if raw < 1 then 1 else if 100 < raw then 100 else raw

theorem multiplierFor_pole (hk : 1 ≤ k) (pos : 0 ≤ r) : multiplierFor k r = pole 100 k r := by
  unfold multiplierFor
  rcases lt_or_ge r 1 with less | more
  · have one := one_le_rise hk pos less
    rw [if_neg (not_le.mpr less),if_neg (not_lt.mpr one),pole_below less]
    split
    · rename_i high
      exact (min_eq_left high.le).symm
    · rename_i high
      exact (min_eq_right (not_lt.mp high)).symm
  · rw [if_pos more,pole_from more]
    norm_num

/-- What is computed from the share, as the platform spells it. -/
private theorem addGasUsage_spelt (c : SlotCongestion (rationally P)) (gas : UInt64) (limit : c.totalGasLimit ≠ 0)
    {q x y : Rat} (hq : q = ((saturatingAdd c.preconfirmedGas gas).toNat : Rat) / c.totalGasLimit.toNat)
    (hx : x = if q ≤ ((0 : Nat) : Rat) then ((0 : Nat) : Rat) else q)
    (hy : y = if decide (((1 : Nat) : Rat) ≤ x) = true then ((100 : Nat) : Rat)
      else ((1 : Nat) : Rat) / (((1 : Nat) : Rat) - x ^ (k : Rat).floor.toNat))
    (hm : m = if decide (y < ((1 : Nat) : Rat)) = true then ((1 : Nat) : Rat)
      else if decide (((100 : Nat) : Rat) < y) = true then ((100 : Nat) : Rat) else y) :
    (c.addGasUsage gas (scaling P k)).gasUsedRatio = x ∧ (c.addGasUsage gas (scaling P k)).calculatedFeeMultiplier = m ∧
      (c.addGasUsage gas (scaling P k)).currentTxPrice =
        if decide ((c.baseGasPrice.toNat : Rat) * m < ((0 : Nat) : Rat)) = true then saturatingMul c.baseGasPrice 100
          else .ofNat (min (((c.baseGasPrice.toNat : Rat) * m).ceil : Rat).floor.toNat (2 ^ 64 - 1)) := by
  subst hm hy hx hq
  unfold SlotCongestion.addGasUsage
  simp only [if_neg limit]
  exact ⟨rfl,rfl,rfl⟩

/-- The record after a usage, with the numbers of the platform read as fractions. -/
theorem addGasUsage_fractions (c : SlotCongestion (rationally P)) (gas : UInt64) (limit : c.totalGasLimit ≠ 0) :
    let c' := c.addGasUsage gas (scaling P k)
    let r : Rat := max (usage c') 0
    c'.gasUsedRatio = r ∧ c'.calculatedFeeMultiplier = multiplierFor k r ∧
      c'.currentTxPrice = if (c.baseGasPrice.toNat : Rat) * multiplierFor k r < 0 then saturatingMul c.baseGasPrice 100
        else charged c.baseGasPrice (multiplierFor k r) := by
  have used : usage (c.addGasUsage gas (scaling P k)) =
      ((saturatingAdd c.preconfirmedGas gas).toNat : Rat) / c.totalGasLimit.toNat := by
    rw [usage,SlotCongestion.addGasUsage_gas,SlotCongestion.addGasUsage_limit]
  have spelt := addGasUsage_spelt (k := k) c gas limit used rfl rfl rfl
  simp only [Nat.cast_zero,Nat.cast_one,Nat.cast_ofNat,decide_eq_true_eq,floor_nat,Rat.floor_intCast] at spelt
  dsimp only
  rw [max_def]
  exact spelt

/-- Adding gas leads to the point of the curve for the sum. -/
theorem addGasUsage_onCurve (c : SlotCongestion (rationally P)) (gas : UInt64) (limit : c.totalGasLimit ≠ 0) (hk : 1 ≤ k) :
    OnCurve k (c.addGasUsage gas (scaling P k)) := by
  have pos := usage_nonneg (c.addGasUsage gas (scaling P k))
  obtain ⟨ratio,multiplier,price⟩ := addGasUsage_fractions (k := k) c gas limit
  rw [max_eq_left pos] at ratio multiplier price
  rw [multiplierFor_pole hk pos] at multiplier price
  refine ⟨ratio,multiplier,?_⟩
  have one : 1 ≤ pole (100 : Rat) k (usage (c.addGasUsage gas (scaling P k))) := one_le_pole (by norm_num) hk pos
  have nonneg : 0 ≤ (c.baseGasPrice.toNat : Rat) * pole 100 k (usage (c.addGasUsage gas (scaling P k))) :=
    mul_nonneg (Nat.cast_nonneg _) (zero_le_one.trans one)
  rw [price,if_neg (not_lt.mpr nonneg),SlotCongestion.addGasUsage_base]

end Usage

/-- The share as it is recorded. -/
def ratio (c : SlotCongestion (rationally P)) : Rat := c.gasUsedRatio

/-- The multiplier as a fraction. -/
def multiplier (c : SlotCongestion (rationally P)) : Rat := c.calculatedFeeMultiplier

/-- What the formula divides by when the ratio is that of the record. -/
def denominator (k : Nat) (c : SlotCongestion (rationally P)) : Rat :=
  floating.sub (floating.literal 1) (floating.powf c.gasUsedRatio (scaling P k))

theorem denominator_eq (k : Nat) (c : SlotCongestion (rationally P)) : denominator k c = 1 - ratio c ^ k := by
  change ((1 : Nat) : Rat) - ratio c ^ (k : Rat).floor.toNat = _
  rw [floor_nat,Nat.cast_one]

section Runs
variable {slot base limit start : UInt64} {k : Nat}

theorem after_snoc (gases : List UInt64) (gas : UInt64) : after P slot base limit start k (gases ++ [gas]) =
    (after P slot base limit start k gases).addGasUsage gas (scaling P k) := List.foldl_append

theorem total_snoc (gases : List UInt64) (gas : UInt64) : total (gases ++ [gas]) = total gases + gas.toNat := by
  simp [total]

/-- The base and the limit stay, and the gas adds up until the counter is full. -/
theorem after_kept (gases : List UInt64) : (after P slot base limit start k gases).baseGasPrice = base ∧
    (after P slot base limit start k gases).totalGasLimit = limit ∧
      (after P slot base limit start k gases).preconfirmedGas = capped (total gases) := by
  induction gases using List.reverseRecOn with
  | nil => exact ⟨rfl,rfl,rfl⟩
  | append_singleton gases gas ih =>
    obtain ⟨sameBase,sameLimit,gasSum⟩ := ih
    rw [after_snoc,SlotCongestion.addGasUsage_base,SlotCongestion.addGasUsage_limit,SlotCongestion.addGasUsage_gas]
    refine ⟨sameBase,sameLimit,?_⟩
    rw [gasSum,saturatingAdd_capped,total_snoc]

theorem after_onCurve (limited : limit ≠ 0) (hk : 1 ≤ k) (gases : List UInt64) :
    OnCurve k (after P slot base limit start k gases) := by
  induction gases using List.reverseRecOn with
  | nil =>
    have unused : usage (after P slot base limit start k []) = 0 := by
      change ((0 : Nat) : Rat) / (limit.toNat : Rat) = 0
      rw [Nat.cast_zero,zero_div]
    have flat : pole (100 : Rat) k 0 = 1 := pole_zero (by norm_num) hk
    refine ⟨?_,?_,?_⟩
    · rw [unused]
      exact Nat.cast_zero (R := Rat)
    · rw [unused,flat]
      exact Nat.cast_one (R := Rat)
    · rw [unused,flat]
      exact charged_one.symm
  | append_singleton gases gas ih =>
    rw [after_snoc]
    apply addGasUsage_onCurve _ _ _ hk
    rw [(after_kept gases).2.1]
    exact limited

theorem after_usage (gases : List UInt64) :
    usage (after P slot base limit start k gases) = ((capped (total gases)).toNat : Rat) / limit.toNat := by
  obtain ⟨_,sameLimit,gasSum⟩ := @after_kept P slot base limit start k gases
  rw [usage,sameLimit,gasSum]

/-- More gas is a larger share, or the same where the counter is full. -/
theorem usage_mono {gases gases' : List UInt64} (more : total gases ≤ total gases') :
    usage (after P slot base limit start k gases) ≤ usage (after P slot base limit start k gases') := by
  rw [after_usage,after_usage]
  apply div_le_div_of_nonneg_right _ (Nat.cast_nonneg _)
  rw [Nat.cast_le,capped_toNat,capped_toNat]
  omega

end Runs

/-- The price of a fresh record under any usages: it keeps to its bounds, never falls when there is
more gas, is never higher for a larger exponent, and never comes from a division by zero. -/
theorem price_curve (slot base start : UInt64) {limit : UInt64} {k : Nat} (limited : limit ≠ 0) (hk : 1 ≤ k)
    (gases : List UInt64) :
    (1 ≤ multiplier (after P slot base limit start k gases) ∧ multiplier (after P slot base limit start k gases) ≤ 100) ∧
    (base ≤ (after P slot base limit start k gases).currentTxPrice ∧
      (after P slot base limit start k gases).currentTxPrice.toNat ≤ 100 * base.toNat) ∧
    (∀ gases', total gases ≤ total gases' →
      multiplier (after P slot base limit start k gases) ≤ multiplier (after P slot base limit start k gases') ∧
      (after P slot base limit start k gases).currentTxPrice ≤ (after P slot base limit start k gases').currentTxPrice) ∧
    (∀ l, k ≤ l → multiplier (after P slot base limit start l gases) ≤ multiplier (after P slot base limit start k gases) ∧
      (after P slot base limit start l gases).currentTxPrice ≤ (after P slot base limit start k gases).currentTxPrice) ∧
    ∀ gas, ratio (after P slot base limit start k (gases ++ [gas])) < 1 →
      denominator k (after P slot base limit start k (gases ++ [gas])) ≠ 0 := by
  have curve (l : Nat) (hl : 1 ≤ l) (gases : List UInt64) : OnCurve l (after P slot base limit start l gases) :=
    after_onCurve limited hl gases
  have value (l : Nat) (hl : 1 ≤ l) (gases : List UInt64) : multiplier (after P slot base limit start l gases) =
      pole 100 l (usage (after P slot base limit start l gases)) := (curve l hl gases).multiplier
  have price (l : Nat) (hl : 1 ≤ l) (gases : List UInt64) : (after P slot base limit start l gases).currentTxPrice =
      charged base (pole 100 l (usage (after P slot base limit start l gases))) := by
    rw [(curve l hl gases).price,(after_kept gases).1]
  have low : 1 ≤ pole 100 k (usage (after P slot base limit start k gases)) :=
    one_le_pole (by norm_num) hk (usage_nonneg _)
  rw [value k hk,price k hk]
  refine ⟨⟨low,pole_le⟩,⟨?_,charged_hundred_le pole_le⟩,?_,?_,?_⟩
  · have floor : charged base 1 ≤ charged base (pole 100 k (usage (after P slot base limit start k gases))) :=
      charged_mono low
    rwa [charged_one] at floor
  · intro gases' more
    have rises : pole (100 : Rat) k (usage (after P slot base limit start k gases)) ≤
        pole 100 k (usage (after P slot base limit start k gases')) := pole_mono hk (usage_nonneg _) (usage_mono more)
    rw [value k hk,price k hk]
    exact ⟨rises,charged_mono rises⟩
  · intro l le
    have same : usage (after P slot base limit start l gases) = usage (after P slot base limit start k gases) := by
      rw [after_usage,after_usage]
    have bends : pole (100 : Rat) l (usage (after P slot base limit start k gases)) ≤
        pole 100 k (usage (after P slot base limit start k gases)) := pole_anti hk le (usage_nonneg _)
    rw [value l (hk.trans le),price l (hk.trans le),same]
    exact ⟨bends,charged_mono bends⟩
  · intro gas less
    have denominator_ := denominator_eq k (after P slot base limit start k (gases ++ [gas]))
    have recorded : ratio (after P slot base limit start k (gases ++ [gas])) =
      usage (after P slot base limit start k (gases ++ [gas])) := (curve k hk (gases ++ [gas])).ratio
    rw [denominator_]
    rw [recorded] at less ⊢
    exact (pole_denominator hk (usage_nonneg _) less).ne'

/-- Half of the usual limit and then all of it, at one gwei. -/
theorem price_curve_gwei :
    multiplier (after (platform []) 5 1000000000 30000000 60 2 [15000000]) ≤
      multiplier (after (platform []) 5 1000000000 30000000 60 2 [15000000,15000000]) ∧
    ((after (platform []) 5 1000000000 30000000 60 2 [15000000]).currentTxPrice = 1333333334) := by
  obtain ⟨_,_,rises,_,_⟩ := @price_curve (platform []) 5 1000000000 60 30000000 2 (by decide)
    (by decide) [15000000]
  refine ⟨(rises [15000000,15000000] (by decide)).1,?_⟩
  decide +kernel

end PreconfGateway.Properties.PriceCurve
