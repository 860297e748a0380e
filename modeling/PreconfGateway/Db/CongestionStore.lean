import Mathlib.Data.List.Nodup
import PreconfGateway.Db.SlotCongestion
import PreconfGateway.Effects
import PreconfGateway.Interleaving.Ledger

/-! Gas adds up in a record as it does outside: one usage after another is one usage of the
saturated sum, and a record reads back from its row as it was written. -/
namespace PreconfGateway.Db
open Types
variable {P : Platform}

theorem toInt64_injective {a b : UInt64} (h : a.toInt64 = b.toInt64) : a = b := by
  rw [← UInt64.toUInt64_toInt64 a,h,UInt64.toUInt64_toInt64]

/-- A sum held to the largest number. -/
def capped (n : Nat) : UInt64 := .ofNat (min n (2 ^ 64 - 1))

theorem capped_toNat (n : Nat) : (capped n).toNat = min n (2 ^ 64 - 1) := by
  unfold capped
  rw [UInt64.toNat_ofNat']
  omega

theorem saturatingAdd_toNat (a b : UInt64) : (saturatingAdd a b).toNat = min (a.toNat + b.toNat) (2 ^ 64 - 1) :=
  capped_toNat _

theorem saturatingAdd_capped (n : Nat) (b : UInt64) : saturatingAdd (capped n) b = capped (n + b.toNat) := by
  apply UInt64.toNat_inj.mp
  rw [saturatingAdd_toNat,capped_toNat,capped_toNat]
  have := b.toNat_lt
  omega

theorem saturatingAdd_assoc (a b c : UInt64) :
    saturatingAdd (saturatingAdd a b) c = saturatingAdd a (saturatingAdd b c) := by
  apply UInt64.toNat_inj.mp
  simp only [saturatingAdd_toNat]
  omega

namespace SlotCongestion
variable (c : SlotCongestion P) (a b : UInt64) (k : P.float.F64)

@[simp] theorem addGasUsage_slot : (c.addGasUsage a k).slot = c.slot := by
  unfold addGasUsage
  dsimp only
  split_ifs <;> rfl

@[simp] theorem addGasUsage_limit : (c.addGasUsage a k).totalGasLimit = c.totalGasLimit := by
  unfold addGasUsage
  dsimp only
  split_ifs <;> rfl

@[simp] theorem addGasUsage_base : (c.addGasUsage a k).baseGasPrice = c.baseGasPrice := by
  unfold addGasUsage
  dsimp only
  split_ifs <;> rfl

@[simp] theorem addGasUsage_start : (c.addGasUsage a k).slotStartTime = c.slotStartTime := by
  unfold addGasUsage
  dsimp only
  split_ifs <;> rfl

@[simp] theorem addGasUsage_gas : (c.addGasUsage a k).preconfirmedGas = saturatingAdd c.preconfirmedGas a := by
  unfold addGasUsage
  dsimp only
  split_ifs <;> rfl

/-- Everything a usage computes depends on the sum of the gas only. -/
theorem addGasUsage_add : (c.addGasUsage a k).addGasUsage b k = c.addGasUsage (saturatingAdd a b) k := by
  by_cases full : c.totalGasLimit = 0
  · simp only [addGasUsage,full,if_true,saturatingAdd_assoc]
  · have both (c' : SlotCongestion P) (limit : c'.totalGasLimit = c.totalGasLimit)
        (base : c'.baseGasPrice = c.baseGasPrice) (slot : c'.slot = c.slot) (start : c'.slotStartTime = c.slotStartTime)
        (gas : c'.preconfirmedGas = saturatingAdd c.preconfirmedGas a) :
        c'.addGasUsage b k = c.addGasUsage (saturatingAdd a b) k := by
      simp only [addGasUsage,limit,base,slot,start,gas,full,if_false,saturatingAdd_assoc]
    exact both _ (addGasUsage_limit c a k) (addGasUsage_base c a k) (addGasUsage_slot c a k)
      (addGasUsage_start c a k) (addGasUsage_gas c a k)

end SlotCongestion

/-- The casts to the columns and back lose nothing, whatever the numbers are. -/
theorem slotCongestionOf_row {c : SlotCongestion P} (start : c.slotStartTime.toNat < 2 ^ 63) :
    slotCongestionOf c.row = .ok c := by
  simp only [slotCongestionOf,SlotCongestion.row,unixEpochPlus,UInt64.toUInt64_toInt64,if_pos start]
  rfl

/-- A row that reads at all reads as a record of this row. -/
theorem slotCongestionOf_ok {row : CongestionRow P} {c : SlotCongestion P} (h : slotCongestionOf row = .ok c) :
    c.row = row ∧ c.slotStartTime.toNat < 2 ^ 63 := by
  unfold slotCongestionOf unixEpochPlus at h
  split at h
  · rename_i start
    cases h
    refine ⟨?_,start⟩
    simp only [SlotCongestion.row,Int64.toInt64_toUInt64]
  · cases h

/-- What an update makes of the row it has locked. -/
def addition (scalingFactor : P.float.F64) (additionalGas : UInt64) (row : CongestionRow P) :
    Option (CongestionRow P) :=
  (((slotCongestionOf row).map (fun c => c.addGasUsage additionalGas scalingFactor)).map SlotCongestion.row).toOption

theorem addition_some {k : P.float.F64} {gas : UInt64} {row new : CongestionRow P}
    (h : addition k gas row = some new) :
    ∃ c, slotCongestionOf row = .ok c ∧ new = (c.addGasUsage gas k).row := by
  unfold addition at h
  cases read : slotCongestionOf row with
  | error e =>
    rw [read] at h
    cases h
  | ok c =>
    rw [read] at h
    cases h
    exact ⟨c,rfl,rfl⟩

/-- A usage writes the whole of what it has computed. -/
theorem written_addition {k : P.float.F64} {gas : UInt64} {row : CongestionRow P} {c : SlotCongestion P}
    (h : slotCongestionOf row = .ok c) : (c.addGasUsage gas k).row.written row = (c.addGasUsage gas k).row := by
  obtain ⟨rfl,_⟩ := slotCongestionOf_ok h
  simp only [CongestionRow.written,SlotCongestion.row,SlotCongestion.addGasUsage_slot,if_true,
    SlotCongestion.addGasUsage_limit,SlotCongestion.addGasUsage_base,SlotCongestion.addGasUsage_start]

@[simp] theorem CongestionRow.written_start (new old : CongestionRow P) :
    (new.written old).slotStartTime = old.slotStartTime := by
  unfold written
  split <;> rfl

namespace Congestion
variable {t : Congestion P} {r row : CongestionRow P} {slot : Int64}

theorem forSlot_slot (h : t.forSlot slot = some row) : row.slot = slot := by
  have found := List.find?_some h
  exact of_decide_eq_true found

theorem forSlot_update : (t.update r).forSlot slot = (t.forSlot slot).map r.written := by
  simp only [forSlot,update,List.find?_map,Function.comp_def,CongestionRow.written_slot]

/-- An update leaves the other slots alone. -/
theorem forSlot_update_other (h : r.slot ≠ slot) : (t.update r).forSlot slot = t.forSlot slot := by
  rw [forSlot_update]
  cases found : t.forSlot slot with
  | none => rfl
  | some row =>
    have other : row.slot ≠ r.slot := by
      rw [forSlot_slot found]
      exact Ne.symm h
    rw [Option.map_some,CongestionRow.written,if_neg other]

theorem forSlot_insert : (t.insert r).2.forSlot slot = (t.forSlot slot).or (if r.slot = slot then some r else none) := by
  unfold insert
  split
  · rename_i taken
    by_cases h : r.slot = slot
    · obtain ⟨old,hold,same⟩ := List.mem_map.mp taken
      have some : (t.forSlot slot).isSome := List.find?_isSome.mpr ⟨old,hold,by simp [same,h]⟩
      obtain ⟨row,hrow⟩ := Option.isSome_iff_exists.mp some
      rw [hrow,Option.some_or]
    · rw [if_neg h,Option.or_none]
  · simp only [forSlot,List.find?_append,List.find?_singleton,decide_eq_true_eq]

/-- Whether an insert is new is whether its slot has no row yet. -/
theorem insert_new : (t.insert r).1 = (t.forSlot r.slot).isNone := by
  have taken : (t.forSlot r.slot).isNone = !decide (r.slot ∈ t.rows.map CongestionRow.slot) := by
    rw [Bool.eq_iff_iff,Option.isNone_iff_eq_none,forSlot,List.find?_eq_none]
    simp only [decide_eq_true_eq,List.mem_map,Bool.not_eq_true',decide_eq_false_iff_not,not_exists,not_and]
  rw [taken]
  unfold insert
  split <;> simp [*]

theorem mem_insert (h : r ∈ (t.insert row).2.rows) : r ∈ t.rows ∨ r = row := by
  unfold insert at h
  split at h
  · exact .inl h
  · exact (List.mem_append.mp h).imp_right List.mem_singleton.mp

theorem insert_taken (h : t.forSlot r.slot = some row) : t.insert r = (false, t) := by
  have taken : r.slot ∈ t.rows.map CongestionRow.slot :=
    List.mem_map.mpr ⟨row,List.mem_of_find?_eq_some h,forSlot_slot h⟩
  exact dif_pos taken

theorem slot_injective {r r' : CongestionRow P} (hr : r ∈ t.rows) (hr' : r' ∈ t.rows) (h : r.slot = r'.slot) :
    r = r' := List.inj_on_of_nodup_map t.slots hr hr' h

end Congestion
end PreconfGateway.Db

namespace PreconfGateway
open Types Db Interleaving
variable {P : Platform} {limits : Limits} {relay : ConstraintsApiConfig} {t : Nat} {w w' : World P}

theorem Answers.insertCongestion {row : CongestionRow P} {new : Bool}
    (h : (world P limits relay).Answers t w (.plain (.sql (.insertCongestion row))) (.ok new) w') :
    new = (w.congestion.insert row).1 ∧ w'.congestion = (w.congestion.insert row).2 := by
  obtain ⟨c,hx⟩ := Answers.executed h
  cases c <;> cases hx
  exact ⟨rfl,rfl⟩

theorem Answers.selectCongestion {slot : Int64} {row : Option (CongestionRow P)}
    (h : (world P limits relay).Answers t w (.plain (.sql (.selectCongestion slot))) (.ok row) w') :
    row = w.congestion.forSlot slot ∧ w' = w := by
  obtain ⟨c,hx⟩ := Answers.executed h
  cases c <;> cases hx
  exact ⟨rfl,rfl⟩

/-- An update that answers has found its row, and has written what it made of it. -/
theorem Answers.updateCongestion {slot : Int64} {change : CongestionRow P → Option (CongestionRow P)}
    {row : Option (CongestionRow P)}
    (h : (world P limits relay).Answers t w (.plain (.sql (.updateCongestion slot change))) (.ok row) w') :
    row = w.congestion.forSlot slot ∧
      ∀ new, row.bind change = some new → w'.congestion = w.congestion.update new := by
  obtain ⟨c,hx⟩ := Answers.executed h
  cases c <;> cases hx
  refine ⟨rfl,fun new made => ?_⟩
  rw [made]

end PreconfGateway
