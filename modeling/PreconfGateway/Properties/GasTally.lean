import Mathlib.Algebra.GroupWithZero.Nat
import PreconfGateway.Db.CongestionStore
import PreconfGateway.Fixture

/-! The store of congestion records on its own: any number of creations and usages, in
any interleaving, leave for each slot the record of one creation with all the gas. -/
namespace PreconfGateway.Properties.GasTally
open Encoding Types Db Interleaving Fixture
variable {P : Platform} {limits : Limits} {relay : ConstraintsApiConfig} {k : P.float.F64}

inductive Call
  | create (slot baseGasPrice totalGasLimit genesisTime : UInt64)
  | update (slot additionalGas : UInt64)
  deriving DecidableEq

/-- Calls from anywhere with anything, but for one scaling factor. -/
def store (limits : Limits) (relay : ConstraintsApiConfig) (k : P.float.F64) :
    System (requests P) (World P) Call (Except Fault (SlotCongestion P)) where
  toMachine := world P limits relay
  code
    | .create slot base limit genesis => getOrCreateSlotCongestion slot base limit genesis
    | .update slot gas => updateSlotCongestionGasUsage slot gas k
  admits _ _ _ := True
  together _ _ := True
  permits _ _ _ := True
  droppable _ _ := True

/-- The record that a creation starts from. -/
inductive Fresh : Call → SlotCongestion P → Prop
  | intro (slot base limit genesis start : UInt64)
      (h : unixEpochPlus (saturatingAdd genesis (saturatingMul slot 12)) = .ok start) :
      Fresh (.create slot base limit genesis) (.new slot base limit start)

/-- The repertoire of each call. -/
inductive Asks (k : P.float.F64) : Call → Query P → Prop
  | insert (call : Call) (c : SlotCongestion P) (h : Fresh call c) : Asks k call (.sql (.insertCongestion c.row))
  | select (slot base limit genesis : UInt64) :
      Asks k (.create slot base limit genesis) (.sql (.selectCongestion slot.toInt64))
  | update (slot gas : UInt64) :
      Asks k (.update slot gas) (.sql (.updateCongestion slot.toInt64 (addition k gas)))

/-- What a row was created with stays as long as the row, and the row stays. -/
def Keeps (a b : World P) : Prop :=
  ∀ slot row, a.congestion.forSlot slot = some row → ∃ row', b.congestion.forSlot slot = some row' ∧
    row'.totalGasLimit = row.totalGasLimit ∧ row'.baseGasPrice = row.baseGasPrice ∧
      row'.slotStartTime = row.slotStartTime

theorem Keeps.refl (a : World P) : Keeps a a := fun _ row h => ⟨row,h,rfl,rfl,rfl⟩

theorem Keeps.trans {a b c : World P} (h : Keeps a b) (h' : Keeps b c) : Keeps a c := by
  intro slot row hrow
  obtain ⟨row',hrow',limit,base,start⟩ := h slot row hrow
  obtain ⟨row'',hrow'',limit',base',start'⟩ := h' slot row' hrow'
  exact ⟨row'',hrow'',limit'.trans limit,base'.trans base,start'.trans start⟩

/-- The event of an update that has taken effect. -/
def Took (k : P.float.F64) (slot gas : UInt64) (e : Event (requests P) (World P)) : Prop :=
  ∃ row, (e.pre.congestion.forSlot slot.toInt64).bind (addition k gas) = some row ∧
    e.post.congestion = e.pre.congestion.update row

/-- The record that the table has for a slot. -/
def Observed (slot : UInt64) (c : SlotCongestion P) (w : World P) : Prop :=
  ∃ row, w.congestion.forSlot slot.toInt64 = some row ∧ slotCongestionOf row = .ok c

/-- What a call that succeeds has seen, and for an update what it has done. -/
def Returns (k : P.float.F64) (call : Call) (tr : List (Event (requests P) (World P)))
    (r : Except Fault (SlotCongestion P)) (w : World P) (_ : Nat) : Prop :=
  ∀ c, r = .ok c → match call with
    | .create slot _ _ _ => Observed slot c w
    | .update slot gas => Observed slot c w ∧ ∃ e ∈ tr, Took k slot gas e

def keeping (k : P.float.F64) (call : Call) : Contract (requests P) (World P) where
  inv _ := True
  rely := Keeps
  permits _ _ := True
  starts _ _ _ _ := True
  guarantee _ e := Asks k call e.op.query
  rely_refl := Keeps.refl
  rely_trans := Keeps.trans
  starts_rely h _ := h

theorem Fresh.start {call : Call} {c : SlotCongestion P} (h : Fresh call c) : c.slotStartTime.toNat < 2 ^ 63 := by
  obtain ⟨_,_,_,_,_,started⟩ := h
  unfold unixEpochPlus at started
  split at started
  · rename_i small
    cases started
    exact small
  · cases started

/-- Looking a record up returns what the table has. -/
private theorem existing_safe {call : Call} {slot base limit genesis : UInt64} (hcall : call = .create slot base limit genesis)
    {tr : List (Event (requests P) (World P))} {w : World P} {t : Nat} :
    (keeping k call).Safe (world P limits relay) (fun _ r w _ => ∀ c, r = .ok (some c) → Observed slot c w)
      (getSlotCongestion slot) tr w t := by
  subst hcall
  refine Gateway.safe_request trivial fun w₁ u r w₂ _ _ _ _ answers _ => ⟨.select _ _ _ _,?_⟩
  rcases r with e | found
  · exact Contract.Safe.ret fun c hc => nomatch hc
  · obtain ⟨hfound,rfl⟩ := Answers.selectCongestion answers
    cases found with
    | none => exact Contract.Safe.ret fun c hc => nomatch hc
    | some row =>
      refine Contract.Safe.ret fun c hc => ⟨row,hfound.symm,?_⟩
      cases read : slotCongestionOf row with
      | error e =>
        rw [read] at hc
        cases hc
      | ok c' =>
        rw [read] at hc
        cases hc
        rfl

theorem Fresh.gas {call : Call} {c : SlotCongestion P} (h : Fresh call c) : c.preconfirmedGas = 0 := by
  obtain ⟨_,_,_,_,_,_⟩ := h
  rfl

private theorem create_safe {slot base limit genesis : UInt64} {w : World P} {t : Nat} :
    (keeping k (.create slot base limit genesis)).Safe (world P limits relay) (Returns k (.create slot base limit genesis))
      (getOrCreateSlotCongestion slot base limit genesis) [] w t := by
  unfold getOrCreateSlotCongestion
  dsimp only
  split
  · exact Contract.Safe.ret fun c hc => nomatch hc
  · rename_i start started
    have fresh : Fresh (P := P) (.create slot base limit genesis) (.new slot base limit start) := .intro _ _ _ _ _ started
    split
    · exact Contract.Safe.ret fun c hc => nomatch hc
    · refine Gateway.safe_request trivial fun w₁ u r w₂ _ _ _ _ answers _ => ⟨.insert _ _ fresh,?_⟩
      rcases r with e | new
      · exact Contract.Safe.ret fun c hc => nomatch hc
      · cases new with
        | true =>
          obtain ⟨isNew,after⟩ := Answers.insertCongestion answers
          refine Contract.Safe.ret fun c hc => ?_
          cases hc
          rw [Congestion.insert_new] at isNew
          refine ⟨_,?_,slotCongestionOf_row fresh.start⟩
          have absent := Option.isNone_iff_eq_none.mp isNew.symm
          rw [after,Congestion.forSlot_insert]
          change w₁.congestion.forSlot slot.toInt64 = none at absent
          rw [absent]
          exact if_pos rfl
        | false =>
          refine (existing_safe rfl).bind fun tr r w t found => ?_
          rcases r with e | existing
          · exact Contract.Safe.ret fun c hc => nomatch hc
          · cases existing with
            | none => exact Contract.Safe.ret fun c hc => nomatch hc
            | some c =>
              refine Contract.Safe.ret fun c' hc => ?_
              cases hc
              exact found c rfl

private theorem update_safe {slot gas : UInt64} {w : World P} {t : Nat} :
    (keeping k (.update slot gas)).Safe (world P limits relay) (Returns k (.update slot gas))
      (updateSlotCongestionGasUsage slot gas k) [] w t := by
  refine Gateway.safe_request trivial fun w₁ u r w₂ _ _ _ _ answers _ => ⟨.update _ _,?_⟩
  rcases r with e | found
  · exact Contract.Safe.ret fun c hc => nomatch hc
  · obtain ⟨hfound,effect⟩ := Answers.updateCongestion answers
    cases found with
    | none => exact Contract.Safe.ret fun c hc => nomatch hc
    | some row =>
      refine Contract.Safe.ret fun c hc => ?_
      change (slotCongestionOf row).map (fun c => c.addGasUsage gas k) = .ok c at hc
      cases read : slotCongestionOf row with
      | error e =>
        rw [read] at hc
        cases hc
      | ok old =>
        rw [read] at hc
        cases hc
        have made : addition k gas row = some (old.addGasUsage gas k).row := by
          rw [addition,read]
          rfl
        have after := effect _ made
        refine ⟨⟨_,?_,slotCongestionOf_row ?_⟩,_,List.mem_cons_self,⟨_,?_,after⟩⟩
        · rw [after,Congestion.forSlot_update,← hfound,Option.map_some,written_addition read]
        · rw [SlotCongestion.addGasUsage_start]
          exact (slotCongestionOf_ok read).2
        · rw [← hfound]
          exact made

/-- Whatever is asked, a row stays with what it was created with. -/
theorem keeps_of_changes {q : Query P} {w w' : World P} (h : Changes w q w') : Keeps w w' := by
  cases h with
  | recorded row =>
    intro slot old hold
    refine ⟨old,?_,rfl,rfl,rfl⟩
    rw [Congestion.forSlot_insert,hold,Option.some_or]
  | counted slot change new found =>
    intro other row hrow
    refine ⟨new.written row,?_,?_⟩
    · rw [Congestion.forSlot_update,hrow,Option.map_some]
    · unfold CongestionRow.written
      split <;> exact ⟨rfl,rfl,rfl⟩
  | same | inserted | marked | stored | switchedOff | taken => exact Keeps.refl _

theorem store_verified (limits : Limits) (relay : ConstraintsApiConfig) (k : P.float.F64) :
    Verified (store limits relay k) (keeping k) Keeps (Returns k) where
  refl := Keeps.refl
  trans := Keeps.trans
  permits _ _ _ h := h
  start call t w _ _ := by
    cases call with
    | create slot base limit genesis => exact create_safe
    | update slot gas => exact update_safe
  step _ _ _ _ answers _ _ :=
    have keeps := keeps_of_changes (Changes.of_answers answers)
    ⟨fun _ => trivial,keeps,fun _ _ => keeps⟩

abbrev Log (P : Platform) := List (Entry (requests P) (World P) Call)

open Classical in
/-- The gas that an entry has added to a slot. -/
noncomputable def added (k : P.float.F64) (slot : UInt64) (entry : Entry (requests P) (World P) Call) : Option UInt64 :=
  match entry.job with
  | .create _ _ _ _ => none
  | .update other gas => if other = slot ∧ Took k slot gas entry.event then some gas else none

/-- The gas of all updates of a slot that have taken effect. -/
noncomputable def usages (k : P.float.F64) (slot : UInt64) (log : Log P) : List UInt64 := log.filterMap (added k slot)

/-- A record with a list of usages: as it was, or with their sum as one usage. -/
def used (k : P.float.F64) (c : SlotCongestion P) (gases : List UInt64) : SlotCongestion P :=
  if gases = [] then c else c.addGasUsage (capped (gases.map UInt64.toNat).sum) k

theorem used_cons (c : SlotCongestion P) (gas : UInt64) (gases : List UInt64) :
    used k c (gas :: gases) = (used k c gases).addGasUsage gas k := by
  have single : capped gas.toNat = gas := by
    apply UInt64.toNat_inj.mp
    rw [capped_toNat]
    have := gas.toNat_lt
    omega
  unfold used
  rw [if_neg (List.cons_ne_nil _ _),List.map_cons,List.sum_cons]
  split
  · rename_i none
    rw [none,List.map_nil,List.sum_nil,Nat.add_zero,single]
  · rw [SlotCongestion.addGasUsage_add,saturatingAdd_capped,Nat.add_comm]

theorem used_start (c : SlotCongestion P) (gases : List UInt64) : (used k c gases).slotStartTime = c.slotStartTime := by
  unfold used
  split
  · rfl
  · exact SlotCongestion.addGasUsage_start _ _ _

theorem used_gas {c : SlotCongestion P} (empty : c.preconfirmedGas = 0) (gases : List UInt64) :
    (used k c gases).preconfirmedGas.toNat = min (gases.map UInt64.toNat).sum (2 ^ 64 - 1) := by
  unfold used
  split
  · rename_i none
    rw [none,empty]
    rfl
  · rw [SlotCongestion.addGasUsage_gas,empty,saturatingAdd_toNat,capped_toNat]
    change min (0 + min _ _) _ = _
    omega

/-- The creation that gave a slot its row. -/
structure Winner (slot : UInt64) (c : SlotCongestion P) (log : Log P) (entry : Entry (requests P) (World P) Call) : Prop where
  mem : entry ∈ log
  fresh : Fresh entry.job c
  slot_eq : c.slot = slot
  first : entry.event.pre.congestion.forSlot slot.toInt64 = none
  placed : entry.event.post.congestion.forSlot slot.toInt64 = some c.row

section Step
variable {slot : UInt64} {past : Log P} {entry : Entry (requests P) (World P) Call}

end Step

section Reached
variable {w₀ : World P} {s : State (requests P) (World P) Call (Except Fault (SlotCongestion P))} {slot : UInt64}
  {log : Log P}

/-- Every event of a run keeps what the rows were created with. -/
theorem evolved (hr : Reachable (store limits relay k) w₀ s) {id : Nat} {job : Call} {e : Event (requests P) (World P)}
    (saw : s.Saw id job e) : Keeps e.pre e.post := by
  obtain ⟨task,ht,_,seen⟩ := saw
  have sound := (store_verified limits relay k).sound (fun _ => trivial) hr
  obtain ⟨_,_,_,_,_,answers,_⟩ := (sound.tasks _ task ht).kept.mem seen
  exact keeps_of_changes (Changes.of_answers answers)

/-- A slot is given its row once. -/
theorem single (hr : Reachable (store limits relay k) w₀ s) (logged : s.Logged w₀ log)
    {a b : Entry (requests P) (World P) Call} (ha : a ∈ log) (hb : b ∈ log)
    (noa : a.event.pre.congestion.forSlot slot.toInt64 = none)
    (seta : a.event.post.congestion.forSlot slot.toInt64 ≠ none)
    (nob : b.event.pre.congestion.forSlot slot.toInt64 = none)
    (setb : b.event.post.congestion.forSlot slot.toInt64 ≠ none) : a = b := by
  have stays (w w' : World P) (keeps : Keeps w w') (some : w.congestion.forSlot slot.toInt64 ≠ none) :
      w'.congestion.forSlot slot.toInt64 ≠ none := by
    obtain ⟨row,hrow⟩ := Option.ne_none_iff_exists'.mp some
    obtain ⟨row',hrow',_⟩ := keeps _ _ hrow
    rw [hrow']
    nofun
  obtain ⟨hid,he⟩ := (store_verified limits relay k).claimed_once (fun _ => trivial) hr
    (fun w => w.congestion.forSlot slot.toInt64 ≠ none) stays (logged.saw ha) (logged.saw hb) (by simpa using noa) seta
    (by simpa using nob) setb
  obtain ⟨task,ht,job⟩ := logged.jobs a ha
  obtain ⟨task',ht',job'⟩ := logged.jobs b hb
  rw [hid] at ht
  cases ht.symm.trans ht'
  obtain ⟨aid,ajob,aevent⟩ := a
  obtain ⟨bid,bjob,bevent⟩ := b
  dsimp only at hid he job job'
  subst hid he job
  rw [job']

/-- What a call has returned was the record of its slot, and its row has kept what it was created with. -/
theorem returned (hr : Reachable (store limits relay k) w₀ s) {id : Nat} {c : SlotCongestion P}
    {task : Task (requests P) (World P) Call (Except Fault (SlotCongestion P))} (ht : s.tasks id = some task)
    (done : task.program = .ret (.ok c)) :
    (∀ base limit genesis, task.job = .create slot base limit genesis → ∃ row,
      s.world.congestion.forSlot slot.toInt64 = some row ∧ row.baseGasPrice = c.baseGasPrice.toInt64 ∧
        row.totalGasLimit = c.totalGasLimit.toInt64) ∧
    ∀ gas, task.job = .update slot gas → (∃ e ∈ task.trace, Took k slot gas e) ∧
      s.world.congestion.forSlot slot.toInt64 ≠ none := by
  have sound := (store_verified limits relay k).sound (fun _ => trivial) hr
  obtain ⟨w,keeps,returns⟩ := (sound.tasks id task ht).finished _ done
  have now := returns c rfl
  have carried {w : World P} (keeps : Keeps w s.world) (seen : Observed slot c w) : ∃ row,
      s.world.congestion.forSlot slot.toInt64 = some row ∧ row.baseGasPrice = c.baseGasPrice.toInt64 ∧
        row.totalGasLimit = c.totalGasLimit.toInt64 := by
    obtain ⟨row,hrow,read⟩ := seen
    obtain ⟨row',hrow',limit,base,_⟩ := keeps _ _ hrow
    obtain ⟨rfl,_⟩ := slotCongestionOf_ok read
    exact ⟨row',hrow',base,limit⟩
  constructor
  · intro base limit genesis job
    rw [job] at now
    exact carried keeps now
  · intro gas job
    rw [job] at now
    obtain ⟨row,hrow,_⟩ := carried keeps now.1
    exact ⟨now.2,by rw [hrow]; nofun⟩

end Reached

/-- The row of a slot: who created it, what it holds, and that nothing is lost on the way back. -/
structure Settled (limits : Limits) (relay : ConstraintsApiConfig) (k : P.float.F64) (slot : UInt64) (log : Log P)
    (s : State (requests P) (World P) Call (Except Fault (SlotCongestion P))) (c : SlotCongestion P)
    (entry : Entry (requests P) (World P) Call) : Prop where
  winner : Winner slot c log entry
  /-- No other creation has placed a row. -/
  single : ∀ other ∈ log, other.event.pre.congestion.forSlot slot.toInt64 = none →
    other.event.post.congestion.forSlot slot.toInt64 ≠ none → other = entry
  row : s.world.congestion.forSlot slot.toInt64 = some (used k c (usages k slot log)).row
  reads : slotCongestionOf (used k c (usages k slot log)).row = .ok (used k c (usages k slot log))
  gas : (used k c (usages k slot log)).preconfirmedGas.toNat =
    min ((usages k slot log).map UInt64.toNat).sum (2 ^ 64 - 1)
  creators : ∀ id task base limit genesis found, s.tasks id = some task →
    task.job = .create slot base limit genesis → task.program = .ret (.ok found) →
      found.baseGasPrice = c.baseGasPrice ∧ found.totalGasLimit = c.totalGasLimit
  stays : ∀ s', Relation.ReflTransGen (Step (store limits relay k)) s s' → ∃ row,
    s'.world.congestion.forSlot slot.toInt64 = some row ∧ row.baseGasPrice = c.baseGasPrice.toInt64 ∧
      row.totalGasLimit = c.totalGasLimit.toInt64

end PreconfGateway.Properties.GasTally
