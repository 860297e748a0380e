import Mathlib.Algebra.Group.Nat.Defs
import PreconfGateway.FixtureClients
import PreconfGateway.Properties.FeeConsistency
import PreconfGateway.Sources

/-! What a fee that is answered says, and what it was worked out from: a record of the slot that was in
the table during the call, and whose base price the execution node had quoted. -/
namespace PreconfGateway.Properties.FeeQuotes
open Encoding Types Db Interleaving Rpc Services Fixture
variable {P : Platform}

def fromLeBytes (b : Bytes) : Nat := b.foldr (fun d n => d.toNat + 256 * n) 0

/-- The format as it is documented: four numbers of eight bytes each. -/
def feeWords (payload : Bytes) : List Nat := (List.range 4).map (fun i => fromLeBytes ((payload.drop (8 * i)).take 8))

section Words

theorem fromLeBytes_digits (k n : Nat) : fromLeBytes ((List.range k).map (fun i => UInt8.ofNat (n / 256 ^ i))) = n % 256 ^ k := by
  induction k generalizing n with
  | zero => simp [fromLeBytes,Nat.mod_one]
  | succ k ih =>
    have shift : (List.range k).map (fun i => UInt8.ofNat (n / 256 ^ (i + 1))) =
        (List.range k).map (fun i => UInt8.ofNat (n / 256 / 256 ^ i)) := by
      refine List.map_congr_left fun i _ => ?_
      rw [Nat.div_div_eq_div_mul,Nat.pow_succ']
    have lowest : (UInt8.ofNat n).toNat = n % 256 := UInt8.toNat_ofNat'
    rw [List.range_succ_eq_map,List.map_cons,List.map_map,Function.comp_def]
    dsimp only [Nat.succ_eq_add_one]
    rw [shift,Nat.pow_zero,Nat.div_one]
    have rest := ih (n / 256)
    unfold fromLeBytes at rest ⊢
    rw [List.foldr_cons,rest,lowest,Nat.pow_succ',Nat.mod_mul]

theorem toLeBytes_length (n : UInt64) : (toLeBytes n).length = 8 := by
  rw [toLeBytes,List.length_map,List.length_range]

/-- What is written as a word reads back. -/
theorem fromLeBytes_toLeBytes (n : UInt64) : fromLeBytes (toLeBytes n) = n.toNat := by
  rw [toLeBytes,fromLeBytes_digits]
  exact Nat.mod_eq_of_lt (n.toNat_lt.trans_eq (by decide))

theorem feeWords_four (a b c d : UInt64) : feeWords (toLeBytes a ++ toLeBytes b ++ toLeBytes c ++ toLeBytes d) =
    [a.toNat, b.toNat, c.toNat, d.toNat] := by
  have second : (toLeBytes a ++ toLeBytes b).length = 16 := by simp only [List.length_append,toLeBytes_length]
  have third : (toLeBytes a ++ toLeBytes b ++ toLeBytes c).length = 24 := by simp only [List.length_append,toLeBytes_length]
  have word (front : Bytes) (n : UInt64) (back : Bytes) : ((front ++ toLeBytes n ++ back).drop front.length).take 8 = toLeBytes n := by
    rw [List.append_assoc,List.drop_left,← toLeBytes_length n,List.take_left]
  have words : (List.range 4) = [0,1,2,3] := rfl
  rw [feeWords,words]
  simp only [List.map_cons,List.map_nil,List.cons.injEq,and_true]
  refine ⟨?_,?_,?_,?_⟩
  · have := word [] a (toLeBytes b ++ toLeBytes c ++ toLeBytes d)
    simpa [List.append_assoc,fromLeBytes_toLeBytes] using congrArg fromLeBytes this
  · have := word (toLeBytes a) b (toLeBytes c ++ toLeBytes d)
    rw [toLeBytes_length] at this
    simpa [List.append_assoc,fromLeBytes_toLeBytes] using congrArg fromLeBytes this
  · have := word (toLeBytes a ++ toLeBytes b) c (toLeBytes d)
    rw [second] at this
    simpa [List.append_assoc,fromLeBytes_toLeBytes] using congrArg fromLeBytes this
  · have := word (toLeBytes a ++ toLeBytes b ++ toLeBytes c) d []
    rw [third] at this
    simpa [List.append_assoc,fromLeBytes_toLeBytes] using congrArg fromLeBytes this

end Words

/-- Congestion in parts per million, from none to full. -/
def partsPerMillion (F : Floating) (ratio : F.F64) : UInt64 :=
  F.toU64 (F.mul (SlotCongestion.clamp F ratio (F.literal 0) (F.literal 1)) (F.literal 1000000))

/-- What the answer says of this gas on top of this record. -/
def Says (config : Config P) (record : SlotCongestion P) (gas : UInt64) (payload : Bytes) : Prop :=
  let projected := FeePricing.calculateProjectedCongestion config record gas
  feeWords payload = [projected.currentTxPrice.toNat * gas.toNat, projected.currentTxPrice.toNat, gas.toNat,
    (partsPerMillion P.float projected.gasUsedRatio).toNat]

/-- A fee is for an inclusion in the slot that its payload names, and for the gas that this payload is estimated at. -/
structure Quote (config : Config P) (request : CommitmentRequest) (slot : UInt64) (row : CongestionRow P) (info : FeeInfo) :
    Prop where
  inclusion : request.commitmentType = 1 ∧ info.commitmentType = 1
  named : PayloadParser.extractSlot P 1 request.payload = .ok slot
  recorded : row.slot = slot.toInt64
  priced : ∃ record gas, slotCongestionOf row = .ok record ∧
    FeePricing.estimateGasForCommitment P 1 request.payload = .ok gas ∧ Says config record gas info.payload

/-- The slot was at most ten ahead by the clock. -/
def Near (config : Config P) (slot now : UInt64) : Prop :=
  (BeaconTiming.currentSlotEstimate config.beaconApi.genesisTime now).toNat ≤ slot.toNat ∧
    slot.toNat ≤ (BeaconTiming.currentSlotEstimate config.beaconApi.genesisTime now).toNat + 10

/-- The call has put the row into the table, or has found it there. -/
def Had (tr : Trace P) (row : CongestionRow P) : Prop :=
  Told tr (.sql (.insertCongestion row)) (.ok true) ∨ Told tr (.sql (.selectCongestion row.slot)) (.ok (some row))

section Calls
variable {g : Gateway P} {tr : Trace P} {w : World P} {t : Nat}

abbrev free : Contract (requests P) (World P) := Gateway.discipline (fun _ => True) (fun _ _ => True)

theorem getSlot_had {slot : UInt64} :
    free.Safe g.machine (fun tr r _ _ => ∀ c, r = .ok (some c) →
      ∃ row, row.slot = slot.toInt64 ∧ slotCongestionOf row = .ok c ∧ Had tr row)
      (getSlotCongestion (P := P) slot) tr w t := by
  refine Gateway.safe_ask fun w₁ u r w₂ _ _ _ answers => ⟨trivial,?_⟩
  rcases r with e | found
  · exact fun c hc => by cases hc
  · cases found with
    | none => exact fun c hc => by cases hc
    | some row =>
      intro c hc
      cases read : slotCongestionOf row with
      | error e =>
        rw [read] at hc
        cases hc
      | ok record =>
        rw [read] at hc
        cases hc
        have slot_eq : row.slot = slot.toInt64 := Congestion.forSlot_slot (Answers.selectCongestion answers).1.symm
        refine ⟨row,slot_eq,read,.inr ?_⟩
        rw [slot_eq]
        exact told_here.mpr (.inl rfl)

/-- The record is that of a row which the table has. -/
theorem getOrCreate_had {slot base limit genesis : UInt64} :
    free.Safe g.machine (fun tr r _ _ => ∀ c, r = .ok c → ∃ row, row.slot = slot.toInt64 ∧ slotCongestionOf row = .ok c ∧ Had tr row)
      (getOrCreateSlotCongestion (P := P) slot base limit genesis) tr w t := by
  unfold getOrCreateSlotCongestion
  dsimp only
  cases begins : unixEpochPlus (saturatingAdd genesis (saturatingMul slot 12)) with
  | error e => exact fun c hc => by cases hc
  | ok start =>
    have early : start.toNat < 2 ^ 63 := by
      unfold unixEpochPlus at begins
      split at begins
      · cases begins
        assumption
      · cases begins
    dsimp only
    split
    · exact fun c hc => by cases hc
    · refine Gateway.safe_ask fun w₁ u r w₂ _ _ _ _ => ⟨trivial,?_⟩
      rcases r with e | new
      · exact fun c hc => by cases hc
      · cases new with
        | true =>
          intro c hc
          cases hc
          exact ⟨_,rfl,slotCongestionOf_row early,.inl (told_here.mpr (.inl rfl))⟩
        | false =>
          refine getSlot_had.bind fun tr r w t had => ?_
          rcases r with e | found
          · exact fun c hc => by cases hc
          · cases found with
            | none => exact fun c hc => by cases hc
            | some record =>
              intro c hc
              cases hc
              exact had record rfl

/-- Where a fee comes from. -/
structure WorkedOut (config : Config P) (payload : Bytes) (slot : UInt64) (tr : Trace P) (row : CongestionRow P)
    (fee : FeePricing.FeeCalculation P) : Prop where
  recorded : row.slot = slot.toInt64
  had : Had tr row
  totalled : ∃ record gas price, slotCongestionOf row = .ok record ∧ FeePricing.estimateGasForCommitment P 1 payload = .ok gas ∧
    FeePricing.totalled slot price gas (FeePricing.calculateProjectedCongestion config record gas) = .ok fee

theorem calculateFee_had {config : Config P} {payload : Bytes} {slot : UInt64} :
    free.Safe g.machine (fun tr r _ _ => ∀ fee, r = .ok fee → ∃ row, WorkedOut config payload slot tr row fee)
      (FeePricing.calculateFeeForCommitment config 1 payload slot) tr w t := by
  refine Gateway.safe_ask fun w₁ u r w₂ _ _ _ _ => ⟨trivial,?_⟩
  rcases r with e | info
  · exact fun fee h => by cases h
  · dsimp only [Except.mapError]
    cases estimated : FeePricing.estimateGasForCommitment P 1 payload with
    | error e => exact fun fee h => by cases h
    | ok gas =>
      refine getOrCreate_had.bind fun tr r w t had => ?_
      rcases r with e | record
      · exact fun fee h => by cases h
      · intro fee h
        obtain ⟨row,slot_eq,read,known⟩ := had record rfl
        exact ⟨row,slot_eq,known,record,gas,_,read,estimated,h⟩

/-- What is answered is what was worked out. -/
theorem says_of_totalled {config : Config P} {record : SlotCongestion P} {slot price gas : UInt64}
    {fee : FeePricing.FeeCalculation P}
    (h : FeePricing.totalled slot price gas (FeePricing.calculateProjectedCongestion config record gas) = .ok fee) :
    Says config record gas (feePayload fee) := by
  obtain ⟨_,estimated,ratio,_,final,total⟩ := FeeConsistency.totalled_inv h
  unfold Says feePayload
  dsimp only
  rw [feeWords_four,total,final,estimated,ratio]
  rfl

theorem near_of_test {config : Config P} {slot now : UInt64}
    (h : (BeaconTiming.currentSlotEstimate config.beaconApi.genesisTime now ≤ slot &&
      slot ≤ BeaconTiming.currentSlotEstimate config.beaconApi.genesisTime now + 10) = true) : Near config slot now := by
  have room := BeaconTiming.currentSlotEstimate_le config.beaconApi.genesisTime now
  obtain ⟨low,high⟩ := Bool.and_eq_true_iff.mp h
  have low := UInt64.le_iff_toNat_le.mp (of_decide_eq_true low)
  have high := UInt64.le_iff_toNat_le.mp (of_decide_eq_true high)
  have ten : (10 : UInt64).toNat = 10 := rfl
  rw [UInt64.toNat_add,ten] at high
  exact ⟨low,by omega⟩

theorem acceptable_near {config : Config P} {slot : UInt64} :
    free.Safe g.machine (fun tr a _ _ => a = true → ∃ now, Told tr .now now ∧ Near config slot now)
      (FeePricing.isSlotAcceptableForFees config slot) [] w t := by
  refine Gateway.safe_ask fun w₁ u now w₂ _ _ _ _ => ⟨trivial,?_⟩
  exact fun h => ⟨now,told_here.mpr (.inl rfl),near_of_test h⟩

theorem told_suffix {tr tr' : Trace P} {q : Query P} {r : q.Reply} (h : Told tr q r) (later : tr <:+ tr') : Told tr' q r := by
  obtain ⟨newer,rfl⟩ := later
  exact Grounds.told_after h newer

theorem feeHandler_had {params : Option CommitmentRequest} :
    free.Safe g.machine (fun tr r _ _ => ∀ info, r = .ok info → ∃ request slot row now, params = some request ∧
      Quote g.config request slot row info ∧ Told tr .now now ∧ Near g.config slot now ∧ Had tr row)
      (feeHandler g.config params) [] w t := by
  cases params with
  | none => exact fun info h => by cases h
  | some request =>
    unfold feeHandler
    dsimp only
    by_cases inclusion : request.commitmentType = 1
    · rw [if_neg (not_not.mpr inclusion),inclusion]
      cases named : validateAndExtractSlot P 1 request.payload with
      | error e => exact fun info h => by cases h
      | ok slot =>
        refine acceptable_near.bind fun tr a w t accepted => ?_
        split
        · rename_i yes
          obtain ⟨now,told,near⟩ := accepted yes
          unfold quoteFee
          rw [inclusion]
          refine calculateFee_had.suffix.bind fun tr r w t found => ?_
          rcases r with e | fee
          · cases e <;> exact fun info h => by cases h
          · intro info h
            cases h
            obtain ⟨row,worked⟩ := found.1 fee rfl
            obtain ⟨record,gas,price,read,estimated,total⟩ := worked.totalled
            exact ⟨request,slot,row,now,rfl,⟨⟨inclusion,rfl⟩,mapError_ok.mp named,worked.recorded,record,gas,read,estimated,
              says_of_totalled total⟩,told_suffix told found.2,near,worked.had⟩
        · exact fun info h => by cases h
    · rw [if_pos inclusion]
      exact fun info h => by cases h

end Calls

/-- What a fee call has found by the time it is answered. -/
def Answered (g : Gateway P) (k : Call) (tr : Trace P) (a : Answer) (_ : World P) (_ : Nat) : Prop :=
  ∀ params info, k = .fee params → a = .fee (.ok info) → ∃ request slot row now, params = some request ∧
    Quote g.config request slot row info ∧ Told tr .now now ∧ Near g.config slot now ∧ Had tr row

theorem quotes_verified (g : Gateway P) :
    Verified g.server (g.terms (fun _ => True) (fun _ _ _ => True) (fun _ _ _ => True)) World.Evolves
      (Beside (fun _ _ _ _ _ => True) (Answered g)) := by
  refine Gateway.verified_server g.evolving ?_ (fun _ _ _ _ _ _ _ => trivial)
  intro k t w _
  cases k with
  | fee params =>
    refine feeHandler_had.bind fun tr r w t found => ?_
    rintro _ info ⟨⟩ ⟨⟩
    exact found info rfl
  | slots =>
    refine Gateway.safe_ask fun _ _ _ _ _ _ _ _ => ⟨trivial,?_⟩
    rintro params info ⟨⟩
  | refreshGasPrice =>
    refine Gateway.safe_ask fun _ _ _ _ _ _ _ _ => ⟨trivial,?_⟩
    rintro params info ⟨⟩

/-- A row that was put into the table or found there is in it right after. -/
theorem had_row {g : Gateway P} {s : State (requests P) (World P) Entry Ending} {id : Nat} {entry : Entry} {tr : Trace P} (saw : ∀ e ∈ tr, s.Saw id entry e) {row : CongestionRow P} (had : Had tr row) :
    ∃ e, s.Saw id entry e ∧ (∃ statement, e.op.query = .sql statement) ∧
      ∀ w w', g.machine.Answers e.stop w e.op e.reply w' → row ∈ w'.congestion.rows := by
  rcases had with ⟨t,u,w,w',listed⟩ | ⟨t,u,w,w',listed⟩
  · refine ⟨_,saw _ listed,⟨_,rfl⟩,fun a b answers => ?_⟩
    obtain ⟨new,after⟩ := Answers.insertCongestion answers
    rw [after]
    unfold Congestion.insert at new ⊢
    split at new
    · cases new
    · rename_i unknown
      rw [dif_neg unknown]
      exact List.mem_append_right _ List.mem_cons_self
  · refine ⟨_,saw _ listed,⟨_,rfl⟩,fun a b answers => ?_⟩
    obtain ⟨found,after⟩ := Answers.selectCongestion answers
    rw [after]
    exact List.mem_of_find?_eq_some found.symm

section Runs
variable {w₀ : World P} {s : State (Deployment.Both P) (Deployment.Whole P) Entry Ending}

/-- The row was in the table at some time of the call, with a base price that the execution node had quoted. -/
def Stood (d : Deployment P) (s : State (Deployment.Both P) (Deployment.Whole P) Entry Ending) (id : Nat) (entry : Entry)
    (row : CongestionRow P) : Prop :=
  ∃ o price u, s.Saw id entry o ∧ row ∈ o.post.1.congestion.rows ∧ u ≤ o.stop ∧ d.Quoted s.world.2 price u ∧
    row.baseGasPrice = (GasPriceInfo.gasPriceAsU64Clamped ⟨price⟩).toInt64

theorem had_stood {d : Deployment P} {s' : State (requests P) (World P) Entry Ending} (hr : Reachable d.system (w₀, .empty) s)
    (reached : Reachable d.server w₀ s') (h : d.Simulated s s') {id : Nat} {entry : Entry} {tr : Trace P}
    (saw : ∀ e ∈ tr, s'.Saw id entry e) {row : CongestionRow P} (had : Had tr row)
    (absent : ∀ r ∈ w₀.congestion.rows, r.slot ≠ row.slot) : Stood d s id entry row := by
  obtain ⟨e,seen_e,⟨statement,sql⟩,there⟩ := had_row saw had
  obtain ⟨o,seen_o,_,stop,answers⟩ := Deployment.direct_event h seen_e (Deployment.carry_sql sql)
  rw [stop] at answers
  -- the record is looked up in the state right after the event, whose events are still on record
  obtain ⟨v,hv,world,clock,_,kept⟩ := reached.after_event seen_e
  have listed : row ∈ v.world.congestion.rows := by
    rw [world]
    exact there _ _ (server_event reached seen_e).2.1
  obtain ⟨i,other,f,older,sawᵢ,seenᵢ,priced,_⟩ := Grounds.opened_grounds hv listed absent
  have seenᵢ' : s'.Seen i other older f.start := fun x hx => ⟨kept i _ x (seenᵢ x hx).1,(seenᵢ x hx).2⟩
  obtain ⟨price,base,u,early,quoted⟩ := Deployment.priced_quoted hr h seenᵢ' priced
  have spans := (Grounds.reached_grounded hv sawᵢ).2.1
  have ended := hv.stop_le sawᵢ
  exact ⟨o,price,u,seen_o,there _ _ answers,by omega,quoted,base⟩

/-- A fee that is answered is the price of the estimated gas on top of a record that the slot had during the
call; the slot was at most ten ahead by the clock, and the base price had been quoted by the execution node. -/
theorem fee_quoted (d : Deployment P) (hr : Reachable d.system (w₀, .empty) s) (empty : w₀.congestion.rows = [])
    {id : Nat} {task : Task (Deployment.Both P) (Deployment.Whole P) Entry Ending} (ht : s.tasks id = some task)
    {params : Option CommitmentRequest} (fee : task.job = .inr (.fee params)) {info : FeeInfo}
    (answered : task.program = .ret (.inr (.fee (.ok info)))) :
    ∃ request slot row, params = some request ∧ Quote d.config request slot row info ∧
      (∃ o now, s.Saw id (.inr (.fee params)) o ∧ now.toNat = o.stop / 1000 ∧ Near d.config slot now) ∧
      Stood d s id (.inr (.fee params)) row := by
  obtain ⟨s',reached,simulates⟩ := Deployment.simulated hr
  obtain ⟨task',ht',job,_,results⟩ := simulates.result ht
  rw [fee] at job
  obtain ⟨w,_,found⟩ := (((quotes_verified d.toGateway).sound (by rintro (j | k) <;> exact trivial) reached).tasks id task' ht').finished
    _ ((results _).mp answered)
  rw [job] at found
  obtain ⟨request,slot,row,now,rfl,quote,told,near,had⟩ := found params info rfl rfl
  have saw : ∀ e ∈ task'.trace, s'.Saw id (.inr (.fee (some request))) e := fun e he => ⟨task',ht',job,he⟩
  refine ⟨request,slot,row,rfl,quote,?_,?_⟩
  · obtain ⟨t,u,a,b,listed⟩ := told
    obtain ⟨o,seen,_,stop,answers⟩ := Deployment.direct_event simulates (saw _ listed) rfl
    exact ⟨o,now,seen,(Answers.now answers).1,near⟩
  · refine had_stood hr reached simulates saw had ?_
    rw [empty]
    exact fun _ h => by cases h

/-- A fee for the call before it is made. -/
def deployedFee : DeployedScene where
  job := .inr <| .fee (some (request 5 7 own))
  time := 61000
  choices := [(.inl .done, 61000),rpc "0xa" 61000,rpc "0x1" 61000,(.inr .done, 61000),(.inl .done, 61000)]

def quotedFee : Rpc.FeeInfo where
  payload := [184, 52, 5, 0, 0, 0, 0, 0, 11, 0, 0, 0, 0, 0, 0, 0, 40, 121, 0, 0, 0, 0, 0, 0, 9, 4, 0, 0, 0, 0, 0, 0]
  commitmentType := 1

theorem deployed_quoted : ∃ (s : DeployedState) (task : _), Reachable deployed.system (.empty _, .empty) s ∧
    s.tasks 0 = some task ∧ task.job = .inr (.fee (some (request 5 7 own))) ∧ task.program = .ret (.inr (.fee (.ok quotedFee))) ∧
      ∀ id task, s.tasks id = some task → ∃ k, task.job = .inr k := by
  have plays : (deployed.system.script [deployedFee] (.empty _, .empty) 0).any (fun out =>
      out.1.map (fun o => Ending.fee? o.2) = [some quotedFee]) = true := by
    decide +kernel
  obtain ⟨⟨outs,w,t⟩,played,hp⟩ := (Option.any_eq_true _ _).mp plays
  obtain ⟨s,hr,_,_,_,done,_,rest⟩ := System.script_reachable (.initial 0) (fun _ _ h => (by cases h))
    (fun i (_ : 0 ≤ i) => rfl) played (fun _ _ _ => trivial) (fun _ _ _ _ _ _ => trivial)
  have one := of_decide_eq_true hp
  cases outs with
  | nil => cases one
  | cons out outs =>
    obtain ⟨since,ht⟩ := done 0 deployedFee out rfl rfl
    rw [List.map_cons,List.cons.injEq] at one
    refine ⟨s,_,hr,ht,rfl,?_,fun id task known => ?_⟩
    · rw [Ending.fee_some one.1]
    · cases id with
      | zero =>
        cases ht.symm.trans known
        exact ⟨_,rfl⟩
      | succ id =>
        have none := rest (id + 1) (by simp)
        cases none.symm.trans known

theorem fee_quoted_answered : ∃ (s : DeployedState) (q : CommitmentRequest) (slot : UInt64) (row : CongestionRow (platform offer)),
    (∃ task, s.tasks 0 = some task ∧ task.program = .ret (.inr (.fee (.ok quotedFee)))) ∧ Quote small.config q slot row quotedFee ∧
      (∃ o now, s.Saw 0 (.inr (.fee (some q))) o ∧ now.toNat = o.stop / 1000 ∧ Near small.config slot now) ∧
      Stood deployed s 0 (.inr (.fee (some q))) row := by
  obtain ⟨s,task,hr,ht,fee,answered,_⟩ := deployed_quoted
  obtain ⟨q,slot,row,same,quote,near,stood⟩ := fee_quoted deployed hr rfl ht fee answered
  cases same
  exact ⟨s,_,slot,row,⟨task,ht,answered⟩,quote,near,stood⟩

/-- The tables are as before, but for records of slots that no gas has been booked on. -/
structure Leaves (config : Config P) (a b : World P) : Prop where
  commitments : b.commitments = a.commitments
  delegations : b.delegations = a.delegations
  accepted : b.accepted = a.accepted
  congestion : ∃ added, b.congestion.rows = a.congestion.rows ++ added ∧ ∀ r ∈ added, r.preconfirmedGas = 0 ∧
    r.totalGasLimit = config.reth.feeConfig.defaultGasLimit.toInt64 ∧ r.currentTxPrice = r.baseGasPrice

theorem Leaves.refl {config : Config P} (a : World P) : Leaves config a a :=
  ⟨rfl,rfl,rfl,[],(List.append_nil _).symm,fun _ h => absurd h List.not_mem_nil⟩

theorem Leaves.trans {config : Config P} {a b c : World P} (h : Leaves config a b) (k : Leaves config b c) : Leaves config a c := by
  obtain ⟨added,rows,fresh⟩ := h.congestion
  obtain ⟨more,rows',fresh'⟩ := k.congestion
  refine ⟨k.commitments.trans h.commitments,k.delegations.trans h.delegations,k.accepted.trans h.accepted,added ++ more,?_,?_⟩
  · rw [rows',rows,List.append_assoc]
  · rintro r hr
    exact (List.mem_append.mp hr).elim (fresh r) (fresh' r)

/-- An opened record is new or not stored. -/
theorem leaves_insert {config : Config P} {w : World P} {row : CongestionRow P} (opened : Opened config row) :
    Leaves config w { w with congestion := (w.congestion.insert row).2 } := by
  obtain ⟨slot,base,start,_,rfl⟩ := opened
  refine ⟨rfl,rfl,rfl,?_⟩
  unfold Congestion.insert
  split
  · exact ⟨[],(List.append_nil _).symm,fun _ h => absurd h List.not_mem_nil⟩
  · refine ⟨_,rfl,fun r hr => ?_⟩
    rw [List.mem_singleton.mp hr]
    exact ⟨rfl,rfl,rfl⟩

theorem further_leaves {d : Deployment P} {v₀ : Deployment.Whole P} (hr : Reachable d.system v₀ s) {id : Nat} {k : Call}
    {o : Event (Deployment.Both P) (Deployment.Whole P)} (saw : s.Saw id (.inr k) o) : Leaves d.config o.pre.1 o.post.1 := by
  rcases Deployment.asked hr saw with same | ⟨op,_,asks,changes⟩
  · rw [same]
    exact .refl _
  · cases asks with
    | call asks =>
      rcases asks.changes changes with same | ⟨row,_,opened,same⟩
      · rw [same]
        exact .refl _
      · rw [same]
        exact leaves_insert opened

/-- Whatever else goes on, no request of a fee, slots or refresh call changes a commitment, a delegation, a message
or an existing record; and where only such calls run, nothing is left of them but records without gas. -/
theorem further_calls_leave (d : Deployment P) {v₀ : Deployment.Whole P} (hr : Reachable d.system v₀ s) :
    (∀ id k o, s.Saw id (.inr k) o → Leaves d.config o.pre.1 o.post.1) ∧
      ((∀ id task, s.tasks id = some task → ∃ k, task.job = .inr k) → Leaves d.config v₀.1 s.world.1) := by
  refine ⟨fun id k o saw => further_leaves hr saw,?_⟩
  induction hr with
  | initial t => exact fun _ => .refl _
  | @step s s' hr step ih =>
    intro only
    have before : ∀ id task, s.tasks id = some task → ∃ k, task.job = .inr k := by
      intro id task ht
      obtain ⟨task',ht',same⟩ := step.job ht
      obtain ⟨k,job⟩ := only id task' ht'
      exact ⟨k,same.symm.trans job⟩
    rcases step.world with still | ⟨id,job,o,saw,pre,post⟩
    · rw [still]
      exact ih before
    · have saw' := saw
      obtain ⟨task,ht,rfl,_⟩ := saw'
      obtain ⟨k,job⟩ := only id task ht
      rw [job] at saw
      have last := further_leaves (hr.step step) saw
      rw [pre,post] at last
      exact (ih before).trans last

theorem further_calls_leave_answered : ∃ s : DeployedState, (∃ task, s.tasks 0 = some task ∧
    task.program = .ret (.inr (.fee (.ok quotedFee)))) ∧ Leaves small.config (.empty _) s.world.1 := by
  obtain ⟨s,task,hr,ht,_,answered,only⟩ := deployed_quoted
  exact ⟨s,⟨task,ht,answered⟩,(further_calls_leave deployed hr).2 only⟩

end Runs

end PreconfGateway.Properties.FeeQuotes
