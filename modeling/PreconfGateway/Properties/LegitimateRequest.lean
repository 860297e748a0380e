import PreconfGateway.Db.CongestionStore
import PreconfGateway.Properties.Atomicity
import PreconfGateway.Properties.DelegationLookup
import PreconfGateway.Properties.SlotColumn
import PreconfGateway.Submissions

/-! When a legitimate request is served and its commitment picked up: the slasher of the
request is taken for the committer, in the lookup and again in the filter of the batch. -/
namespace PreconfGateway.Properties.LegitimateRequest
open Encoding Types Db Crypto Interleaving Rpc Services Fixture Atomicity DelegationLookup
variable {P : Platform} {limits : Limits} {relay : ConstraintsApiConfig}

/-- Every party answers, with these rows in this order, this duty and this price. The
database refuses nothing but a row that breaks a constraint of its table. -/
structure Available (slot : UInt64) (rows : List DelegationRow) (duty : Except String (Option ValidatorDuty))
    (info : GasPriceInfo) (es : Trace P) : Prop where
  read : ∀ r, Told es (.sql (.selectDelegations slot.toInt64)) r → r = .ok rows
  duty : ∀ r, Told es (.proposerForSlot slot) r → r = duty
  price : ∀ r, Told es .gasPrice r → r = .ok info
  sql : ∀ s e, Told es (.sql s) (.error e) → ∃ new, s = .insertCommitment new ∧ (new.row 0 0).checks = false

/-- The record of the slot as it is, or as it is opened at this price. -/
def Opened (config : Config P) (w : World P) (slot price : UInt64) (c : SlotCongestion P) : Prop :=
  ∃ start, unixEpochPlus (slotStart config slot) = .ok start ∧
    P.timestampInRange (slotStart config slot).toInt64 = true ∧
      match w.congestion.forSlot slot.toInt64 with
      | none => c = .new slot price config.reth.feeConfig.defaultGasLimit start
      | some row => slotCongestionOf row = .ok c

/-- The slot has a start and a readable record, and the total cost is a number. -/
def Affordable (config : Config P) (w : World P) (payload : Bytes) (slot : UInt64) (info : GasPriceInfo) : Prop :=
  ∃ gas c, FeePricing.estimateGasForCommitment P 1 payload = .ok gas ∧
    Opened config w slot info.gasPriceAsU64Clamped c ∧
      (checkedMul (FeePricing.calculateProjectedCongestion config c gas).currentTxPrice gas).isSome = true

section Parts
variable {slot : UInt64} {rows : List DelegationRow} {duty : Except String (Option ValidatorDuty)}
  {info : GasPriceInfo} {es es' : Trace P} {config : Config P} {w w' : World P} {t t' : Nat}

theorem Available.mono (h : Available slot rows duty info es) (sub : es' ⊆ es) :
    Available slot rows duty info es' := by
  have told {q : Query P} {r : q.Reply} (ht : Told es' q r) : Told es q r := by
    obtain ⟨t,u,w,w',hm⟩ := ht
    exact ⟨t,u,w,w',sub hm⟩
  exact ⟨fun r ht => h.read r (told ht),fun r ht => h.duty r (told ht),fun r ht => h.price r (told ht),
    fun s e ht => h.sql s e (told ht)⟩

/-- Available is what every part of a run is. -/
theorem Available.parts (h : Available slot rows duty info (es ++ es')) :
    Available slot rows duty info es ∧ Available slot rows duty info es' :=
  ⟨h.mono (List.subset_append_left _ _),h.mono (List.subset_append_right _ _)⟩

theorem Available.ok {s : Statement P} {reply : Except DbError s.Value} {u : Nat} {v v' : World P}
    (h : Available slot rows duty info (⟨.plain (.sql s), reply, t, u, v, v'⟩ :: es))
    (other : ∀ new, s ≠ .insertCommitment new) : ∃ value, reply = .ok value := by
  cases reply with
  | ok value => exact ⟨value,rfl⟩
  | error e =>
    obtain ⟨new,hs,_⟩ := h.sql s e (told_here.mpr (.inl rfl))
    exact absurd hs (other new)

/-- Requests that neither insert nor mark leave the commitments as they are. -/
theorem run_commitments {α : Type} {p : Async P α} {a : α}
    (h : Run (world P limits relay) Eq p w t es a w' t')
    (quiet : ∀ e ∈ es, (∀ new, e.op.query ≠ .sql (.insertCommitment new)) ∧
      ∀ hashes, e.op.query ≠ .sql (.updateProcessed hashes)) : w'.commitments = w.commitments := by
  induction h with
  | ret => rfl
  | call other _ _ answers _ ih =>
    cases other
    have changes := Changes.of_answers answers
    obtain ⟨noInsert,noMark⟩ := quiet _ List.mem_cons_self
    refine (ih fun e he => quiet e (List.mem_cons_of_mem _ he)).trans ?_
    generalize Op.query _ = q at changes noInsert noMark
    cases changes with
    | inserted new id createdAt commitments added => exact absurd rfl (noInsert new)
    | marked hashes => exact absurd rfl (noMark hashes)
    | _ => rfl

/-- Getting the record of the slot opens it where there is none. -/
theorem opened_run {price : UInt64} {r : Except Fault (SlotCongestion P)}
    (h : Run (world P limits relay) Eq (getOrCreateSlotCongestion slot price config.reth.feeConfig.defaultGasLimit
      config.beaconApi.genesisTime) w t es r w' t') (available : Available slot rows duty info es)
    (c : SlotCongestion P) : (r = .ok c ↔ Opened config w slot price c) ∧
      (r = .ok c → w'.congestion.forSlot slot.toInt64 = some c.row) := by
  unfold getOrCreateSlotCongestion at h
  unfold Opened slotStart
  dsimp only at h ⊢
  split at h
  · rename_i e he
    obtain ⟨_,rfl,_⟩ := h.ret_inv
    simp [he]
  · rename_i start hstart
    split at h
    · rename_i range
      obtain ⟨_,rfl,_⟩ := h.ret_inv
      simp only [Bool.not_eq_true'] at range
      simp [fault,range]
    · rename_i range
      simp only [Bool.not_eq_true',Bool.not_eq_false] at range
      obtain ⟨w₁,u,reply,w₂,rest,rfl,rfl,_,_,answers,h⟩ := run_ask h
      obtain ⟨new,rfl⟩ := available.ok fun _ clash => by cases clash
      obtain ⟨is,made⟩ := Answers.insertCongestion answers
      rw [Congestion.insert_new] at is
      replace is : new = (w.congestion.forSlot slot.toInt64).isNone := is
      have held : w₂.congestion.forSlot slot.toInt64 = (w.congestion.forSlot slot.toInt64).or
          (some (SlotCongestion.new slot price config.reth.feeConfig.defaultGasLimit start : SlotCongestion P).row) := by
        rw [made,Congestion.forSlot_insert]
        simp [SlotCongestion.row,SlotCongestion.new]
      simp only [hstart,range,Except.ok.injEq,exists_eq_left',true_and]
      cases found : w.congestion.forSlot slot.toInt64 with
      | none =>
        rw [found] at is held
        cases is
        obtain ⟨rfl,rfl,rfl,_⟩ := h.ret_inv
        constructor
        · simp only [Except.ok.injEq]
          exact eq_comm
        · intro hc
          rw [held,Except.ok.inj hc]
          rfl
      | some row =>
        rw [found] at is held
        cases is
        obtain ⟨es₁,existing,w₃,t₁,es₂,rfl,hget,hend⟩ := h.bind_inv
        obtain ⟨w₄,u',reply,w₅,rest,rfl,rfl,_,_,select,hback⟩ := run_ask hget
        obtain ⟨value,rfl⟩ := (available.mono (List.subset_cons_of_subset _ (List.Subset.refl _))).ok fun _ clash => by cases clash
        obtain ⟨rfl,rfl⟩ := Answers.selectCongestion select
        rw [held] at hback
        obtain ⟨rfl,rfl,rfl,_⟩ := hback.ret_inv
        cases read : slotCongestionOf row with
        | error e =>
          simp only [read] at hend
          obtain ⟨_,rfl,_⟩ := hend.ret_inv
          simp [read]
        | ok c' =>
          simp only [read] at hend
          obtain ⟨_,rfl,rfl,_⟩ := hend.ret_inv
          refine ⟨by simp [read],fun hc => ?_⟩
          cases hc
          rw [held,(slotCongestionOf_ok read).1]
          rfl

private theorem opened_start {price : UInt64} {c : SlotCongestion P} (h : Opened config w slot price c) :
    c.slotStartTime.toNat < 2 ^ 63 := by
  obtain ⟨start,hstart,_,h⟩ := h
  split at h
  · unfold unixEpochPlus at hstart
    split at hstart
    · cases hstart
      rw [h]
      assumption
    · cases hstart
  · exact (slotCongestionOf_ok h).2

private theorem price_still {r : Except String GasPriceInfo}
    (h : (world P limits relay).Answers t w (.plain .gasPrice) r w') : w' = w := by
  obtain ⟨c,h⟩ := h
  change Query.respond t w .gasPrice c = some (r, w') at h
  cases c <;> cases h
  rfl

/-- The fee can be worked out exactly if the slot is affordable. -/
theorem fee_answers {payload : Bytes} {r : Except Fault (FeePricing.FeeCalculation P)}
    (h : Run (world P limits relay) Eq (FeePricing.calculateFeeForCommitment config 1 payload slot) w t es r w' t')
    (available : Available slot rows duty info es) :
    ((∃ fee, r = .ok fee) ↔ Affordable config w payload slot info) ∧
      ((∃ fee, r = .ok fee) → ∃ c, slotCongestionOf c.row = .ok c ∧
        w'.congestion.forSlot slot.toInt64 = some c.row) := by
  unfold FeePricing.calculateFeeForCommitment FeePricing.getCachedGasPrice at h
  obtain ⟨es₁,found,w₁,t₁,es₂,rfl,hprice,hrest⟩ := h.bind_inv
  obtain ⟨w₂,u,reply,w₃,rest,rfl,rfl,_,_,answers,hback⟩ := run_ask hprice
  obtain rfl := available.price reply (told_here.mpr (.inl rfl))
  obtain rfl := price_still answers
  obtain ⟨rfl,rfl,rfl,_⟩ := hback.ret_inv
  unfold Affordable
  dsimp only [Except.mapError] at hrest
  cases estimate : FeePricing.estimateGasForCommitment P 1 payload with
  | error e =>
    simp only [estimate] at hrest
    obtain ⟨_,rfl,_⟩ := hrest.ret_inv
    simp [fault]
  | ok gas =>
    simp only [estimate] at hrest
    obtain ⟨es₁,found,w₂,t₂,es₃,rfl,hget,hend⟩ := hrest.bind_inv
    have opened := opened_run hget (available.parts.2.parts.1)
    cases found with
    | error e =>
      obtain ⟨_,rfl,_⟩ := hend.ret_inv
      simp [← (opened _).1]
    | ok c =>
      obtain ⟨_,rfl,rfl,_⟩ := hend.ret_inv
      have held := (opened c).2 rfl
      have start := opened_start ((opened c).1.mp rfl)
      refine ⟨?_,fun _ => ⟨c,slotCongestionOf_row start,held⟩⟩
      rw [totalled_ok]
      simp only [← (opened _).1,Except.ok.injEq]
      constructor
      · exact fun fits => ⟨gas,c,rfl,rfl,fits⟩
      · rintro ⟨_,_,rfl,rfl,fits⟩
        exact fits

/-- Once the row is stored, the call ends well exactly if the slot is affordable. -/
theorem account_answers {request : CommitmentRequest} {sc : SignedCommitment} {r : RpcResult SignedCommitment}
    (one : request.commitmentType = 1) (h : Run (world P limits relay) Eq (accountGas config request slot sc) w t es r w' t')
    (available : Available slot rows duty info es) :
    (∃ found, r = .ok found) ↔ Affordable config w request.payload slot info := by
  unfold accountGas at h
  rw [one] at h
  obtain ⟨es₁,fee,w₁,t₁,es₂,rfl,hfee,hend⟩ := h.bind_inv
  obtain ⟨known,record⟩ := fee_answers hfee available.parts.1
  rw [← known]
  rcases fee with (_ | _) | calculation
  · obtain ⟨_,rfl,_⟩ := hend.ret_inv
    simp
  · obtain ⟨_,rfl,_⟩ := hend.ret_inv
    simp
  · obtain ⟨c,reads,held⟩ := record ⟨_,rfl⟩
    obtain ⟨es₃,applied,w₂,t₂,es₄,rfl,happly,hlast⟩ := hend.bind_inv
    obtain ⟨w₃,u,reply,w₄,rest,rfl,rfl,_,_,answers,hback⟩ := run_ask happly
    obtain ⟨row,rfl⟩ := available.parts.2.ok nofun
    obtain ⟨rfl,_⟩ := Answers.updateCongestion answers
    rw [held] at hback
    simp only [reads] at hback
    obtain ⟨_,rfl,_⟩ := hback.ret_inv
    obtain ⟨_,rfl,_⟩ := hlast.ret_inv
    simp

private theorem insert_taken {new : NewCommitment}
    (h : (world P limits relay).Answers t w (.plain (.sql (.insertCommitment new))) (.ok none) w') :
    w.commitments.withHash new.requestHash ≠ none := by
  obtain ⟨c,hx⟩ := Answers.executed h
  cases c with
  | row rowId createdAt =>
    obtain ⟨⟨found,table⟩,hi,he⟩ := Option.map_eq_some_iff.mp hx
    cases he
    rcases insert_kind hi with ⟨_,_,taken⟩ | ⟨hid,_⟩
    · obtain ⟨r,hr,same⟩ := List.mem_map.mp taken
      have found := Commitments.withHash_mem hr
      rw [same] at found
      rw [show new.requestHash = (new.row rowId createdAt).requestHash from rfl,found]
      exact Option.some_ne_none r
    · cases hid
  | _ => cases hx

private theorem insert_congestion {new : NewCommitment} {r : Except DbError (Option Nat)}
    (h : (world P limits relay).Answers t w (.plain (.sql (.insertCommitment new))) r w') :
    w'.congestion = w.congestion := by
  have changes := Changes.of_answers h
  change Changes w (.sql (.insertCommitment new)) w' at changes
  cases changes with
  | same => rfl
  | inserted => rfl
  | switchedOff _ _ how => rfl

private theorem accounting_commitments {request : CommitmentRequest} {sc : SignedCommitment}
    {r : RpcResult SignedCommitment} (h : Run (world P limits relay) Eq (accountGas config request slot sc) w t es r w' t') :
    w'.commitments = w.commitments := by
  have quiet : (accountGas config request slot sc).Obeys (fun op : Op P =>
      (∀ new, op.query ≠ .sql (.insertCommitment new)) ∧ ∀ hashes, op.query ≠ .sql (.updateProcessed hashes))
        (fun r => ∀ found, r = .ok found → found = sc) :=
    accountGas_obeys ⟨nofun,nofun⟩ (fun _ _ => ⟨nofun,nofun⟩) (fun _ => ⟨nofun,nofun⟩) (fun _ _ => ⟨nofun,nofun⟩)
  exact run_commitments h (h.obeys quiet).1

/-- The commitment of a signed request is served exactly if its row passes the constraints
and the slot is affordable. -/
theorem store_answers {request : CommitmentRequest} {sc : SignedCommitment} {r : RpcResult SignedCommitment}
    (signed : Signed config request slot sc) (fresh : w.commitments.withHash sc.commitment.requestHash = none)
    (h : Run (world P limits relay) Eq (storeCommitment config request slot sc) w t es r w' t')
    (available : Available slot rows duty info es) :
    ((∃ found, r = .ok found) ↔ ((newCommitmentOf P sc 1).row 0 0).checks = true ∧
        Affordable config w request.payload slot info) ∧
      ((∃ found, r = .ok found) → ∃ id createdAt,
        w'.commitments.rows = w.commitments.rows ++ [(newCommitmentOf P sc 1).row id createdAt]) := by
  unfold storeCommitment at h
  rw [saveCommitment_one P (by rw [signed.commitment])] at h
  obtain ⟨es₁,saved,w₁,t₁,es₂,rfl,hsave,hrest⟩ := h.bind_inv
  obtain ⟨w₂,u,reply,w₃,rest,rfl,rfl,_,_,answers,hback⟩ := run_ask hsave
  obtain ⟨rfl,rfl,rfl,_⟩ := hback.ret_inv
  rcases reply with e | saved
  · obtain ⟨_,rfl,_⟩ := hrest.ret_inv
    obtain ⟨new,hs,bad⟩ := available.sql _ e (told_here.mpr (.inl rfl))
    cases hs
    simp [bad]
  · cases saved with
    | none => exact absurd fresh (insert_taken answers)
    | some id =>
      obtain ⟨createdAt,added,_⟩ := Answers.insertCommitment answers
      have stored : (newCommitmentOf P sc 1).row id createdAt ∈ w₁.commitments.rows := by
        rw [added]
        exact List.mem_append_right _ List.mem_cons_self
      have passed : ((newCommitmentOf P sc 1).row id createdAt).checks = true := w₁.commitments.checked _ stored
      have checked : ((newCommitmentOf P sc 1).row 0 0).checks = true := passed
      have known := account_answers signed.commitmentType hrest available.parts.2
      have same : Affordable config w₁ request.payload slot info ↔ Affordable config w request.payload slot info := by
        unfold Affordable Opened
        rw [insert_congestion answers]
      refine ⟨by rw [known,same]; simp [checked],fun _ => ⟨id,createdAt,?_⟩⟩
      rw [accounting_commitments hrest,added]

end Parts

/-- A request of type 1 with a slot and a whitelisted slasher that is an address, not served
before, for whose slot the scheduled proposer has signed a delegation to the own address, however spelt. -/
structure Legitimate (g : Gateway P) (w : World P) (request : CommitmentRequest) (slot : UInt64) (hash : String)
    (d : SignedDelegation) (duty : Except String (Option ValidatorDuty)) : Prop where
  commitmentType : request.commitmentType = 1
  slot_eq : PayloadParser.extractSlot P 1 request.payload = .ok slot
  whitelisted : ∃ a ∈ g.config.validation.slasherWhitelist, normalizeAddress a = normalizeAddress request.slasher
  hash_eq : generateRequestHash P request = .ok hash
  fresh : w.commitments.withHash hash = none
  held : Held w slot d
  committer : normalizeAddress d.message.committer = normalizeAddress g.config.signing.committerAddress
  good : Good (P := P) duty d

section Authorise
variable {g : Gateway P} {w w' : World P} {request : CommitmentRequest} {slot : UInt64} {hash : String}
  {d d' : SignedDelegation} {rows : List DelegationRow} {duty : Except String (Option ValidatorDuty)}
  {info : GasPriceInfo} {es : Trace P} {t t' : Nat}

theorem Legitimate.admitted (h : Legitimate g w request slot hash d duty) :
    admitRequest g.config request = .ok (slot, hash) := by
  obtain ⟨a,listed,same⟩ := h.whitelisted
  have any : g.config.validation.slasherWhitelist.any
      (fun w => normalizeAddress w = normalizeAddress request.slasher) = true :=
    List.any_eq_true.mpr ⟨a,listed,decide_eq_true same⟩
  unfold admitRequest validateSlasherAddress validateAndExtractSlot
  simp only [h.commitmentType,any,h.slot_eq,h.hash_eq]
  rfl

/-- A hash of a request is that of 32 bytes, and the slasher is an address. -/
theorem hash_parts (h : generateRequestHash P request = .ok hash) :
    (∃ bytes, bytes.length = 32 ∧ hash = "0x" ++ Hex.encode bytes) ∧
      ∃ a, Crypto.parseEthereumAddress request.slasher = .ok a := by
  unfold generateRequestHash abiEncodeCommitmentRequest at h
  obtain ⟨encoded,he,h⟩ := bind_ok.mp h
  obtain ⟨a,ha,_⟩ := bind_ok.mp he
  cases h
  exact ⟨⟨_,P.keccak256_length _,rfl⟩,a,ha⟩

/-- With the own address as its committer a request can be signed. -/
theorem signRequest_own {config : Config P} {committer : String}
    (own : normalizeAddress committer = normalizeAddress config.signing.committerAddress)
    (h : generateRequestHash P request = .ok hash) : ∃ sc, signRequest config request hash committer = .ok sc := by
  obtain ⟨⟨bytes,long,rfl⟩,a,ha⟩ := hash_parts h
  have parsed : parseHexBytes ("0x" ++ Hex.encode bytes) 32 = .ok bytes := by
    rw [← long]
    exact parseHexBytes_encode bytes
  have encodes : ∃ e, abiEncodeCommitment
      ⟨request.commitmentType, request.payload, "0x" ++ Hex.encode bytes, request.slasher⟩ = .ok e := by
    unfold abiEncodeCommitment
    simp only [parsed,ha]
    exact ⟨_,rfl⟩
  obtain ⟨e,he⟩ := encodes
  unfold signRequest findSigningKeyForCommitter signCommitment messageFromSlice
  simp only [if_pos own,if_true,he,P.keccak256_length]
  exact ⟨_,rfl⟩

/-- The scheduled proposer holds one delegation for the slot. -/
theorem good_unique (held : Held w slot d) (held' : Held w slot d') (good : Good (P := P) duty d)
    (good' : Good (P := P) duty d') : d' = d := by
  obtain ⟨row,hr,hd⟩ := held
  obtain ⟨row',hr',hd'⟩ := held'
  obtain ⟨_,v,hv,hp⟩ := good
  obtain ⟨_,v',hv',hp'⟩ := good'
  cases hv.symm.trans hv'
  have proposer := Except.ok.inj (hp'.symm.trans hp)
  obtain ⟨hm,active⟩ := List.mem_filter.mp hr
  obtain ⟨hm',active'⟩ := List.mem_filter.mp hr'
  simp only [Bool.and_eq_true,decide_eq_true_eq] at active active'
  have key : row'.key = row.key := by
    rw [DelegationRow.key,DelegationRow.key,(signedDelegationOf_columns hd).1,(signedDelegationOf_columns hd').1,
      proposer,active.1,active'.1]
  rw [Delegations.key_injective hm' hm key] at hd'
  exact Except.ok.inj (hd'.symm.trans hd)

/-- What a call asks for before it stores anything. -/
def Looks (q : Query P) : Prop :=
  (∃ hash, q = .sql (.commitmentExists hash)) ∨ (∃ slot, q = .sql (.selectDelegations slot)) ∨
    ∃ slot, q = .proposerForSlot slot

theorem looks_still {α : Type} {p : Async P α} {a : α} (h : Run (world P limits relay) Eq p w t es a w' t')
    (asked : ∀ e ∈ es, Looks e.op.query) : w' = w := by
  induction h with
  | ret => rfl
  | call other _ _ answers _ ih =>
    cases other
    rw [ih fun e he => asked e (List.mem_cons_of_mem _ he)]
    have changes := Changes.of_answers answers
    have own := asked _ List.mem_cons_self
    generalize Op.query _ = q at changes own
    rcases own with ⟨_,rfl⟩ | ⟨_,rfl⟩ | ⟨_,rfl⟩
    all_goals
      cases changes with
      | same => rfl
      | switchedOff _ _ how => rcases how with ⟨_,hq,_⟩ | ⟨_,hq,_⟩ <;> cases hq

/-- A lookup that succeeds has found a delegation that verifies, and names its committer. -/
theorem checkDelegations_found {ds : List SignedDelegation} {committer c : String}
    (h : Run (world P limits relay) Eq (checkDelegations g.config slot committer ds) w t es (.ok c) w' t') :
    ∃ d, findDelegation slot committer ds = some d ∧ Verifies P d ∧ c = d.message.committer := by
  unfold checkDelegations at h
  split at h
  · cases h.ret_inv.2.1
  · rename_i d found
    split at h
    · cases h.ret_inv.2.1
    · rename_i checked
      obtain ⟨_,_,reply,_,_,_,_,_,_,_,hback⟩ := run_ask h
      have result := hback.ret_inv.2.1
      cases hc : checkProposer slot d reply with
      | error e =>
        rw [hc] at result
        cases result
      | ok _ =>
        rw [hc] at result
        cases result
        exact ⟨d,found,(checkDelegationSignature_ok g slot committer).mp checked,rfl⟩

/-- A legitimate request is signed exactly if its delegation is the first match. -/
theorem authorise_answers (legit : Legitimate g w request slot hash d duty)
    {a : RpcResult (UInt64 × SignedCommitment)}
    (h : Run g.machine Eq (authoriseRequest g.config request) w t es a w' t')
    (available : Available slot rows duty info es) :
    (∃ x, a = .ok x) ↔
      ∃ ds, rows.mapM signedDelegationOf = .ok ds ∧ findDelegation slot request.slasher ds = some d := by
  unfold authoriseRequest at h
  rw [legit.admitted] at h
  obtain ⟨es₁,found,w₁,t₁,es₂,rfl,hexist,hrest⟩ := h.bind_inv
  obtain ⟨_,u,reply,w₂,rest,rfl,rfl,_,_,answers,hback⟩ := run_ask hexist
  obtain ⟨found,rfl⟩ := available.ok nofun
  obtain ⟨rfl,rfl,rfl,_⟩ := hback.ret_inv
  obtain ⟨rfl,rfl⟩ : found = (w.commitments.withHash hash).isSome ∧ w₁ = w := by
    obtain ⟨c,hx⟩ := Answers.executed answers
    cases c <;> cases hx
    exact ⟨rfl,rfl⟩
  simp only [legit.fresh,Option.isSome_none,Except.mapError] at hrest
  obtain ⟨es₃,looked,w₂,t₂,es₄,rfl,hlook,hend⟩ := hrest.bind_inv
  rw [verifyDelegationAuthority_split] at hlook
  obtain ⟨es₅,read,w₃,t₃,es₆,rfl,hread,hcheck⟩ := hlook.bind_inv
  obtain ⟨_,_,reply,_,_,rfl,rfl,_,_,select,hpassed⟩ := run_ask hread
  have parts := available.parts.2.parts.1.parts
  obtain rfl := parts.1.read reply (told_here.mpr (.inl rfl))
  obtain ⟨perm,rfl⟩ := Answers.selectDelegations select
  obtain ⟨rfl,rfl,rfl,_⟩ := hpassed.ret_inv
  obtain ⟨ds,hds,listed⟩ := active_read perm
  simp only [hds,Except.ok.injEq,exists_eq_left']
  rw [hds] at hcheck
  have ended := checkDelegations_inv hcheck parts.2.duty
  have first (found : SignedDelegation) (hf : findDelegation slot request.slasher ds = some found)
      (good : Good (P := P) duty found) : found = d := by
    obtain ⟨hm,_⟩ := findDelegation_some hf
    exact good_unique legit.held ((listed found).mp hm) legit.good good
  rcases looked with e | c
  · obtain ⟨_,rfl,_⟩ := hend.ret_inv
    constructor
    · rintro ⟨_,hx⟩
      cases hx
    · intro found
      obtain ⟨_,hc⟩ := ended.mpr ⟨d,found,legit.good⟩
      cases hc
  · obtain ⟨d',found,good⟩ := ended.mp ⟨c,rfl⟩
    obtain ⟨found',hf',_,rfl⟩ := checkDelegations_found hcheck
    cases found.symm.trans hf'
    cases first d' found good
    obtain ⟨sc,signs⟩ := signRequest_own legit.committer legit.hash_eq
    dsimp only at hend
    rw [signs] at hend
    obtain ⟨_,rfl,_⟩ := hend.ret_inv
    exact iff_of_true ⟨_,rfl⟩ found

end Authorise

/-- Until it is marked, any later batch for the committer has the commitment with its hash. -/
def PickedUp (g : Gateway P) (w : World P) (slot : UInt64) (committer hash : String) (payload : Bytes) : Prop :=
  ∀ w₁, w.Evolves w₁ → (∀ row ∈ w₁.commitments.rows, row.requestHash = hash → row.constraintProcessed = false) →
    ∀ t es r w₂ t', Run g.machine Eq
        (ConstraintSubmission.createConstraintsFromCommitments P slot committer) w₁ t es r w₂ t' →
      (∀ e, ¬ Told es (.sql (.selectUnprocessed slot.toInt64)) (.error e)) →
        ∃ constraints hashes, r = .ok (constraints, hashes) ∧ (⟨1, payload⟩, hash) ∈ constraints.zip hashes

section Batch
variable {g : Gateway P} {w w' : World P} {slot : UInt64} {committer : String} {row : CommitmentRow}
  {es : Trace P} {t t' : Nat}

theorem batch_run {r : Result (List Constraint × List String)} (fits : i64TryFrom slot = some slot.toInt64)
    (h : Run g.machine Eq (ConstraintSubmission.createConstraintsFromCommitments P slot committer) w t es r w' t')
    (answered : ∀ e, ¬ Told es (.sql (.selectUnprocessed slot.toInt64)) (.error e)) :
    w' = w ∧ ∃ rows : List CommitmentRow, rows.Perm (w.commitments.unprocessed slot.toInt64) ∧
      r = .ok ((rows.filter (chosen committer)).map constraintOf,
        (rows.filter (chosen committer)).map CommitmentRow.requestHash) := by
  unfold ConstraintSubmission.createConstraintsFromCommitments getUnprocessedCommitmentsForSlot at h
  simp only [fits] at h
  obtain ⟨es₁,read,w₁,t₁,es₂,rfl,hread,hend⟩ := h.bind_inv
  obtain ⟨_,_,reply,_,_,rfl,rfl,_,_,select,hback⟩ := run_ask hread
  rcases reply with e | rows
  · exact absurd (told_here.mpr (.inl rfl)) (answered e)
  · obtain ⟨perm,_,rfl⟩ := Answers.selectUnprocessed select
    obtain ⟨rfl,rfl,rfl,_⟩ := hback.ret_inv
    have total : ∀ row ∈ rows, ∃ sc, signedCommitmentOf row = .ok sc := by
      intro row hr
      obtain ⟨_,hs,_⟩ := signedCommitmentOf_checked
        (Commitments.checked _ row (List.mem_of_mem_filter (perm.mem_iff.mp hr)))
      exact ⟨_,hs⟩
    obtain ⟨scs,hscs⟩ := mapM_total total
    rw [hscs] at hend
    obtain ⟨_,rfl,rfl,_⟩ := hend.ret_inv
    exact ⟨rfl,rows,perm,by rw [convertCommitments_rows committer hscs]⟩

theorem batch_zip {batch : List CommitmentRow} {payload : Bytes} {hash : String} :
    ((⟨1, payload⟩ : Constraint), hash) ∈ (batch.map constraintOf).zip (batch.map CommitmentRow.requestHash) ↔
      ∃ r ∈ batch, r.payload = payload ∧ r.requestHash = hash := by
  rw [List.zip_map']
  simp [constraintOf,Constraint.fromInclusionCommitment]

/-- The pending rows can be read in the order of their times. -/
theorem unprocessed_answers (w : World P) (slot : Int64) (t : Nat) : ∃ rows,
    (world P limits relay).Answers t w (.plain (.sql (.selectUnprocessed slot))) (.ok rows) w := by
  let rows := (w.commitments.unprocessed slot).mergeSort (fun r s => decide (r.createdAt ≤ s.createdAt))
  have perm : rows.Perm (w.commitments.unprocessed slot) := List.mergeSort_perm _ _
  have sorted : rows.Pairwise (fun r s => r.createdAt ≤ s.createdAt) := by
    refine (List.pairwise_mergeSort ?_ ?_ _).imp fun h => of_decide_eq_true h
    · intro a b c hab hbc
      exact decide_eq_true (Nat.le_trans (of_decide_eq_true hab) (of_decide_eq_true hbc))
    · intro a b
      simpa using Nat.le_total a.createdAt b.createdAt
  refine ⟨rows,.commitments rows,?_⟩
  simp [world,Op.respond,Query.respond,Statement.execute,List.isPerm_iff,perm,sorted]

/-- There is always a batch to be read. -/
theorem batch_exists (g : Gateway P) (w : World P) (committer : String) (fits : i64TryFrom slot = some slot.toInt64)
    (t : Nat) : ∃ es r, Run g.machine Eq (ConstraintSubmission.createConstraintsFromCommitments P slot committer) w t es r w t ∧
      ∀ e, ¬ Told es (.sql (.selectUnprocessed slot.toInt64)) (.error e) := by
  obtain ⟨rows,select⟩ := @unprocessed_answers P g.limits g.config.constraintsApi w slot.toInt64 t
  have fetched : Run g.machine Eq (getUnprocessedCommitmentsForSlot P slot) w t
      [⟨.plain (.sql (.selectUnprocessed slot.toInt64)), .ok rows, t, t, w, w⟩] (rows.mapM signedCommitmentOf) w t := by
    unfold getUnprocessedCommitmentsForSlot
    simp only [fits]
    exact ask_step select (.ret _ _ _)
  have answered (e : DbError) : ¬ Told
      [(⟨.plain (.sql (.selectUnprocessed slot.toInt64)), .ok rows, t, t, w, w⟩ : Event (requests P) (World P))]
        (.sql (.selectUnprocessed slot.toInt64)) (.error e) := by
    rw [told_here]
    rintro (h | h)
    · cases h
    · exact told_nil h
  unfold ConstraintSubmission.createConstraintsFromCommitments
  cases converted : rows.mapM signedCommitmentOf with
  | error e =>
    rw [converted] at fetched
    exact ⟨_,_,fetched.bind (.ret _ _ _),by simpa using answered⟩
  | ok scs =>
    rw [converted] at fetched
    exact ⟨_,_,fetched.bind (.ret _ _ _),by simpa using answered⟩

/-- A waiting commitment of type 1 is picked up for the committer that its slasher spells. -/
theorem picked_up_iff (hrow : row ∈ w.commitments.rows) (waiting : row.constraintProcessed = false)
    (fits : i64TryFrom slot = some slot.toInt64) (column : row.slotNumber = some slot.toInt64)
    (type : row.commitmentType = 1) :
    PickedUp g w slot committer row.requestHash row.payload ↔ row.slasher = committer := by
  constructor
  · intro picked
    obtain ⟨es,r,run,answered⟩ := batch_exists g w committer fits 0
    have alone : ∀ r ∈ w.commitments.rows, r.requestHash = row.requestHash → r.constraintProcessed = false := by
      intro r hr same
      rw [Commitments.hash_injective hr hrow same]
      exact waiting
    obtain ⟨_,_,rfl,listed⟩ := picked w (.refl w) alone _ _ _ _ _ run answered
    obtain ⟨_,rows,perm,he⟩ := batch_run fits run answered
    cases he
    obtain ⟨r,hr,_,same⟩ := batch_zip.mp listed
    obtain ⟨hm,kept⟩ := List.mem_filter.mp hr
    rw [← Commitments.hash_injective (List.mem_of_mem_filter (perm.mem_iff.mp hm)) hrow same]
    simp only [chosen,Bool.and_eq_true,decide_eq_true_eq] at kept
    exact kept.1
  · intro spelt w₁ evolved alone t es r w₂ t' run answered
    obtain ⟨_,rows,perm,rfl⟩ := batch_run fits run answered
    refine ⟨_,_,rfl,batch_zip.mpr ?_⟩
    obtain ⟨row',hrow',later,_⟩ := evolved.commitments row hrow
    have hash : row'.requestHash = row.requestHash := by rw [later]
    refine ⟨row',List.mem_filter.mpr ⟨perm.mem_iff.mpr (List.mem_filter.mpr ⟨hrow',?_⟩),?_⟩,by rw [later],hash⟩
    · have slot' : row'.slotNumber = some slot.toInt64 := by rw [later,← column]
      simp [slot',alone row' hrow' hash]
    · have slasher' : row'.slasher = committer := by rw [later,← spelt]
      have type' : row'.commitmentType = 1 := by rw [later,← type]
      simp [chosen,slasher',type']

end Batch

theorem hexFormat_encode {bytes : Bytes} {n : Nat} (h : 2 * bytes.length = n) :
    hexFormat n ("0x" ++ Hex.encode bytes) = true := by
  have chars : ("0x" ++ Hex.encode bytes).toList =
      '0' :: 'x' :: bytes.flatMap (fun b => [Hex.digit (b.toNat / 16), Hex.digit (b.toNat % 16)]) := by
    rw [String.toList_append,Hex.encode,String.toList_ofList,String.toList_ofList]
    rfl
  have long : (bytes.flatMap (fun b => [Hex.digit (b.toNat / 16), Hex.digit (b.toNat % 16)])).length = n := by
    simp [List.length_flatMap,← h,Nat.mul_comm]
  have digits : ∀ b : UInt8, (Hex.value (Hex.digit (b.toNat / 16))).isSome = true ∧
      (Hex.value (Hex.digit (b.toNat % 16))).isSome = true := by
    intro b
    have high : b.toNat / 16 < 16 := Nat.div_lt_of_lt_mul b.toNat_lt
    have low : b.toNat % 16 < 16 := Nat.mod_lt _ (by decide)
    simp [Hex.value_digit high,Hex.value_digit low]
  unfold hexFormat
  rw [chars]
  simp [long,digits]

section Serve
variable {g : Gateway P} {w w' : World P} {request : CommitmentRequest} {slot : UInt64} {hash : String}
  {d : SignedDelegation} {duty : Except String (Option ValidatorDuty)} {sc : SignedCommitment}

/-- The row of the delegation has passed its constraints: its committer has the form of an
address, and the slot fits the column. -/
theorem held_checked (held : Held w slot d) : hexFormat 40 d.message.committer = true ∧ 0 ≤ slot.toInt64 := by
  obtain ⟨row,hr,hd⟩ := held
  obtain ⟨hm,active⟩ := List.mem_filter.mp hr
  simp only [Bool.and_eq_true,decide_eq_true_eq] at active
  have checks := w.delegations.checked row hm
  simp only [DelegationRow.checks,Bool.and_eq_true,DelegationRow.chkCommitterFormat,DelegationRow.chkSlotPositive,
    decide_eq_true_eq,active.1,(signedDelegationOf_columns hd).2.2] at checks
  exact ⟨checks.1.2,checks.2⟩

theorem signed_column (signed : Signed g.config request slot sc) (fits : i64TryFrom slot = some slot.toInt64) :
    slotNumberOf P sc.commitment = some slot.toInt64 := by
  unfold slotNumberOf
  rw [signed.commitment]
  simp only [signed.slot_eq,fits]

/-- The row of a commitment passes the constraints if its slasher is spelt as the committer of the delegation. -/
theorem signed_checks (sixtyFour : ∀ message key, message.length = 32 → (P.signEcdsaRecoverable message key).1.length = 64)
    (legit : Legitimate g w request slot hash d duty) (spelt : request.slasher = d.message.committer)
    (signed : Signed g.config request slot sc) (id createdAt : Nat) :
    ((newCommitmentOf P sc 1).row id createdAt).checks = true := by
  obtain ⟨committer,nonneg⟩ := held_checked legit.held
  have slasher : hexFormat 40 sc.commitment.slasher = true := by
    rw [signed.commitment]
    change hexFormat 40 request.slasher = true
    rw [spelt]
    exact committer
  have requestHash : hexFormat 64 sc.commitment.requestHash = true := by
    obtain ⟨⟨bytes,long,he⟩,_⟩ := hash_parts signed.requestHash
    rw [he]
    exact hexFormat_encode (by omega)
  have signature : hexFormat 130 sc.signature = true := by
    have signs := signed.signature
    unfold signCommitment at signs
    obtain ⟨encoded,_,signs⟩ := bind_ok.mp signs
    obtain ⟨message,hm,signs⟩ := bind_ok.mp signs
    have short : message.length = 32 := by
      unfold messageFromSlice at hm
      split at hm
      · rename_i short
        cases hm
        exact short
      · cases hm
    rw [← Except.ok.inj signs]
    exact hexFormat_encode (by simp [sixtyFour message _ short])
  have column := signed_column signed (SlotColumn.fits_of_nonneg nonneg)
  simp [CommitmentRow.checks,CommitmentRow.chkRequestHashFormat,CommitmentRow.chkSlasherFormat,
    CommitmentRow.chkSignatureFormat,CommitmentRow.chkCommitmentTypePositive,CommitmentRow.chkSlotNumberPositive,
    NewCommitment.row,newCommitmentOf,column,nonneg,slasher,requestHash,signature]

end Serve

/-- With every party answering, a legitimate request is served and later picked up exactly if
its slasher is spelt as the committer of the delegation, which is the own address, the lookup
meets the delegation before any other match, and the slot is affordable. -/
theorem legitimate_served_iff (g : Gateway P)
    (sixtyFour : ∀ message key, message.length = 32 → (P.signEcdsaRecoverable message key).1.length = 64)
    {w w' : World P} {request : CommitmentRequest} {slot : UInt64} {hash : String} {d : SignedDelegation}
    {rows : List DelegationRow} {duty : Except String (Option ValidatorDuty)} {info : GasPriceInfo}
    (legit : Legitimate g w request slot hash d duty) {t t' : Nat} {es : Trace P} {r : RpcResult SignedCommitment}
    (run : Run g.machine Eq (commitmentRequestHandler g.config (some request)) w t es r w' t')
    (available : Available slot rows duty info es) :
    ((∃ sc, r = .ok sc) ∧ PickedUp g w' slot d.message.committer hash request.payload) ↔
      request.slasher = d.message.committer ∧
        (∃ ds, rows.mapM signedDelegationOf = .ok ds ∧ findDelegation slot request.slasher ds = some d) ∧
          Affordable g.config w request.payload slot info := by
  rw [commitmentRequestHandler_split] at run
  obtain ⟨es₁,authorised,w₁,t₁,es₂,rfl,hauthorise,hstore⟩ := run.bind_inv
  have lookup := authorise_answers legit hauthorise available.parts.1
  have looking : (authoriseRequest g.config request).Obeys (fun op : Op P => Looks op.query)
      (fun r => ∀ slot sc, r = .ok (slot, sc) → Signed g.config request slot sc) :=
    authoriseRequest_obeys (fun hash => .inl ⟨hash,rfl⟩) (fun slot => .inr (.inl ⟨slot,rfl⟩))
      (fun slot _ => .inr (.inr ⟨slot,rfl⟩))
  have obeys := hauthorise.obeys looking
  obtain rfl := looks_still hauthorise obeys.1
  rw [← lookup]
  rcases authorised with e | ⟨slot',sc⟩
  · obtain ⟨_,rfl,_⟩ := hstore.ret_inv
    simp
  · have signed := obeys.2 slot' sc rfl
    obtain rfl : slot' = slot := Except.ok.inj (signed.slot_eq.symm.trans legit.slot_eq)
    obtain rfl : sc.commitment.requestHash = hash := Except.ok.inj (signed.requestHash.symm.trans legit.hash_eq)
    obtain ⟨ends,leaves⟩ := store_answers signed legit.fresh hstore available.parts.2
    have fits := SlotColumn.fits_of_nonneg (held_checked legit.held).2
    have picked (served : ∃ found, r = .ok found) :
        PickedUp g w' slot' d.message.committer sc.commitment.requestHash request.payload ↔
          request.slasher = d.message.committer := by
      obtain ⟨id,createdAt,stored⟩ := leaves served
      have row : (newCommitmentOf P sc 1).row id createdAt ∈ w'.commitments.rows := by
        rw [stored]
        exact List.mem_append_right _ List.mem_cons_self
      have columns : PickedUp g w' slot' d.message.committer sc.commitment.requestHash sc.commitment.payload ↔
          sc.commitment.slasher = d.message.committer := picked_up_iff row rfl fits (signed_column signed fits) rfl
      have payload : sc.commitment.payload = request.payload := by rw [signed.commitment]
      have slasher : sc.commitment.slasher = request.slasher := by rw [signed.commitment]
      rw [← slasher,← payload]
      exact columns
    constructor
    · rintro ⟨served,picks⟩
      exact ⟨(picked served).mp picks,⟨_,rfl⟩,(ends.mp served).2⟩
    · rintro ⟨spelt,_,affordable⟩
      have served := ends.mpr ⟨signed_checks sixtyFour legit spelt signed 0 0,affordable⟩
      exact ⟨served,(picked served).mpr spelt⟩

/-- Where every party is up the small gateway has all it needs. -/
theorem available_up {es : Trace (platform offer)} (h : es.all up = true) :
    Available 5 (polled offer) (.ok (some scheduled)) ⟨10⟩ es := by
  rw [List.all_eq_true] at h
  refine ⟨?_,?_,?_,?_⟩
  · rintro (e | rows) ⟨_,_,_,_,hm⟩
    · cases h _ hm
    · exact congrArg _ (of_decide_eq_true (h _ hm))
  · rintro (e | duty) ⟨_,_,_,_,hm⟩
    · cases h _ hm
    · exact congrArg _ (of_decide_eq_true (h _ hm))
  · rintro (e | price) ⟨_,_,_,_,hm⟩
    · cases h _ hm
    · exact congrArg _ (of_decide_eq_true (h _ hm))
  · rintro s e ⟨_,_,_,_,hm⟩
    have down := h _ hm
    cases s <;> cases down

theorem offer_held : Held stored 5 (delegation 2 own 5) :=
  ⟨(newDelegationOf (delegation 2 own 5)).row 0,by decide +kernel,by decide +kernel⟩

theorem offer_good : Good (P := platform offer) (.ok (some scheduled)) (delegation 2 own 5) :=
  ⟨by decide +kernel,scheduled,rfl,DelegationLookup.scheduled_names⟩

/-- The request of the small gateway is served and can be picked up. -/
theorem legitimate_served : ∃ es, Run small.machine Eq (commitmentRequestHandler small.config (some (request 5 7 own)))
    stored 61000 es (.ok signed) served 61000 ∧
      PickedUp small served 5 own signed.commitment.requestHash (payload 5 7) := by
  obtain ⟨es,run,all⟩ := Atomicity.serve_run
  have legit : Legitimate small stored (request 5 7 own) 5 signed.commitment.requestHash (delegation 2 own 5)
      (.ok (some scheduled)) :=
    ⟨rfl,by decide +kernel,⟨own,by decide,rfl⟩,by decide +kernel,rfl,offer_held,rfl,offer_good⟩
  have sixtyFour (message key : Bytes) (short : message.length = 32) :
      ((platform offer).signEcdsaRecoverable message key).1.length = 64 := by
    change (message ++ Abi.bigEndian 32 _).length = 64
    rw [List.length_append,short,bigEndian_length]
  have affordable : Affordable small.config stored (payload 5 7) 5 ⟨10⟩ := by
    refine ⟨31016,.new 5 10 30000000 60,by decide +kernel,⟨60,by decide +kernel,by decide +kernel,rfl⟩,?_⟩
    decide +kernel
  have read : (polled offer).mapM signedDelegationOf = .ok offer := by decide +kernel
  have found : findDelegation 5 own offer = some (delegation 2 own 5) := by decide +kernel
  exact ⟨es,run,((legitimate_served_iff small sixtyFour legit run (available_up all)).mpr
    ⟨rfl,⟨offer,read,found⟩,affordable⟩).2⟩

/-- A slasher contract, which is not the own address. -/
def slasherContract : String := "0x1212121212121212121212121212121212121212"

/-- The contract is on the whitelist and its request legitimate, but it has no delegation. -/
theorem contract_refused : ∃ hash es, Legitimate (gateway offer [slasherContract] [] 2) stored
    (request 5 7 slasherContract) 5 hash (delegation 2 own 5) (.ok (some scheduled)) ∧
      Run (gateway offer [slasherContract] [] 2).machine Eq
        (commitmentRequestHandler (gateway offer [slasherContract] [] 2).config (some (request 5 7 slasherContract)))
        stored 61000 es (.error .invalidRequest) stored 61000 ∧
          Available 5 (polled offer) (.ok (some scheduled)) ⟨10⟩ es := by
  have hashed : (generateRequestHash (platform offer) (request 5 7 slasherContract)).toOption.isSome = true := by
    decide +kernel
  cases hash_eq : generateRequestHash (platform offer) (request 5 7 slasherContract) with
  | error e =>
    rw [hash_eq] at hashed
    cases hashed
  | ok hash =>
    have legit : Legitimate (gateway offer [slasherContract] [] 2) stored (request 5 7 slasherContract) 5 hash
        (delegation 2 own 5) (.ok (some scheduled)) :=
      ⟨rfl,by decide +kernel,⟨slasherContract,by decide,rfl⟩,hash_eq,rfl,offer_held,rfl,offer_good⟩
    have read : (stored.delegations.activeForSlot 5).mapM signedDelegationOf = .ok offer := by decide +kernel
    have none : findDelegation 5 slasherContract offer = none := by decide +kernel
    have held : stored.delegations.activeForSlot 5 = polled offer := by decide +kernel
    have lookup : Run (gateway offer [slasherContract] [] 2).machine Eq
        (verifyDelegationAuthority (gateway offer [slasherContract] [] 2).config 5 slasherContract) stored 61000
        [⟨.plain (.sql (.selectDelegations 5)), .ok (stored.delegations.activeForSlot 5), 61000, 61000, stored, stored⟩]
        (.error ("No valid delegation found for slot " ++ toString (5 : UInt64) ++ " and committer " ++
          slasherContract ++ ". Cannot sign commitment without delegation authority.")) stored 61000 := by
      refine ask_step (v := stored) ⟨.delegations (stored.delegations.activeForSlot 5),?_⟩ ?_
      · simp [world,Op.respond,Query.respond,Statement.execute,List.isPerm_iff]
      · simp only [Program.bind,Program.pure_eq_ret,read,none]
        exact .ret _ _ _
    have run : Run (gateway offer [slasherContract] [] 2).machine Eq
        (commitmentRequestHandler (gateway offer [slasherContract] [] 2).config (some (request 5 7 slasherContract)))
        stored 61000 [⟨.plain (.sql (.commitmentExists hash)), .ok false, 61000, 61000, stored, stored⟩,
          ⟨.plain (.sql (.selectDelegations 5)), .ok (stored.delegations.activeForSlot 5), 61000, 61000, stored, stored⟩]
        (.error .invalidRequest) stored 61000 := by
      unfold commitmentRequestHandler
      dsimp only
      rw [legit.admitted]
      exact ask_step (v := stored) ⟨.done,rfl⟩ (lookup.bind (.ret _ _ _))
    refine ⟨hash,_,legit,run,available_up ?_⟩
    simp [up,held]

end PreconfGateway.Properties.LegitimateRequest
