import PreconfGateway.Interleaving.Clocked
import PreconfGateway.Interleaving.Expansion
import PreconfGateway.Rpc.Stages
import PreconfGateway.Server

/-! On what grounds the tables change: what a job had been told when it stored delegations, switched
them off, or opened the record of a slot with a price. -/
namespace PreconfGateway.Grounds
open Encoding Types Db Crypto Interleaving Rpc Services
variable {P : Platform} {g : Gateway P} {w₀ : World P} {s : State (requests P) (World P) Entry Ending}

/-- The status of the validator was given as this, and what follows from it. -/
def Judged (tr : Trace P) (proposer : Bytes) (verdict : Bool) : Prop :=
  ∃ (pubkey : BlsPublicKey) (status : ValidatorInfo), proposer = pubkey.bytes ∧
    Told tr (.validatorStatus pubkey) (.ok status) ∧ DelegationPolling.eligible status = verdict

/-- The relay listed the delegation, in a good reply about the slot. -/
def Offered (tr : Trace P) (slot : UInt64) (d : SignedDelegation) : Prop :=
  ∃ (body : Bytes) (ds : List SignedDelegation), Told tr (.getDelegations slot) (.ok ⟨200, some body⟩) ∧
    P.delegationsResponseFromJson body = .ok ds ∧ d ∈ ds

/-- The slot was the current one by the clock. -/
def Current (g : Gateway P) (tr : Trace P) (slot : Int64) : Prop :=
  ∃ now : UInt64, Told tr .now now ∧
    slot = (BeaconTiming.currentSlotEstimate g.config.beaconApi.genesisTime now).toInt64

/-- The price was given, and is held to the largest that fits. -/
def Priced (tr : Trace P) (base : Int64) : Prop :=
  ∃ info : GasPriceInfo, Told tr .gasPrice (.ok info) ∧ base = info.gasPriceAsU64Clamped.toInt64

/-- What a job has been told before it changes a table. -/
structure Grounded (g : Gateway P) (tr : Trace P) (e : Event (requests P) (World P)) : Prop where
  stored : ∀ news, e.op.query = .sql (.insertDelegations news) → ∀ n ∈ news, Judged tr n.proposerPubkey true
  offered : ∀ news, e.op.query = .sql (.insertDelegations news) → ∀ n ∈ news,
    ∃ slot d, n = newDelegationOf d ∧ Acceptable g.config d ∧ Offered tr slot d
  expired : ∀ slot, e.op.query = .sql (.updateExpired slot) → Current g tr slot
  left : ∀ id, e.op.query = .sql (.updateInactive id) →
    ∃ row ∈ e.pre.delegations.rows, row.id = id ∧ Judged tr row.proposerPubkey false
  opened : ∀ row, e.op.query = .sql (.insertCongestion row) → Priced tr row.baseGasPrice

theorem told_after {tr : Trace P} {q : Query P} {r : q.Reply} (h : Told tr q r) (newer : Trace P) :
    Told (newer ++ tr) q r := by
  obtain ⟨t,u,w,w',h⟩ := h
  exact ⟨t,u,w,w',List.mem_append_right _ h⟩

theorem Judged.after {tr : Trace P} {proposer : Bytes} {verdict : Bool} (h : Judged tr proposer verdict) (newer : Trace P) :
    Judged (newer ++ tr) proposer verdict := by
  obtain ⟨pubkey,status,key,told,judged⟩ := h
  exact ⟨pubkey,status,key,told_after told newer,judged⟩

theorem Offered.after {tr : Trace P} {slot : UInt64} {d : SignedDelegation} (h : Offered tr slot d) (newer : Trace P) :
    Offered (newer ++ tr) slot d := by
  obtain ⟨body,ds,told,read,listed⟩ := h
  exact ⟨body,ds,told_after told newer,read,listed⟩

/-- A request that changes none of these tables. -/
structure Harmless (q : Query P) : Prop where
  insertDelegations : ∀ news, q ≠ .sql (.insertDelegations news)
  updateExpired : ∀ slot, q ≠ .sql (.updateExpired slot)
  updateInactive : ∀ id, q ≠ .sql (.updateInactive id)
  insertCongestion : ∀ row, q ≠ .sql (.insertCongestion row)

theorem Harmless.grounded {e : Event (requests P) (World P)} (h : Harmless e.op.query) (tr : Trace P) : Grounded g tr e where
  stored news he := absurd he (h.insertDelegations news)
  offered news he := absurd he (h.insertDelegations news)
  expired slot he := absurd he (h.updateExpired slot)
  left id he := absurd he (h.updateInactive id)
  opened row he := absurd he (h.insertCongestion row)

abbrev grounding (g : Gateway P) : Contract (requests P) (World P) := Gateway.discipline (fun _ => True) (Grounded g)

section Programs
variable {α : Type} {tr : Trace P} {w : World P} {t : Nat}

theorem harmless_ask {Q : Trace P → α → World P → Nat → Prop} {q : Query P} {f : q.Reply → Async P α} (harmless : Harmless q)
    (h : ∀ w₁ u r w₂, w.Evolves w₁ → g.machine.Answers u w₁ (.plain q) r w₂ →
      (grounding g).Safe g.machine Q (f r) (⟨.plain q, r, t, u, w₁, w₂⟩ :: tr) w₂ u) :
    (grounding g).Safe g.machine Q (ask q >>= f) tr w t :=
  Gateway.safe_ask fun w₁ u r w₂ _ rely _ answers => ⟨Harmless.grounded (e := ⟨.plain q, r, t, u, w₁, w₂⟩) harmless tr,h w₁ u r w₂ rely answers⟩

theorem harmless_safe {p : Async P α} {post : α → Prop} (h : p.Obeys (fun op : Op P => Harmless op.query) post) :
    (grounding g).Safe g.machine (fun tr' a _ _ => post a ∧ ∃ newer, tr' = newer ++ tr) p tr w t :=
  Contract.Safe.obeys_after h (fun _ _ _ _ _ => trivial) fun newer _ harmless => harmless.grounded (newer ++ tr)

theorem harmless_status (pubkey : BlsPublicKey) : Harmless (P := P) (.validatorStatus pubkey) :=
  ⟨fun _ h => (by cases h),fun _ h => (by cases h),fun _ h => (by cases h),fun _ h => (by cases h)⟩

theorem filterEligibleDelegations_safe {ds : List SignedDelegation} :
    (grounding g).Safe g.machine (fun tr kept _ _ => ∀ d ∈ kept, Judged tr d.message.proposer.bytes true)
      (DelegationPolling.filterEligibleDelegations ds) tr w t := by
  induction ds generalizing tr w t with
  | nil => exact fun d hd => nomatch hd
  | cons d ds ih =>
    refine harmless_ask ⟨nofun,nofun,nofun,nofun⟩ fun w₁ u r w₂ _ _ => ?_
    refine ih.suffix.bind fun tr' kept w t judged => ?_
    obtain ⟨judged,newer,rfl⟩ := judged
    rcases r with e | status
    · exact judged
    · refine Contract.Safe.ret ?_
      split
      · rename_i good
        refine List.forall_mem_cons.mpr ⟨?_,judged⟩
        exact ⟨_,status,rfl,told_after (told_here.mpr (.inl rfl)) newer,good⟩
      · exact judged

theorem getDelegationsForSlot_safe {slot : UInt64} :
    (grounding g).Safe g.machine (fun tr r _ _ => ∀ ds, r = .ok ds → ∀ d ∈ ds, Offered tr slot d)
      (Api.getDelegationsForSlot P slot) tr w t := by
  refine harmless_ask ⟨nofun,nofun,nofun,nofun⟩ fun w₁ u r w₂ _ _ => ?_
  rcases r with e | ⟨status,body⟩
  · intro ds h
    cases h
  · dsimp only
    split
    · rename_i good
      change status = 200 at good
      subst good
      cases body with
      | none =>
        intro ds h
        cases h
      | some body =>
        intro ds h d hd
        exact ⟨body,ds,told_here.mpr (.inl rfl),mapError_ok.mp h,hd⟩
    · split
      · intro ds h d hd
        cases h
        cases hd
      · intro ds h
        cases h

theorem pollDelegationsForSlot_safe {slot : UInt64} :
    (grounding g).Safe g.machine (fun _ _ _ _ => True) (DelegationPolling.pollDelegationsForSlot g.config slot) tr w t := by
  refine getDelegationsForSlot_safe.bind fun tr r w t offered => ?_
  rcases r with e | delegations
  · exact trivial
  · dsimp only
    split
    · exact trivial
    · have within_ := @filterEligibleDelegations_obeys P (fun op : Op P => True)
        ((delegations.filter (fun d => d.message.delegate = g.config.signing.blsPublicKey)).filter
          (fun d => BlsManager.verifyDelegationSignature P d = .ok true)) (fun _ => trivial)
      refine (filterEligibleDelegations_safe.suffix.result within_).bind fun tr' kept w t judged => ?_
      obtain ⟨⟨judged,earlier,rfl⟩,kept_of⟩ := judged
      split
      · exact trivial
      · have saved : (saveDelegationsBatch P kept).Obeys
            (fun op : Op P => op.query = .sql (.insertDelegations (kept.map newDelegationOf))) (fun _ => True) :=
          saveDelegationsBatch_obeys rfl
        refine Contract.Safe.bind (Contract.Safe.obeys_after saved (fun _ _ _ _ _ => trivial) ?_) fun _ _ _ _ _ => trivial
        intro newer e insert
        refine ⟨?_,?_,fun _ h => ?_,fun _ h => ?_,fun _ h => ?_⟩
        · intro news same n hn
          rw [insert] at same
          cases same
          obtain ⟨d,hd,rfl⟩ := List.mem_map.mp hn
          exact (judged d hd).after newer
        · intro news same n hn
          rw [insert] at same
          cases same
          obtain ⟨d,hd,rfl⟩ := List.mem_map.mp hn
          obtain ⟨relevant,verified⟩ := List.mem_filter.mp (kept_of hd)
          obtain ⟨listed,own⟩ := List.mem_filter.mp relevant
          exact ⟨slot,d,rfl,⟨of_decide_eq_true own,of_decide_eq_true verified⟩,
            ((offered delegations rfl d listed).after earlier).after newer⟩
        all_goals
          rw [insert] at h
          cases h

theorem pollSlots_safe {slots : List UInt64} :
    (grounding g).Safe g.machine (fun _ _ _ _ => True) (DelegationPolling.pollSlots g.config slots) tr w t := by
  induction slots generalizing tr w t with
  | nil => exact trivial
  | cons slot slots ih =>
    exact pollDelegationsForSlot_safe.bind fun _ _ _ _ _ => harmless_ask ⟨nofun,nofun,nofun,nofun⟩ fun _ _ _ _ _ _ => ih

theorem pollDelegations_safe :
    (grounding g).Safe g.machine (fun _ _ _ _ => True) (DelegationPolling.pollDelegations g.config) tr w t :=
  harmless_ask ⟨nofun,nofun,nofun,nofun⟩ fun _ _ _ _ _ _ => pollSlots_safe.bind fun _ _ _ _ _ => trivial

/-- The rows that are gone through are in the table. -/
def Listed (rows : List (Nat × Bytes)) (w : World P) : Prop :=
  ∀ d ∈ rows, ∃ row ∈ w.delegations.rows, row.id = d.1 ∧ row.proposerPubkey = d.2

theorem Listed.later {rows : List (Nat × Bytes)} {w w' : World P} (h : Listed rows w) (later : w.Evolves w') :
    Listed rows w' := by
  intro d hd
  obtain ⟨row,hrow,id,key⟩ := h d hd
  obtain ⟨row',hrow',same,_⟩ := later.delegations row hrow
  refine ⟨row',hrow',?_,?_⟩ <;> rw [same]
  · exact id
  · exact key

theorem Listed.tail {d : Nat × Bytes} {rows : List (Nat × Bytes)} {w : World P} (h : Listed (d :: rows) w) : Listed rows w :=
  fun d hd => h d (List.mem_cons_of_mem _ hd)

theorem checkActiveDelegations_safe {rows : List (Nat × Bytes)} (listed : Listed rows w) :
    (grounding g).Safe g.machine (fun _ _ _ _ => True) (DelegationPolling.checkActiveDelegations rows) tr w t := by
  induction rows generalizing tr w t with
  | nil => exact trivial
  | cons row rows ih =>
    obtain ⟨id,proposer⟩ := row
    unfold DelegationPolling.checkActiveDelegations
    split
    · rename_i long
      refine harmless_ask (harmless_status _) fun w₁ u r w₂ rely answers => ?_
      have listed₂ := (listed.later rely).later (Answers.evolves answers)
      rcases r with e | status
      · exact ih listed₂.tail
      · dsimp only
        split
        · rename_i bad
          refine Gateway.safe_ask fun w₃ x r w₄ _ rely₂ _ answers₂ => ⟨?_,?_⟩
          · refine ⟨fun _ h => (by cases h),fun _ h => (by cases h),fun _ h => (by cases h),?_,fun _ h => (by cases h)⟩
            rintro _ ⟨⟩
            obtain ⟨row,hrow,same,key⟩ := listed₂.later rely₂ _ List.mem_cons_self
            refine ⟨row,hrow,same,⟨proposer,long⟩,status,key,told_here.mpr (.inl rfl),?_⟩
            obtain ⟨active,slashed⟩ := status
            cases active <;> cases slashed <;> first | rfl | cases bad
          · rcases r with e | done
            · exact trivial
            · exact ih ((listed₂.later rely₂).later (Answers.evolves answers₂)).tail
        · exact ih listed₂.tail
    · exact ih listed.tail

theorem cleanupExpiredDelegations_safe :
    (grounding g).Safe g.machine (fun _ _ _ _ => True) (DelegationPolling.cleanupExpiredDelegations g.config) tr w t := by
  refine harmless_ask ⟨nofun,nofun,nofun,nofun⟩ fun w₁ u now w₂ _ _ => ?_
  dsimp only [deactivateExpiredDelegations]
  refine Gateway.safe_ask fun w₃ x r w₄ _ _ _ _ => ⟨?_,?_⟩
  · refine ⟨fun _ h => (by cases h),fun _ h => (by cases h),?_,fun _ h => (by cases h),fun _ h => (by cases h)⟩
    rintro _ ⟨⟩
    exact ⟨now,told_here.mpr (.inl rfl),rfl⟩
  · rcases r with e | count
    · exact trivial
    · refine harmless_ask ⟨nofun,nofun,nofun,nofun⟩ fun w₅ y r w₆ _ answers => ?_
      rcases r with e | rows
      · exact trivial
      · obtain ⟨c,executed⟩ := Answers.executed answers
        refine checkActiveDelegations_safe fun d hd => ?_
        obtain ⟨row,hrow,rfl⟩ := List.mem_map.mp hd
        cases c with
        | delegations rows' =>
          obtain ⟨perm,he⟩ := Option.ite_none_right_eq_some.mp executed
          cases he
          exact ⟨row,(List.mem_filter.mp ((List.isPerm_iff.mp perm).mem_iff.mp hrow)).1,rfl,rfl⟩
        | _ => cases executed

/-- The record of a slot is opened with the price that was just given. -/
theorem calculateFee_safe {commitmentType slot : UInt64} {payload : Bytes} :
    (grounding g).Safe g.machine (fun _ _ _ _ => True)
      (FeePricing.calculateFeeForCommitment g.config commitmentType payload slot) tr w t := by
  refine harmless_ask ⟨nofun,nofun,nofun,nofun⟩ fun w₁ u r w₂ _ _ => ?_
  rcases r with e | info
  · exact trivial
  · dsimp only [Except.mapError]
    split
    · exact trivial
    · have opened : (getOrCreateSlotCongestion (P := P) slot info.gasPriceAsU64Clamped
          g.config.reth.feeConfig.defaultGasLimit g.config.beaconApi.genesisTime).Obeys
          (fun op : Op P => Harmless op.query ∨ ∃ row : CongestionRow P, op.query = .sql (.insertCongestion row) ∧
            row.baseGasPrice = info.gasPriceAsU64Clamped.toInt64) (fun _ => True) :=
        getOrCreate_obeys (fun start _ => .inr ⟨_,rfl,rfl⟩) (.inl ⟨nofun,nofun,nofun,nofun⟩)
      refine Contract.Safe.bind (Contract.Safe.obeys_after opened (fun _ _ _ _ _ => trivial) ?_) fun _ r _ _ _ => ?_
      · rintro newer e (harmless | ⟨row,insert,base⟩)
        · exact harmless.grounded _
        · refine ⟨fun _ h => ?_,fun _ h => ?_,fun _ h => ?_,fun _ h => ?_,fun _ h => ?_⟩ <;> rw [insert] at h <;> cases h
          exact ⟨info,told_after (told_here.mpr (.inl rfl)) newer,base⟩
      · cases r <;> exact trivial

theorem storeCommitment_safe {request : CommitmentRequest} {slot : UInt64} {sc : SignedCommitment} :
    (grounding g).Safe g.machine (fun _ _ _ _ => True) (storeCommitment g.config request slot sc) tr w t := by
  have saved : (saveCommitment P sc).Obeys (fun op : Op P => Harmless op.query) (fun _ => True) := by
    unfold saveCommitment
    split
    · exact trivial
    · exact obeys_asked ⟨nofun,nofun,nofun,nofun⟩ fun _ => trivial
  refine (harmless_safe saved).bind fun tr r w t _ => ?_
  rcases r with e | found
  · exact trivial
  · cases found with
    | none => exact trivial
    | some id =>
      refine calculateFee_safe.bind fun tr r w t _ => ?_
      have applied {gas : UInt64} : (FeePricing.applyGasUsageToSlot g.config slot gas).Obeys
          (fun op : Op P => Harmless op.query) (fun _ => True) :=
        applyGasUsage_obeys fun _ _ => ⟨nofun,nofun,nofun,nofun⟩
      rcases r with e | calculation
      · cases e <;> exact trivial
      · refine (harmless_safe applied).bind fun tr r w t _ => ?_
        rcases r with e | congestion
        · cases e <;> exact trivial
        · exact trivial

theorem commitmentRequestHandler_safe {params : Option CommitmentRequest} :
    (grounding g).Safe g.machine (fun _ _ _ _ => True) (commitmentRequestHandler g.config params) tr w t := by
  cases params with
  | none => exact trivial
  | some request =>
    rw [commitmentRequestHandler_split]
    have authorised : (authoriseRequest g.config request).Obeys (fun op : Op P => Harmless op.query) _ :=
      authoriseRequest_obeys (fun _ => ⟨nofun,nofun,nofun,nofun⟩) (fun _ => ⟨nofun,nofun,nofun,nofun⟩)
        (fun _ _ => ⟨nofun,nofun,nofun,nofun⟩)
    refine (harmless_safe authorised).bind fun tr r w t _ => ?_
    rcases r with e | ⟨slot,sc⟩
    · exact trivial
    · exact storeCommitment_safe

theorem code_safe (j : Job) : (grounding g).Safe g.machine (fun _ _ _ _ => True) (g.code j) tr w t := by
  cases j with
  | commitmentRequest params => exact commitmentRequestHandler_safe.bind fun _ _ _ _ _ => trivial
  | pollDelegations => exact pollDelegations_safe.bind fun _ _ _ _ _ => trivial
  | cleanupExpiredDelegations => exact cleanupExpiredDelegations_safe.bind fun _ _ _ _ _ => trivial
  | _ =>
    refine (harmless_safe ((g.code_obeys _).mono ?_ fun _ _ => trivial)).mono fun _ _ _ _ _ => trivial
    intro op asks
    generalize op.query = q at asks ⊢
    cases asks <;> exact ⟨nofun,nofun,nofun,nofun⟩

/-- A fee opens a record with the price it was given, as a commitment does. -/
theorem feeHandler_safe {params : Option CommitmentRequest} :
    (grounding g).Safe g.machine (fun _ _ _ _ => True) (feeHandler g.config params) tr w t := by
  cases params with
  | none => exact trivial
  | some request =>
    unfold feeHandler
    dsimp only
    split
    · exact trivial
    · split
      · exact trivial
      · rename_i slot _
        have acceptable : (FeePricing.isSlotAcceptableForFees g.config slot).Obeys (fun op : Op P => Harmless op.query)
            (fun _ => True) := obeys_asked ⟨nofun,nofun,nofun,nofun⟩ fun _ => trivial
        refine (harmless_safe acceptable).bind fun tr a w t _ => ?_
        split
        · refine calculateFee_safe.bind fun tr r w t _ => ?_
          rcases r with e | fee
          · cases e <;> exact trivial
          · exact trivial
        · exact trivial

theorem further_safe (k : Call) : (grounding g).Safe g.machine (fun _ _ _ _ => True) (g.further k) tr w t := by
  cases k with
  | fee params => exact feeHandler_safe.bind fun _ _ _ _ _ => trivial
  | slots => exact harmless_ask ⟨nofun,nofun,nofun,nofun⟩ fun _ _ _ _ _ _ => trivial
  | refreshGasPrice => exact harmless_ask ⟨nofun,nofun,nofun,nofun⟩ fun _ _ _ _ _ _ => trivial

end Programs

theorem grounds_verified (g : Gateway P) :
    Verified g.server (g.terms (fun _ => True) (fun _ => Grounded g) (fun _ => Grounded g)) World.Evolves
      (Beside (fun _ _ _ _ _ => True) (fun _ _ _ _ _ => True)) :=
  Gateway.verified_server (Gateway.verified (fun j _ _ _ => code_safe j) (fun _ _ _ _ _ _ _ => trivial))
    (fun k _ _ _ => further_safe k) (fun _ _ _ _ _ _ _ => trivial)

/-- Whoever changes one of the tables had its grounds before. -/
theorem reached_grounded (hr : Reachable g.server w₀ s) {id : Nat} {entry : Entry} {e : Event (requests P) (World P)}
    (saw : s.Saw id entry e) : g.Requests entry e.op.query ∧ e.start ≤ e.stop ∧
      ∃ older, Grounded g older e ∧ s.Seen id entry older e.start := by
  obtain ⟨older,_,grounded,spans,seen⟩ := (grounds_verified g).kept (by rintro (j | k) <;> exact trivial) hr saw
  refine ⟨(server_event hr saw).1,spans,older,?_,seen⟩
  cases entry <;> exact grounded.2

/-- A delegation that was not there at the start was stored by a poll. -/
theorem stored_event (hr : Reachable g.server w₀ s) {row : DelegationRow} (hrow : row ∈ s.world.delegations.rows)
    (absent : ∀ r ∈ w₀.delegations.rows, r.key ≠ row.key) :
    ∃ id e news new rowId, s.Saw id (.inl .pollDelegations) e ∧ e.op.query = .sql (.insertDelegations news) ∧ new ∈ news ∧
      (∀ r ∈ e.pre.delegations.rows, r.key ≠ row.key) ∧ new.row rowId ∈ e.post.delegations.rows ∧
      (new.row rowId).Later row := by
  obtain ⟨id,entry,e,saw,before,r,hm,same⟩ := hr.provenance
    (fun w => ∃ r ∈ w.delegations.rows, r.key = row.key) (fun ⟨r,hm,same⟩ => absent r hm same) ⟨row,hrow,rfl⟩
  obtain ⟨asks,answers,evolved⟩ := server_event hr saw
  have changes := Changes.of_answers answers
  have later : r.Later row := by
    obtain ⟨r',hm',later⟩ := evolved.delegations r hm
    have key : r'.key = r.key := by
      rw [later.1]
      rfl
    rwa [Delegations.key_injective hm' hrow (key.trans same)] at later
  generalize hq : e.op.query = q at changes asks
  generalize hw : e.post = w' at changes
  cases changes with
  | stored news ids kept delegations long added =>
    have listed := hm
    rw [hw] at listed
    rcases Delegations.stored_rows added r listed with old | ⟨n,hn,rowId,rfl⟩
    · exact absurd ⟨r,old,same⟩ before
    · rcases asks with ⟨asks⟩ | ⟨asks⟩ <;> cases asks
      exact ⟨id,e,_,n,rowId,saw,hq,hn,fun r hm same => before ⟨r,hm,same⟩,hm,later⟩
  | switchedOff _ p _ =>
    rw [hw] at hm
    obtain ⟨old,ho,rfl⟩ := List.mem_map.mp hm
    exact absurd ⟨old,ho,by simpa using same⟩ before
  | same | inserted | marked | recorded | counted | taken =>
    rw [hw] at hm
    exact absurd ⟨r,hm,same⟩ before

/-- It was stored when its proposer had been judged fit. -/
theorem stored_grounds (hr : Reachable g.server w₀ s) {row : DelegationRow} (hrow : row ∈ s.world.delegations.rows)
    (absent : ∀ r ∈ w₀.delegations.rows, r.key ≠ row.key) :
    ∃ id e older, s.Saw id (.inl .pollDelegations) e ∧ s.Seen id (.inl .pollDelegations) older e.start ∧
      Judged older row.proposerPubkey true ∧ (∃ news, e.op.query = .sql (.insertDelegations news)) ∧
      (∀ r ∈ e.pre.delegations.rows, r.key ≠ row.key) ∧ ∃ r ∈ e.post.delegations.rows, r.Later row := by
  obtain ⟨id,e,news,new,rowId,saw,insert,listed,before,after,later⟩ := stored_event hr hrow absent
  obtain ⟨_,_,older,grounded,seen⟩ := reached_grounded hr saw
  have proposer : new.proposerPubkey = row.proposerPubkey := by
    rw [later.1]
    rfl
  have judged := grounded.stored news insert new listed
  rw [proposer] at judged
  exact ⟨id,e,older,saw,seen,judged,⟨news,insert⟩,before,_,after,later⟩

/-- A delegation is switched off when its slot is over by the clock, or its proposer has been judged unfit. -/
theorem off_grounds (hr : Reachable g.server w₀ s) {row : DelegationRow} (hrow : row ∈ s.world.delegations.rows)
    (off : row.isActive = false) (absent : ∀ r ∈ w₀.delegations.rows, r.key ≠ row.key) :
    ∃ id e older, s.Saw id (.inl .cleanupExpiredDelegations) e ∧ s.Seen id (.inl .cleanupExpiredDelegations) older e.start ∧
      ((∃ slot, row.slotNumber < slot ∧ Current g older slot) ∨ Judged older row.proposerPubkey false) ∧
      (∃ statement, e.op.query = .sql statement) ∧ (∀ r ∈ e.pre.delegations.rows, r.key = row.key → r.isActive = true) ∧
      ∃ r ∈ e.post.delegations.rows, r.key = row.key ∧ r.isActive = false := by
  obtain ⟨id,entry,e,saw,before,r,hm,same,inactive⟩ := hr.provenance
    (fun w => ∃ r ∈ w.delegations.rows, r.key = row.key ∧ r.isActive = false)
    (fun ⟨r,hm,same,_⟩ => absent r hm same) ⟨row,hrow,rfl,off⟩
  obtain ⟨asks,_,older,grounded,seen⟩ := reached_grounded hr saw
  have changes := Changes.of_answers (server_event hr saw).2.1
  have switched : (∀ r ∈ e.pre.delegations.rows, r.key = row.key → r.isActive = true) ∧
      ∃ r ∈ e.post.delegations.rows, r.key = row.key ∧ r.isActive = false :=
    ⟨fun r hr key => eq_true_of_ne_false fun off => before ⟨r,hr,key,off⟩,r,hm,same,inactive⟩
  generalize hq : e.op.query = q at changes asks
  generalize hw : e.post = w' at changes
  cases changes with
  | stored news ids found delegations long added =>
    rw [hw] at hm
    rcases Delegations.stored_rows added r hm with old | ⟨n,_,rowId,rfl⟩
    · exact absurd ⟨r,old,same,inactive⟩ before
    · cases inactive
  | switchedOff _ p how =>
    rw [hw] at hm
    obtain ⟨old,ho,rfl⟩ := List.mem_map.mp hm
    have meant : p old = true := by
      by_contra other
      refine before ⟨old,ho,by simpa using same,?_⟩
      rwa [DelegationRow.off,if_neg other] at inactive
    have key : old.key = row.key := by simpa using same
    rcases how with ⟨slot,rfl,rfl⟩ | ⟨number,rfl,rfl⟩ <;> rcases asks with ⟨asks⟩ | ⟨asks⟩ <;> cases asks
    · have number : old.slotNumber = row.slotNumber := congrArg Prod.snd key
      refine ⟨id,e,older,saw,seen,.inl ⟨slot,?_,grounded.expired slot hq⟩,⟨_,hq⟩,switched⟩
      rw [← number]
      exact of_decide_eq_true meant
    · obtain ⟨judged,hj,sameId,unfit⟩ := grounded.left number hq
      have this : judged = old := List.inj_on_of_nodup_map e.pre.delegations.ids hj ho
        (sameId.trans (of_decide_eq_true meant).symm)
      have proposer : old.proposerPubkey = row.proposerPubkey := congrArg Prod.fst key
      rw [this,proposer] at unfit
      exact ⟨id,e,older,saw,seen,.inr unfit,⟨_,hq⟩,switched⟩
  | same | inserted | marked | recorded | counted | taken =>
    rw [hw] at hm
    exact absurd ⟨r,hm,same,inactive⟩ before

/-- The record of a slot has the price that its first call was given. -/
theorem opened_grounds (hr : Reachable g.server w₀ s) {row : CongestionRow P} (hrow : row ∈ s.world.congestion.rows)
    (absent : ∀ r ∈ w₀.congestion.rows, r.slot ≠ row.slot) :
    ∃ id entry e older, s.Saw id entry e ∧ s.Seen id entry older e.start ∧ Priced older row.baseGasPrice ∧
      (∃ statement, e.op.query = .sql statement) ∧ (∀ r ∈ e.pre.congestion.rows, r.slot ≠ row.slot) ∧
      ∃ r ∈ e.post.congestion.rows, r.slot = row.slot ∧ r.baseGasPrice = row.baseGasPrice := by
  obtain ⟨id,entry,e,saw,before,r,hm,same,base⟩ := hr.provenance
    (fun w => ∃ r ∈ w.congestion.rows, r.slot = row.slot ∧ r.baseGasPrice = row.baseGasPrice)
    (fun ⟨r,hm,same,_⟩ => absent r hm same) ⟨row,hrow,rfl,rfl⟩
  obtain ⟨_,_,older,grounded,seen⟩ := reached_grounded hr saw
  have changes := Changes.of_answers (server_event hr saw).2.1
  generalize hq : e.op.query = q at changes
  generalize hw : e.post = w' at changes
  cases changes with
  | recorded new =>
    have after := hm
    rw [hw] at hm
    unfold Congestion.insert at hm
    split at hm
    · exact absurd ⟨r,hm,same,base⟩ before
    · rename_i unknown
      rcases List.mem_append.mp hm with old | added
      · exact absurd ⟨r,old,same,base⟩ before
      · have priced := grounded.opened new hq
        rw [← List.mem_singleton.mp added] at priced unknown
        rw [base] at priced
        rw [same] at unknown
        refine ⟨id,entry,e,older,saw,seen,priced,⟨_,hq⟩,fun other ho slot => ?_,r,after,same,base⟩
        exact unknown (List.mem_map.mpr ⟨other,ho,slot⟩)
  | counted slot change new found =>
    rw [hw] at hm
    obtain ⟨old,ho,rfl⟩ := List.mem_map.mp hm
    have kept : (new.written old).baseGasPrice = old.baseGasPrice := by
      unfold CongestionRow.written
      split <;> rfl
    exact absurd ⟨old,ho,by simpa using same,kept.symm.trans base⟩ before
  | same | inserted | marked | stored | switchedOff | taken =>
    rw [hw] at hm
    exact absurd ⟨r,hm,same,base⟩ before

end PreconfGateway.Grounds
