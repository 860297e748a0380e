import PreconfGateway.Db.CongestionStore
import PreconfGateway.Interleaving.Punctual

/-! What each job may ask for, whatever it is answered, and the discipline that the
invariants of the gateway are proved with. -/
namespace PreconfGateway
open Encoding Types Db Crypto Interleaving Rpc Services
variable {P : Platform}

/-- A delegation the poller may store: to the own key, and signed by its proposer. -/
def Acceptable (config : Config P) (d : SignedDelegation) : Prop :=
  d.message.delegate = config.signing.blsPublicKey ∧ Verifies P d

/-- A message the gateway may post: from the own key, to the configured builders, signed. -/
structure Issued (g : Gateway P) (m : SignedConstraints) : Prop where
  delegate : m.message.delegate = g.config.signing.blsPublicKey
  receivers : ConstraintSubmission.parseAuthorizedBuilders g.config.constraintsApi.authorizedBuilders =
    .ok m.message.receivers
  signature : BlsManager.signConstraintsMessage P g.blsManager m.message g.config.signing.blsPrivateKey =
    .ok m.signature

/-- What the checks before any request have established. -/
theorem admitRequest_ok {config : Config P} {request : CommitmentRequest} {slot : UInt64} {hash : String}
    (h : admitRequest config request = .ok (slot, hash)) :
    request.commitmentType = 1 ∧
      (∃ a ∈ config.validation.slasherWhitelist, normalizeAddress a = normalizeAddress request.slasher) ∧
      PayloadParser.extractSlot P 1 request.payload = .ok slot ∧ generateRequestHash P request = .ok hash := by
  unfold admitRequest at h
  split at h
  · cases h
  rename_i type
  rw [ne_eq,not_not] at type
  obtain ⟨_,hw,h⟩ := bind_ok.mp h
  obtain ⟨s,hs,h⟩ := bind_ok.mp h
  obtain ⟨r,hr,h⟩ := bind_ok.mp h
  cases h
  refine ⟨type,?_,?_,mapError_ok.mp hr⟩
  · have hv := mapError_ok.mp hw
    unfold validateSlasherAddress at hv
    dsimp only at hv
    split at hv
    · rename_i any
      obtain ⟨a,ha,he⟩ := List.any_eq_true.mp any
      exact ⟨a,ha,of_decide_eq_true he⟩
    · cases hv
  · have hv := mapError_ok.mp (mapError_ok.mp hs)
    rwa [type] at hv

namespace Gateway

/-- The repertoire of each job. -/
inductive Asks (g : Gateway P) : Job → Query P → Prop
  | commitmentExists (params : Option CommitmentRequest) (hash : String) :
      Asks g (.commitmentRequest params) (.sql (.commitmentExists hash))
  | readAuthority (params : Option CommitmentRequest) (slot : Int64) :
      Asks g (.commitmentRequest params) (.sql (.selectDelegations slot))
  | proposerForSlot (request : CommitmentRequest) (slot : UInt64)
      (h : PayloadParser.extractSlot P 1 request.payload = .ok slot) :
      Asks g (.commitmentRequest (some request)) (.proposerForSlot slot)
  | insertCommitment (params : Option CommitmentRequest) (sc : SignedCommitment) (type : Int64)
      (h : i64TryFrom sc.commitment.commitmentType = some type) :
      Asks g (.commitmentRequest params) (.sql (.insertCommitment (newCommitmentOf P sc type)))
  | gasPrice (params : Option CommitmentRequest) : Asks g (.commitmentRequest params) .gasPrice
  | insertCongestion (params : Option CommitmentRequest) (row : CongestionRow P) :
      Asks g (.commitmentRequest params) (.sql (.insertCongestion row))
  | selectCongestion (params : Option CommitmentRequest) (slot : Int64) :
      Asks g (.commitmentRequest params) (.sql (.selectCongestion slot))
  | updateCongestion (params : Option CommitmentRequest) (slot : Int64)
      (change : CongestionRow P → Option (CongestionRow P)) :
      Asks g (.commitmentRequest params) (.sql (.updateCongestion slot change))
  | selectCommitment (params : Option String) (hash : String) :
      Asks g (.commitmentResult params) (.sql (.selectCommitment hash))
  | pollNow : Asks g .pollDelegations .now
  | getDelegations (slot : UInt64) : Asks g .pollDelegations (.getDelegations slot)
  | pollStatus (pubkey : BlsPublicKey) : Asks g .pollDelegations (.validatorStatus pubkey)
  | insertDelegations (ds : List SignedDelegation) (h : ∀ d ∈ ds, Acceptable g.config d) :
      Asks g .pollDelegations (.sql (.insertDelegations (ds.map newDelegationOf)))
  | pollSleep (ms : Nat) : Asks g .pollDelegations (.sleep ms)
  | cleanupNow : Asks g .cleanupExpiredDelegations .now
  | updateExpired (slot : Int64) : Asks g .cleanupExpiredDelegations (.sql (.updateExpired slot))
  | selectActive : Asks g .cleanupExpiredDelegations (.sql .selectActive)
  | cleanupStatus (pubkey : BlsPublicKey) : Asks g .cleanupExpiredDelegations (.validatorStatus pubkey)
  | updateInactive (id : Nat) : Asks g .cleanupExpiredDelegations (.sql (.updateInactive id))
  | tickNow : Asks g .processPendingConstraints .now
  | tickDelegations (slot : Int64) : Asks g .processPendingConstraints (.sql (.selectDelegations slot))
  | selectUnprocessed (slot : Int64) : Asks g .processPendingConstraints (.sql (.selectUnprocessed slot))
  | tickPost (m : SignedConstraints) (h : Issued g m) : Asks g .processPendingConstraints (.postConstraints m)
  | tickSleep (ms : Nat) : Asks g .processPendingConstraints (.sleep ms)
  | updateProcessed (hashes : List String) :
      Asks g .processPendingConstraints (.sql (.updateProcessed hashes))
  | submitDelegations (slot : UInt64) (payload : Bytes) (committer : String) :
      Asks g (.submitConstraintNow slot payload committer) (.sql (.selectDelegations slot.toInt64))
  | submitNow (slot : UInt64) (payload : Bytes) (committer : String) :
      Asks g (.submitConstraintNow slot payload committer) .now
  | submitInstant (slot : UInt64) (payload : Bytes) (committer : String) :
      Asks g (.submitConstraintNow slot payload committer) .instant
  | submitPost (slot : UInt64) (payload : Bytes) (committer : String) (m : SignedConstraints)
      (h : Issued g m) (hs : m.message.slot = slot)
      (hc : m.message.constraints = [Constraint.fromInclusionCommitment payload]) :
      Asks g (.submitConstraintNow slot payload committer) (.postConstraints m)
  | submitSleep (slot : UInt64) (payload : Bytes) (committer : String) (ms : Nat) :
      Asks g (.submitConstraintNow slot payload committer) (.sleep ms)

end Gateway

section Repertoire
variable {α β : Type} {ok : Op P → Prop}

theorem obeys_pure {post : α → Prop} {a : α} (h : post a) :
    Program.Obeys (S := requests P) ok post (pure a) := h

theorem obeys_asked {post : β → Prop} {q : Query P} {f : q.Reply → Async P β} (h : ok (.plain q))
    (hf : ∀ r, (f r).Obeys ok post) : (ask q >>= f).Obeys ok post := ⟨h,hf⟩

theorem getDelegationsForSlot_obeys {slot : UInt64} (h : ok (.plain (.sql (.selectDelegations slot.toInt64)))) :
    (getDelegationsForSlot P slot).Obeys ok (fun _ => True) := by
  refine obeys_asked h fun r => ?_
  cases r <;> exact trivial

theorem saveDelegationsBatch_obeys {ds : List SignedDelegation}
    (h : ok (.plain (.sql (.insertDelegations (ds.map newDelegationOf))))) :
    (saveDelegationsBatch P ds).Obeys ok (fun _ => True) := by
  unfold saveDelegationsBatch
  split
  · exact trivial
  · refine obeys_asked h fun r => ?_
    cases r <;> exact trivial

theorem filterEligibleDelegations_obeys {ds : List SignedDelegation}
    (h : ∀ key, ok (.plain (.validatorStatus key))) :
    (DelegationPolling.filterEligibleDelegations ds).Obeys ok (· ⊆ ds) := by
  induction ds with
  | nil => exact List.Subset.refl _
  | cons d ds ih =>
    refine obeys_asked (h _) fun r => ih.bind fun kept hk => ?_
    cases r with
    | error e => exact List.subset_cons_of_subset _ hk
    | ok status =>
      apply obeys_pure
      split
      · exact List.cons_subset_cons _ hk
      · exact List.subset_cons_of_subset _ hk

theorem pollDelegationsForSlot_obeys {config : Config P} {slot : UInt64}
    (relay : ok (.plain (.getDelegations slot))) (status : ∀ key, ok (.plain (.validatorStatus key)))
    (insert : ∀ ds : List SignedDelegation, (∀ d ∈ ds, Acceptable config d) →
      ok (.plain (.sql (.insertDelegations (ds.map newDelegationOf))))) :
    (DelegationPolling.pollDelegationsForSlot config slot).Obeys ok (fun _ => True) := by
  have fetched : (Api.getDelegationsForSlot P slot).Obeys ok (fun _ => True) := by
    refine obeys_asked relay fun r => ?_
    cases r with
    | error e => exact trivial
    | ok response =>
      dsimp only
      split
      · split <;> exact trivial
      · split <;> exact trivial
  refine fetched.bind fun r _ => ?_
  cases r with
  | error e => exact trivial
  | ok delegations =>
    dsimp only
    split
    · exact trivial
    · refine (filterEligibleDelegations_obeys status).bind fun kept hk => ?_
      split
      · exact trivial
      · refine (saveDelegationsBatch_obeys (insert kept ?_)).bind fun _ _ => trivial
        intro d hd
        have hv := List.mem_filter.mp (hk hd)
        exact ⟨of_decide_eq_true (List.mem_filter.mp hv.1).2,of_decide_eq_true hv.2⟩

theorem pollSlots_obeys {config : Config P} {slots : List UInt64}
    (relay : ∀ slot, ok (.plain (.getDelegations slot))) (status : ∀ key, ok (.plain (.validatorStatus key)))
    (insert : ∀ ds : List SignedDelegation, (∀ d ∈ ds, Acceptable config d) →
      ok (.plain (.sql (.insertDelegations (ds.map newDelegationOf)))))
    (pause : ok (.plain (.sleep 100))) :
    (DelegationPolling.pollSlots config slots).Obeys ok (fun _ => True) := by
  induction slots with
  | nil => exact trivial
  | cons slot slots ih =>
    exact (pollDelegationsForSlot_obeys (relay slot) status insert).bind fun _ _ => obeys_asked pause fun _ => ih

theorem checkActiveDelegations_obeys {rows : List (Nat × Bytes)}
    (status : ∀ key, ok (.plain (.validatorStatus key))) (off : ∀ id, ok (.plain (.sql (.updateInactive id)))) :
    (DelegationPolling.checkActiveDelegations rows).Obeys ok (fun _ => True) := by
  induction rows with
  | nil => exact trivial
  | cons row rows ih =>
    obtain ⟨id,proposer⟩ := row
    unfold DelegationPolling.checkActiveDelegations
    split
    · refine obeys_asked (status _) fun r => ?_
      cases r with
      | error e => exact ih
      | ok status =>
        dsimp only
        split
        · refine obeys_asked (off id) fun r => ?_
          cases r with
          | error e => exact trivial
          | ok _ => exact ih
        · exact ih
    · exact ih

theorem submitLoop_obeys {m : SignedConstraints} {left attempt : Nat} {last : Option Chain}
    (post : ok (.plain (.postConstraints m))) (pause : ∀ ms, ok (.plain (.sleep ms))) :
    (Api.submitLoop P m left attempt last).Obeys ok (fun _ => True) := by
  induction left generalizing attempt last with
  | zero => exact trivial
  | succ left ih =>
    refine obeys_asked post fun r => ?_
    split
    · exact trivial
    · exact trivial
    · exact ih
    · exact obeys_asked (pause _) fun _ => ih

theorem createConstraints_obeys {slot : UInt64} {committer : String}
    (h : ∀ slot, ok (.plain (.sql (.selectUnprocessed slot)))) :
    (ConstraintSubmission.createConstraintsFromCommitments P slot committer).Obeys ok (fun _ => True) := by
  have fetched : (getUnprocessedCommitmentsForSlot P slot).Obeys ok (fun _ => True) := by
    unfold getUnprocessedCommitmentsForSlot
    split
    · exact trivial
    · refine obeys_asked (h _) fun r => ?_
      cases r <;> exact trivial
  refine fetched.bind fun r _ => ?_
  cases r <;> exact trivial

/-- A message that could be built is one the gateway may post. -/
theorem buildSignedConstraints_issued {g : Gateway P} {d : SignedDelegation} {slot : UInt64}
    {constraints : List Constraint} {m : SignedConstraints}
    (own : d.message.delegate = g.config.signing.blsPublicKey)
    (h : ConstraintSubmission.buildSignedConstraints g.blsManager g.config d slot constraints = .ok m) :
    Issued g m ∧ m.message.proposer = d.message.proposer ∧ m.message.slot = slot ∧
      m.message.constraints = constraints := by
  unfold ConstraintSubmission.buildSignedConstraints at h
  obtain ⟨receivers,hr,h⟩ := bind_ok.mp h
  obtain ⟨signature,hs,h⟩ := bind_ok.mp h
  cases h
  exact ⟨⟨own,mapError_ok.mp hr,mapError_ok.mp hs⟩,rfl,rfl,rfl⟩

theorem submitAndMark_obeys {config : Config P} {m : SignedConstraints} {hashes : List String}
    (post : ok (.plain (.postConstraints m))) (pause : ∀ ms, ok (.plain (.sleep ms)))
    (mark : ∀ hashes, ok (.plain (.sql (.updateProcessed hashes)))) :
    (ConstraintSubmission.submitAndMark config m hashes).Obeys ok (fun _ => True) := by
  have marked : (markCommitmentsAsProcessed P hashes).Obeys ok (fun _ => True) := by
    unfold markCommitmentsAsProcessed
    split
    · exact trivial
    · exact obeys_asked (mark _) fun _ => trivial
  refine (submitLoop_obeys post pause).bind fun r _ => ?_
  rcases r with e | response
  · exact trivial
  · exact marked.bind fun _ _ => trivial

section Tick
variable {g : Gateway P} {slot : UInt64} (read : ∀ slot, ok (.plain (.sql (.selectUnprocessed slot))))
  (post : ∀ m, Issued g m → m.message.constraints ≠ [] → ok (.plain (.postConstraints m)))
  (pause : ∀ ms, ok (.plain (.sleep ms))) (mark : ∀ hashes, ok (.plain (.sql (.updateProcessed hashes))))
include read post pause mark

theorem processDelegationConstraints_obeys {d : SignedDelegation}
    (own : d.message.delegate = g.config.signing.blsPublicKey) :
    (ConstraintSubmission.processDelegationConstraints g.blsManager g.config d slot).Obeys ok
      (fun _ => True) := by
  refine (createConstraints_obeys read).bind fun r _ => ?_
  rcases r with e | ⟨constraints,hashes⟩
  · exact trivial
  · dsimp only
    split
    · exact trivial
    · rename_i filled
      split
      · exact trivial
      · rename_i m hm
        obtain ⟨issued,_,_,listed⟩ := buildSignedConstraints_issued own hm
        have nonempty : m.message.constraints ≠ [] := by
          rw [listed]
          simpa using filled
        exact submitAndMark_obeys (post m issued nonempty) pause mark

theorem processDelegations_obeys {ds : List SignedDelegation} :
    (ConstraintSubmission.processDelegations g.blsManager g.config slot ds).Obeys ok (fun _ => True) := by
  induction ds with
  | nil => exact trivial
  | cons d ds ih =>
    unfold ConstraintSubmission.processDelegations
    split
    · rename_i own
      exact (processDelegationConstraints_obeys read post pause mark own).bind fun _ _ => ih
    · exact ih

theorem processConstraintsForSlot_obeys (authority : ok (.plain (.sql (.selectDelegations slot.toInt64)))) :
    (ConstraintSubmission.processConstraintsForSlot g.blsManager g.config slot).Obeys ok (fun _ => True) := by
  refine (getDelegationsForSlot_obeys authority).bind fun r _ => ?_
  cases r with
  | error e => exact trivial
  | ok ds => exact (processDelegations_obeys read post pause mark).bind fun _ _ => trivial

theorem processSlots_obeys {slots : List UInt64} (clock : ok (.plain .now))
    (authority : ∀ slot, ok (.plain (.sql (.selectDelegations slot)))) :
    (ConstraintSubmission.processSlots g.blsManager g.config slots).Obeys ok (fun _ => True) := by
  induction slots with
  | nil => exact trivial
  | cons slot slots ih =>
    refine obeys_asked clock fun now => ?_
    split
    · exact (processConstraintsForSlot_obeys read post pause mark (authority _)).bind fun _ _ => ih
    · exact ih

end Tick

theorem timeoutAt_obeys {okq : Query P → Prop} {deadline : Nat} {p : Async P α} {post : α → Prop}
    (h : p.Obeys (fun op : Op P => okq op.query) post) :
    (timeoutAt deadline p).Obeys (fun op : Op P => okq op.query) (fun r => ∀ a, r = some a → post a) := by
  induction p with
  | ret a =>
    intro b hb
    cases hb
    exact h
  | call op k ih =>
    cases op with
    | plain q =>
      rw [timeoutAt]
      refine ⟨h.1,fun r => ?_⟩
      cases r with
      | none =>
        intro a ha
        cases ha
      | some r => exact ih r (h.2 r)
    | within d q =>
      rw [timeoutAt]
      exact ⟨h.1,fun r => ih r (h.2 r)⟩

/-- A row as it is inserted when a price is first asked for its slot. -/
def Opened (config : Config P) (row : CongestionRow P) : Prop :=
  ∃ slot base start, unixEpochPlus (saturatingAdd config.beaconApi.genesisTime (saturatingMul slot 12)) = .ok start ∧
    row = (SlotCongestion.new slot base config.reth.feeConfig.defaultGasLimit start).row

theorem getOrCreate_obeys {slot base limit genesis : UInt64}
    (insert : ∀ start, unixEpochPlus (saturatingAdd genesis (saturatingMul slot 12)) = .ok start →
      ok (.plain (.sql (.insertCongestion (SlotCongestion.new slot base limit start).row))))
    (select : ok (.plain (.sql (.selectCongestion slot.toInt64)))) :
    (getOrCreateSlotCongestion (P := P) slot base limit genesis).Obeys ok (fun _ => True) := by
  have existing : (getSlotCongestion (P := P) slot).Obeys ok (fun _ => True) := by
    refine obeys_asked select fun r => ?_
    rcases r with e | row
    · exact trivial
    · cases row <;> exact trivial
  unfold getOrCreateSlotCongestion
  dsimp only
  split
  · exact trivial
  · rename_i start started
    split
    · exact trivial
    · refine obeys_asked (insert start started) fun r => ?_
      rcases r with e | found
      · exact trivial
      · cases found
        · refine existing.bind fun r _ => ?_
          rcases r with e | row
          · exact trivial
          · cases row <;> exact trivial
        · exact trivial

theorem calculateFee_obeys {config : Config P} {commitmentType : UInt64} {payload : Bytes} {slot : UInt64}
    (price : ok (.plain .gasPrice)) (insert : ∀ row, Opened config row → ok (.plain (.sql (.insertCongestion row))))
    (select : ∀ slot, ok (.plain (.sql (.selectCongestion slot)))) :
    (FeePricing.calculateFeeForCommitment config commitmentType payload slot).Obeys ok (fun _ => True) := by
  refine obeys_asked price fun r => ?_
  rcases r with e | info
  · exact trivial
  · dsimp only [Except.mapError]
    split
    · exact trivial
    · refine (getOrCreate_obeys (fun _ started => insert _ ⟨_,_,_,started,rfl⟩) (select _)).bind fun r _ => ?_
      rcases r with e | congestion <;> exact trivial

theorem applyGasUsage_adds {config : Config P} {slot gas : UInt64}
    (update : ok (.plain (.sql (.updateCongestion slot.toInt64 (addition config.reth.feeConfig.scalingFactor gas))))) :
    (FeePricing.applyGasUsageToSlot config slot gas).Obeys ok (fun _ => True) := by
  refine obeys_asked update fun r => ?_
  rcases r with e | row
  · exact trivial
  · cases row <;> exact trivial

theorem applyGasUsage_obeys {config : Config P} {slot gas : UInt64}
    (update : ∀ slot change, ok (.plain (.sql (.updateCongestion slot change)))) :
    (FeePricing.applyGasUsageToSlot config slot gas).Obeys ok (fun _ => True) :=
  applyGasUsage_adds (update _ _)

/-- Accounting returns the commitment that was stored, or no commitment. -/
theorem accountGas_obeys {config : Config P} {request : CommitmentRequest} {slot : UInt64}
    {sc : SignedCommitment} (price : ok (.plain .gasPrice))
    (insert : ∀ row, Opened config row → ok (.plain (.sql (.insertCongestion row))))
    (select : ∀ slot, ok (.plain (.sql (.selectCongestion slot))))
    (update : ∀ slot gas, ok (.plain (.sql (.updateCongestion slot (addition config.reth.feeConfig.scalingFactor gas))))) :
    (accountGas config request slot sc).Obeys ok (fun r => ∀ found, r = .ok found → found = sc) := by
  refine (calculateFee_obeys price insert select).bind fun r _ => ?_
  rcases r with e | calculation
  · cases e with
    | error chain =>
      intro found h
      cases h
    | panic message =>
      intro found h
      cases h
  · refine (applyGasUsage_adds (update _ _)).bind fun r _ => ?_
    rcases r with e | congestion
    · cases e with
      | error chain =>
        intro found h
        cases h
        rfl
      | panic message =>
        intro found h
        cases h
    · intro found h
      cases h
      rfl

section Request
variable {config : Config P} (authority : ∀ slot, ok (.plain (.sql (.selectDelegations slot))))
  (save : ∀ sc type, i64TryFrom sc.commitment.commitmentType = some type →
    ok (.plain (.sql (.insertCommitment (newCommitmentOf P sc type)))))
  (price : ok (.plain .gasPrice)) (insert : ∀ row, Opened config row → ok (.plain (.sql (.insertCongestion row))))
  (select : ∀ slot, ok (.plain (.sql (.selectCongestion slot))))
  (update : ∀ slot gas, ok (.plain (.sql (.updateCongestion slot (addition config.reth.feeConfig.scalingFactor gas)))))

include authority in
theorem verifyAuthority_obeys {slot : UInt64} {committer : String} (proposer : ok (.plain (.proposerForSlot slot))) :
    (verifyDelegationAuthority config slot committer).Obeys ok (fun _ => True) := by
  refine (getDelegationsForSlot_obeys (authority _)).bind fun r _ => ?_
  rcases r with e | delegations
  · exact trivial
  · dsimp only
    split
    · exact trivial
    · split
      · exact trivial
      · exact obeys_asked proposer fun _ => trivial

include save price insert select update in
theorem storeCommitment_obeys {request : CommitmentRequest} {slot : UInt64} {sc : SignedCommitment} :
    (storeCommitment config request slot sc).Obeys ok (fun _ => True) := by
  have saved : (saveCommitment P sc).Obeys ok (fun _ => True) := by
    unfold saveCommitment
    split
    · exact trivial
    · rename_i type htype
      exact obeys_asked (save _ _ htype) fun _ => trivial
  refine saved.bind fun r _ => ?_
  rcases r with e | found
  · exact trivial
  · cases found with
    | none => exact trivial
    | some id => exact (accountGas_obeys price insert select update).mono (fun _ h => h) (fun _ _ => trivial)

include authority save price insert select update in
theorem requestHandler_obeys {params : Option CommitmentRequest}
    (known : ∀ hash, ok (.plain (.sql (.commitmentExists hash))))
    (proposer : ∀ request slot, params = some request → PayloadParser.extractSlot P 1 request.payload = .ok slot →
      ok (.plain (.proposerForSlot slot))) :
    (commitmentRequestHandler config params).Obeys ok (fun _ => True) := by
  unfold commitmentRequestHandler
  split
  · exact trivial
  · split
    · exact trivial
    · rename_i admitted
      obtain ⟨_,_,hslot,_⟩ := admitRequest_ok admitted
      refine obeys_asked (known _) fun r => ?_
      rcases r with e | found
      · exact trivial
      · cases found
        · refine (verifyAuthority_obeys authority (proposer _ _ rfl hslot)).bind fun r _ => ?_
          rcases r with e | committer
          · exact trivial
          · dsimp only
            split
            · exact trivial
            · exact storeCommitment_obeys save price insert select update
        · exact trivial

end Request

end Repertoire

namespace Gateway
variable (g : Gateway P)

private theorem outcome_obeys {α : Type} {ok : Op P → Prop} {p : Async P α} {f : α → Outcome}
    (h : p.Obeys ok (fun _ => True)) : (do let r ← p; pure (f r)).Obeys ok (fun _ => True) :=
  h.bind fun _ _ => trivial

private theorem before_obeys (slot : UInt64) (payload : Bytes) (committer : String) (m : SignedConstraints)
    (issued : Issued g m) (hslot : m.message.slot = slot)
    (hc : m.message.constraints = [Constraint.fromInclusionCommitment payload]) :
    (ConstraintSubmission.submitBefore g.config slot m).Obeys
      (fun op : Op P => g.Asks (.submitConstraintNow slot payload committer) op.query) (fun _ => True) := by
  have looped : (Api.submitConstraints P g.config.constraintsApi m).Obeys
      (fun op : Op P => g.Asks (.submitConstraintNow slot payload committer) op.query) (fun _ => True) :=
    submitLoop_obeys (.submitPost _ _ _ m issued hslot hc) (.submitSleep _ _ _)
  refine obeys_asked (.submitNow _ _ _) fun nowSecs => ?_
  split
  · exact trivial
  · refine obeys_asked (.submitInstant _ _ _) fun started => ?_
    refine (timeoutAt_obeys looped).bind fun r _ => ?_
    rcases r with _ | (e | response) <;> exact trivial

private theorem submit_obeys (slot : UInt64) (payload : Bytes) (committer : String) :
    (ConstraintSubmission.submitConstraint g.blsManager g.config slot payload committer).Obeys
      (fun op : Op P => g.Asks (.submitConstraintNow slot payload committer) op.query) (fun _ => True) := by
  unfold ConstraintSubmission.submitConstraint
  split
  · exact trivial
  · refine (getDelegationsForSlot_obeys (.submitDelegations _ _ _)).bind fun r _ => ?_
    rcases r with e | delegations
    · exact trivial
    · dsimp only
      split
      · exact trivial
      · rename_i d hd
        have found := List.find?_some hd
        rw [Bool.and_eq_true] at found
        split
        · exact trivial
        · rename_i m hm
          obtain ⟨issued,_,hslot,hc⟩ := buildSignedConstraints_issued (of_decide_eq_true found.1) hm
          exact (before_obeys g slot payload committer m issued hslot hc).bind fun _ _ => trivial

/-- Each job keeps to its repertoire. -/
theorem code_obeys (j : Job) : (g.code j).Obeys (fun op : Op P => g.Asks j op.query) (fun _ => True) := by
  cases j with
  | commitmentRequest params =>
    refine outcome_obeys (requestHandler_obeys (.readAuthority _) (.insertCommitment _) (.gasPrice _)
      (fun row _ => .insertCongestion _ row) (.selectCongestion _) (fun slot _ => .updateCongestion _ slot _) (.commitmentExists _) ?_)
    rintro request slot rfl hslot
    exact .proposerForSlot _ _ hslot
  | commitmentResult params =>
    cases params with
    | none => exact trivial
    | some hash =>
      have read : (getCommitmentByHash P hash).Obeys
          (fun op : Op P => g.Asks (.commitmentResult (some hash)) op.query) (fun _ => True) := by
        refine obeys_asked (.selectCommitment _ _) fun r => ?_
        rcases r with e | row
        · exact trivial
        · cases row <;> exact trivial
      refine outcome_obeys (read.bind fun r _ => ?_)
      rcases r with e | row
      · exact trivial
      · cases row <;> exact trivial
  | pollDelegations =>
    refine obeys_asked .pollNow fun now => outcome_obeys ?_
    exact (pollSlots_obeys .getDelegations .pollStatus .insertDelegations (.pollSleep 100)).bind
      fun _ _ => trivial
  | cleanupExpiredDelegations =>
    refine obeys_asked .cleanupNow fun now => ?_
    refine obeys_asked (.updateExpired _) fun r => ?_
    rcases r with e | count
    · exact trivial
    · refine obeys_asked .selectActive fun r => ?_
      rcases r with e | rows
      · exact trivial
      · exact outcome_obeys (checkActiveDelegations_obeys .cleanupStatus .updateInactive)
  | processPendingConstraints =>
    refine obeys_asked .tickNow fun now => outcome_obeys ?_
    exact (processSlots_obeys .selectUnprocessed (fun m issued _ => .tickPost m issued) .tickSleep .updateProcessed
      .tickNow .tickDelegations).bind fun _ _ => trivial
  | submitConstraintNow slot payload committer => exact outcome_obeys (submit_obeys g slot payload committer)

/-- Each job keeps an invariant while the others only evolve the world. -/
def discipline (inv : World P → Prop) (guarantee : List (Event (requests P) (World P)) →
    Event (requests P) (World P) → Prop) : Contract (requests P) (World P) where
  inv := inv
  rely := World.Evolves
  permits _ _ := True
  starts _ _ _ _ := True
  guarantee := guarantee
  rely_refl := World.Evolves.refl
  rely_trans := World.Evolves.trans
  starts_rely h _ := h

variable {g} {inv : World P → Prop}
  {guarantee : Job → List (Event (requests P) (World P)) → Event (requests P) (World P) → Prop}
  {Q : Job → List (Event (requests P) (World P)) → Outcome → World P → Nat → Prop}

theorem safe_request {C : Contract (requests P) (World P)} {α : Type} {M : Machine (requests P) (World P)}
    {Q : List (Event (requests P) (World P)) → α → World P → Nat → Prop} {q : Query P} {f : q.Reply → Async P α}
    {tr : List (Event (requests P) (World P))} {w : World P} {t : Nat} (hs : C.starts tr (.plain q) w t)
    (h : ∀ w₁ u r w₂, C.inv w₁ → C.rely w w₁ → t ≤ u → M.InTime t (.plain q) u →
      M.Answers u w₁ (.plain q) r w₂ → C.permits tr ⟨.plain q, r, t, u, w₁, w₂⟩ →
        C.guarantee tr ⟨.plain q, r, t, u, w₁, w₂⟩ ∧
          C.Safe M Q (f r) (⟨.plain q, r, t, u, w₁, w₂⟩ :: tr) w₂ u) :
    C.Safe M Q (ask q >>= f) tr w t := Contract.Safe.call hs h

theorem safe_ask {α : Type} {inv : World P → Prop}
    {guarantee : List (Event (requests P) (World P)) → Event (requests P) (World P) → Prop}
    {M : Machine (requests P) (World P)} {Q : List (Event (requests P) (World P)) → α → World P → Nat → Prop}
    {q : Query P} {f : q.Reply → Async P α} {tr : List (Event (requests P) (World P))} {w : World P} {t : Nat}
    (h : ∀ w₁ u r w₂, inv w₁ → w.Evolves w₁ → t ≤ u → M.Answers u w₁ (.plain q) r w₂ →
      guarantee tr ⟨.plain q, r, t, u, w₁, w₂⟩ ∧
        (discipline inv guarantee).Safe M Q (f r) (⟨.plain q, r, t, u, w₁, w₂⟩ :: tr) w₂ u) :
    (discipline inv guarantee).Safe M Q (ask q >>= f) tr w t :=
  safe_request trivial fun w₁ u r w₂ hi hr hu _ ha _ => h w₁ u r w₂ hi hr hu ha

/-- The contract of a job: its repertoire, and what it guarantees beyond it. -/
abbrev contract (g : Gateway P) (inv : World P → Prop)
    (guarantee : Job → List (Event (requests P) (World P)) → Event (requests P) (World P) → Prop)
    (j : Job) : Contract (requests P) (World P) :=
  (discipline inv (guarantee j)).obeying (fun op : Op P => g.Asks j op.query)

theorem verified (start : ∀ j t w, inv w →
      (discipline inv (guarantee j)).Safe g.machine (Q j) (g.code j) [] w t)
    (step : ∀ j tr e, inv e.pre → Changes e.pre e.op.query e.post → g.Asks j e.op.query → guarantee j tr e →
      inv e.post) :
    Verified g.system (contract g inv guarantee) World.Evolves Q where
  refl := World.Evolves.refl
  trans := World.Evolves.trans
  permits _ _ _ _ := trivial
  start j t w hi _ := (start j t w (hi j)).obeying (g.code_obeys j)
  step j tr e hi ha _ hg := by
    have changes := Changes.of_answers ha
    exact ⟨fun _ => step j tr e (hi j) changes hg.1 hg.2,changes.evolves,fun _ _ => changes.evolves⟩

/-- What a job is held to that counts on its answers: a guarantee for each answer and a due time for each request. -/
abbrev schedule (permits guarantee : List (Event (requests P) (World P)) → Event (requests P) (World P) → Prop)
    (due : Op P → Nat → Prop) : Contract (requests P) (World P) :=
  ((discipline (fun _ => True) guarantee).permitting permits).punctual due

/-- A job that counts on some of its answers owes what it owes for as long as they are so. -/
theorem verified_assuming
    {permits : Job → List (Event (requests P) (World P)) → Event (requests P) (World P) → Prop}
    {due : Op P → Nat → Prop}
    (start : ∀ j t w, (schedule (permits j) (guarantee j) due).Safe g.machine (Q j) (g.code j) [] w t) :
    Verified g.system (fun j => (schedule (permits j) (guarantee j) due).assuming) World.Evolves
      (fun _ _ _ _ _ => True) where
  refl := World.Evolves.refl
  trans := World.Evolves.trans
  permits _ _ _ _ := trivial
  start j t w _ _ := (Contract.Safe.assuming fun _ => start j t w).mono fun _ _ _ _ _ => trivial
  step _ _ _ _ ha _ _ := by
    have changes := Changes.of_answers ha
    exact ⟨fun _ => trivial,changes.evolves,fun _ _ => changes.evolves⟩

end Gateway
end PreconfGateway
