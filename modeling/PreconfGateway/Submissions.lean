import PreconfGateway.Records

/-! What a tick sends and what it marks: each message is made from one batch of rows, and
the hashes of the batch are marked only after the relay has taken that message. -/
namespace PreconfGateway
open Encoding Types Db Crypto Interleaving Services
variable {P : Platform} {g : Gateway P}

/-- The relay said in this past that it has taken the message. -/
def Accepted (tr : Trace P) (m : SignedConstraints) : Prop :=
  ∃ reply, Told tr (.postConstraints m) reply ∧ succeeded reply = true

/-- The filter of a batch: this committer, and type 1. -/
def chosen (committer : String) (row : CommitmentRow) : Bool :=
  row.slasher = committer && row.commitmentType = 1

def constraintOf (row : CommitmentRow) : Constraint := Constraint.fromInclusionCommitment row.payload

/-- The rows of this committer among those that were read for the slot. -/
structure Batched (tr : Trace P) (slot : UInt64) (committer : String) (batch : List CommitmentRow) : Prop where
  fits : i64TryFrom slot = some slot.toInt64
  read : ∃ rows t u pre post,
    ⟨.plain (.sql (.selectUnprocessed slot.toInt64)), .ok rows, t, u, pre, post⟩ ∈ tr ∧
      batch = rows.filter (chosen committer)

/-- A delegation of the slot to the own key that was read, from this proposer and for this committer. -/
def Delegated (g : Gateway P) (tr : Trace P) (slot : UInt64) (proposer : BlsPublicKey) (committer : String) : Prop :=
  ∃ rows t u pre post row,
    ⟨.plain (.sql (.selectDelegations slot.toInt64)), .ok rows, t, u, pre, post⟩ ∈ tr ∧ row ∈ rows ∧
      row.proposerPubkey = proposer.bytes ∧ row.delegatePubkey = g.config.signing.blsPublicKey.bytes ∧
        row.committerAddress = committer

/-- A message made for a delegation from a batch of its committer. -/
structure InFlight (g : Gateway P) (tr : Trace P) (m : SignedConstraints) (committer : String)
    (batch : List CommitmentRow) : Prop where
  issued : Issued g m
  delegated : Delegated g tr m.message.slot m.message.proposer committer
  batched : Batched tr m.message.slot committer batch
  constraints : m.message.constraints = batch.map constraintOf

/-- What a tick owes for a request, given its past. -/
structure Submits (g : Gateway P) (tr : Trace P) (e : Event (requests P) (World P)) : Prop where
  post : ∀ m, e.op.query = .postConstraints m → ∃ committer batch, InFlight g tr m committer batch
  mark : ∀ hashes, e.op.query = .sql (.updateProcessed hashes) →
    ∃ m committer batch, InFlight g tr m committer batch ∧
      hashes = batch.map CommitmentRow.requestHash ∧ Accepted tr m

section Suffix
variable {tr tr' : Trace P} {m : SignedConstraints} {committer : String} {batch : List CommitmentRow}

theorem Delegated.later {slot : UInt64} {proposer : BlsPublicKey} (h : Delegated g tr slot proposer committer)
    (hs : tr <:+ tr') : Delegated g tr' slot proposer committer := by
  obtain ⟨rows,t,u,pre,post,row,hm,hr⟩ := h
  exact ⟨rows,t,u,pre,post,row,hs.subset hm,hr⟩

theorem InFlight.later (h : InFlight g tr m committer batch) (hs : tr <:+ tr') :
    InFlight g tr' m committer batch := by
  obtain ⟨fits,rows,t,u,pre,post,hm,hb⟩ := h.batched
  exact ⟨h.issued,h.delegated.later hs,⟨fits,rows,t,u,pre,post,hs.subset hm,hb⟩,h.constraints⟩

theorem Accepted.later (h : Accepted tr m) (hs : tr <:+ tr') : Accepted tr' m := by
  obtain ⟨reply,⟨t,u,w,w',hm⟩,ok⟩ := h
  exact ⟨reply,⟨t,u,w,w',hs.subset hm⟩,ok⟩

/-- Other requests owe nothing. -/
theorem Submits.idle {e : Event (requests P) (World P)} (post : ∀ m, e.op.query ≠ .postConstraints m)
    (mark : ∀ hashes, e.op.query ≠ .sql (.updateProcessed hashes)) : Submits g tr e :=
  ⟨fun m h => absurd h (post m),fun hashes h => absurd h (mark hashes)⟩

end Suffix

section Batch

private theorem type_one {row : CommitmentRow} {type : UInt64} (h : u64TryFrom row.commitmentType = some type) :
    type = 1 ↔ row.commitmentType = 1 := by
  unfold u64TryFrom at h
  obtain ⟨_,he⟩ := Option.ite_none_right_eq_some.mp h
  cases he
  constructor
  · intro one
    have back := congrArg UInt64.toInt64 one
    rwa [Int64.toInt64_toUInt64] at back
  · intro one
    rw [one]
    rfl

/-- The two lists of a batch are two columns of the same rows. -/
theorem convertCommitments_rows (committer : String) {rows : List CommitmentRow} {scs : List SignedCommitment}
    (h : rows.mapM signedCommitmentOf = .ok scs) :
    ConstraintSubmission.convertCommitments committer scs =
      ((rows.filter (chosen committer)).map constraintOf,
        (rows.filter (chosen committer)).map CommitmentRow.requestHash) := by
  induction rows generalizing scs with
  | nil =>
    cases h
    rfl
  | cons row rows ih =>
    rw [List.mapM_cons] at h
    obtain ⟨sc,hsc,h⟩ := bind_ok.mp h
    obtain ⟨rest,hrest,h⟩ := bind_ok.mp h
    cases h
    have ih := ih hrest
    unfold signedCommitmentOf at hsc
    split at hsc
    · cases hsc
    rename_i type htype
    cases hsc
    have one := type_one htype
    simp only [ConstraintSubmission.convertCommitments,ih]
    by_cases owner : row.slasher = committer
    · by_cases is : type = 1
      · have kept : chosen committer row = true := by simp [chosen,owner,one.mp is]
        rw [List.filter_cons_of_pos kept]
        simp [owner,is,constraintOf]
      · have left : ¬ chosen committer row = true := by simp [chosen,one.not.mp is]
        rw [List.filter_cons_of_neg left]
        simp [owner,is]
    · have left : ¬ chosen committer row = true := by simp [chosen,owner]
      rw [List.filter_cons_of_neg left]
      simp [owner]

end Batch

section Tick
variable {M : Machine (requests P) (World P)} {tr : Trace P} {w : World P} {t : Nat} {slot : UInt64}

/-- The promise of a tick, with no demand on the world. -/
abbrev submission (g : Gateway P) : Contract (requests P) (World P) :=
  Gateway.discipline (fun _ => True) (Submits g)

private theorem judge_accepted {attempt : Nat} {reply : Except String HttpResponse}
    {response : Api.ConstraintSubmissionResponse} (h : Api.judge P attempt reply = .accepted response) :
    succeeded reply = true := by
  unfold Api.judge at h
  split at h
  · cases h
  · split at h
    · assumption
    · repeat' split at h
      all_goals cases h

/-- The loop posts one message and says that it was taken only when the relay said so. -/
theorem submitLoop_submits {m : SignedConstraints} {committer : String} {batch : List CommitmentRow}
    {left attempt : Nat} {last : Option Chain} (flying : InFlight g tr m committer batch) :
    (submission g).Safe M (fun tr' r _ _ => ∀ response, r = .ok response → Accepted tr' m)
      (Api.submitLoop P m left attempt last) tr w t := by
  induction left generalizing tr w t attempt last with
  | zero => exact nofun
  | succ left ih =>
    refine Gateway.safe_ask fun w₁ u reply w₂ _ _ _ _ => ⟨⟨?_,nofun⟩,?_⟩
    · rintro _ ⟨⟩
      exact ⟨committer,batch,flying⟩
    · have flying := flying.later (List.suffix_cons ⟨.plain (.postConstraints m), reply, t, u, w₁, w₂⟩ tr)
      split
      · rename_i response verdict
        exact fun _ _ => ⟨reply,told_here.mpr (.inl rfl),judge_accepted verdict⟩
      · exact nofun
      · exact ih flying
      · refine Gateway.safe_ask fun w₃ v pause w₄ _ _ _ _ => ⟨.idle nofun nofun,?_⟩
        exact ih (flying.later (List.suffix_cons _ _))

theorem submitAndMark_submits {m : SignedConstraints} {committer : String} {batch : List CommitmentRow}
    (flying : InFlight g tr m committer batch) :
    (submission g).Safe M (fun _ _ _ _ => True) (ConstraintSubmission.submitAndMark g.config m
      (batch.map CommitmentRow.requestHash)) tr w t := by
  refine (submitLoop_submits flying).suffix.bind ?_
  rintro tr' r w' t' ⟨taken,hs⟩
  cases r with
  | error e => exact trivial
  | ok response =>
    dsimp only
    unfold markCommitmentsAsProcessed
    split
    · exact trivial
    · refine Gateway.safe_ask fun w₁ u reply w₂ _ _ _ _ => ⟨⟨nofun,?_⟩,trivial⟩
      rintro _ ⟨⟩
      exact ⟨m,committer,batch,flying.later hs,rfl,taken response rfl⟩

/-- What is read for a committer is a batch, as two columns. -/
theorem createConstraints_submits {committer : String} :
    (submission g).Safe M (fun tr' r _ _ => ∀ constraints hashes, r = .ok (constraints, hashes) →
        ∃ batch, Batched tr' slot committer batch ∧ constraints = batch.map constraintOf ∧
          hashes = batch.map CommitmentRow.requestHash)
      (ConstraintSubmission.createConstraintsFromCommitments P slot committer) tr w t := by
  have fetched : (submission g).Safe M (fun tr' r _ _ => ∀ scs, r = .ok scs →
      ∃ rows t u pre post, i64TryFrom slot = some slot.toInt64 ∧
        ⟨.plain (.sql (.selectUnprocessed slot.toInt64)), .ok rows, t, u, pre, post⟩ ∈ tr' ∧
          rows.mapM signedCommitmentOf = .ok scs) (getUnprocessedCommitmentsForSlot P slot) tr w t := by
    unfold getUnprocessedCommitmentsForSlot
    split
    · exact nofun
    · rename_i column fits
      have same : column = slot.toInt64 := by
        unfold i64TryFrom at fits
        obtain ⟨_,he⟩ := Option.ite_none_right_eq_some.mp fits
        cases he
        rfl
      subst same
      refine Gateway.safe_ask fun w₁ u reply w₂ _ _ _ _ => ⟨.idle nofun nofun,?_⟩
      cases reply with
      | error e => exact nofun
      | ok rows => exact fun scs h => ⟨rows,t,u,w₁,w₂,fits,List.mem_cons_self,h⟩
  refine fetched.bind fun tr' r w' t' read => ?_
  cases r with
  | error e => exact nofun
  | ok scs =>
    obtain ⟨rows,t,u,pre,post,fits,hm,converted⟩ := read scs rfl
    intro constraints hashes h
    rw [convertCommitments_rows committer converted] at h
    cases h
    exact ⟨_,⟨fits,rows,t,u,pre,post,hm,rfl⟩,rfl,rfl⟩

/-- One delegation: read the batch, build the message, post it, mark the batch. -/
theorem processDelegationConstraints_submits {d : SignedDelegation}
    (own : d.message.delegate = g.config.signing.blsPublicKey)
    (delegated : Delegated g tr slot d.message.proposer d.message.committer) :
    (submission g).Safe M (fun _ _ _ _ => True)
      (ConstraintSubmission.processDelegationConstraints g.blsManager g.config d slot) tr w t := by
  refine createConstraints_submits.suffix.bind ?_
  rintro tr' r w' t' ⟨read,hs⟩
  rcases r with e | ⟨constraints,hashes⟩
  · exact trivial
  · obtain ⟨batch,batched,rfl,rfl⟩ := read constraints hashes rfl
    dsimp only
    split
    · exact trivial
    · split
      · exact trivial
      · rename_i m built
        obtain ⟨issued,named,same,listed⟩ := buildSignedConstraints_issued own built
        subst same
        rw [← named] at delegated
        exact submitAndMark_submits ⟨issued,delegated.later hs,batched,listed⟩

theorem processDelegations_submits {ds : List SignedDelegation}
    (delegated : ∀ d ∈ ds, d.message.delegate = g.config.signing.blsPublicKey →
      Delegated g tr slot d.message.proposer d.message.committer) :
    (submission g).Safe M (fun _ _ _ _ => True)
      (ConstraintSubmission.processDelegations g.blsManager g.config slot ds) tr w t := by
  induction ds generalizing tr w t with
  | nil => exact trivial
  | cons d ds ih =>
    unfold ConstraintSubmission.processDelegations
    split
    · rename_i own
      refine (processDelegationConstraints_submits own (delegated d List.mem_cons_self own)).suffix.bind ?_
      rintro tr' r w' t' ⟨_,hs⟩
      exact ih fun d hd own => (delegated d (List.mem_cons_of_mem _ hd) own).later hs
    · exact ih fun d hd => delegated d (List.mem_cons_of_mem _ hd)

theorem signedDelegationOf_columns {row : DelegationRow} {d : SignedDelegation}
    (h : signedDelegationOf row = .ok d) : row.proposerPubkey = d.message.proposer.bytes ∧
      row.delegatePubkey = d.message.delegate.bytes ∧ row.committerAddress = d.message.committer := by
  unfold signedDelegationOf at h
  repeat' split at h
  all_goals cases h
  exact ⟨rfl,rfl,rfl⟩

theorem processConstraintsForSlot_submits :
    (submission g).Safe M (fun _ _ _ _ => True)
      (ConstraintSubmission.processConstraintsForSlot g.blsManager g.config slot) tr w t := by
  have read : (submission g).Safe M (fun tr' r _ _ => ∀ ds, r = .ok ds → ∀ d ∈ ds,
      d.message.delegate = g.config.signing.blsPublicKey →
        Delegated g tr' slot d.message.proposer d.message.committer) (getDelegationsForSlot P slot) tr w t := by
    refine Gateway.safe_ask fun w₁ u reply w₂ _ _ _ _ => ⟨.idle nofun nofun,?_⟩
    cases reply with
    | error e => exact nofun
    | ok rows =>
      intro ds hds d hd own
      obtain ⟨row,hr,he⟩ := (mem_mapM_ok hds d).mp hd
      obtain ⟨proposer,delegate,committer⟩ := signedDelegationOf_columns he
      exact ⟨rows,t,u,w₁,w₂,row,List.mem_cons_self,hr,proposer,own ▸ delegate,committer⟩
  refine read.bind fun tr' r w' t' delegated => ?_
  cases r with
  | error e => exact trivial
  | ok ds => exact (processDelegations_submits (delegated ds rfl)).bind fun _ _ _ _ _ => trivial

theorem processSlots_submits {slots : List UInt64} :
    (submission g).Safe M (fun _ _ _ _ => True)
      (ConstraintSubmission.processSlots g.blsManager g.config slots) tr w t := by
  induction slots generalizing tr w t with
  | nil => exact trivial
  | cons slot slots ih =>
    refine Gateway.safe_ask fun w₁ u reply w₂ _ _ _ _ => ⟨.idle nofun nofun,?_⟩
    split
    · exact processConstraintsForSlot_submits.bind fun _ _ _ _ _ => ih
    · exact ih

end Tick

/-- Only the ticks owe something. -/
def Gateway.submits (g : Gateway P) : Job → Trace P → Event (requests P) (World P) → Prop
  | .processPendingConstraints => Submits g
  | _ => fun _ _ => True

/-- In every run each tick keeps its promise, whatever runs beside it. -/
theorem Gateway.submitting (g : Gateway P) :
    Verified g.system (g.contract (fun _ => True) g.submits) World.Evolves (fun _ _ _ _ _ => True) := by
  refine Gateway.verified ?_ (fun _ _ _ _ _ _ _ => trivial)
  intro j t w _
  by_cases tick : j = .processPendingConstraints
  · subst tick
    have run {tr : Trace P} {w : World P} {t : Nat} : (submission g).Safe g.machine (fun _ _ _ _ => True)
        (ConstraintSubmission.processPendingConstraints g.blsManager g.config) tr w t := by
      refine Gateway.safe_ask fun w₁ u reply w₂ _ _ _ _ => ⟨.idle nofun nofun,?_⟩
      exact processSlots_submits.bind fun _ _ _ _ _ => trivial
    exact run.bind fun _ _ _ _ _ => trivial
  · have free (tr : Trace P) (e : Event (requests P) (World P)) : g.submits j tr e := by
      cases j with
      | processPendingConstraints => exact absurd rfl tick
      | _ => exact trivial
    exact (Contract.Safe.of_obeys (g.code_obeys j) (fun _ _ _ _ _ => trivial) (fun tr e _ => free tr e)).mono
      (fun _ _ _ _ _ => trivial)

end PreconfGateway
