import PreconfGateway.Properties.Atomicity
import PreconfGateway.Rpc.Stages

/-! Every commitment the handler stores was authorised: the table of delegations holds
nothing but signed delegations to the own key, and the handler reads one of them. -/
namespace PreconfGateway.Properties.Authorisation
open Encoding Types Db Crypto Interleaving Rpc Services Fixture
variable {P : Platform} {g : Gateway P}

/-- The row reads back as a delegation the poller accepts. -/
def Trusted (g : Gateway P) (w : World P) : Prop :=
  ∀ row ∈ w.delegations.rows, ∀ d, signedDelegationOf row = .ok d → Acceptable g.config d

/-- The delegation was read from an active row of the slot during the call. -/
def ReadActive (tr : Trace P) (slot : UInt64) (d : SignedDelegation) : Prop :=
  ∃ (rows : List DelegationRow) (t u : Nat) (w w' : World P),
    ⟨.plain (.sql (.selectDelegations slot.toInt64)), .ok rows, t, u, w, w'⟩ ∈ tr ∧
    ∃ row ∈ rows, row ∈ w.delegations.rows ∧ row.isActive = true ∧ row.slotNumber = slot.toInt64 ∧
      signedDelegationOf row = .ok d

/-- The beacon client named the proposer during the call. -/
def Scheduled (tr : Trace P) (slot : UInt64) (proposer : BlsPublicKey) : Prop :=
  ∃ (duty : ValidatorDuty) (t u : Nat) (w w' : World P),
    ⟨.plain (.proposerForSlot slot), .ok (some duty), t, u, w, w'⟩ ∈ tr ∧ duty.parsePubkey = .ok proposer

/-- The lookup of the call has met this delegation before any other match. -/
def Matched (tr : Trace P) (slot : UInt64) (slasher : String) (d : SignedDelegation) : Prop :=
  ∃ (rows : List DelegationRow) (ds : List SignedDelegation) (t u : Nat) (w w' : World P),
    ⟨.plain (.sql (.selectDelegations slot.toInt64)), .ok rows, t, u, w, w'⟩ ∈ tr ∧
      rows.mapM signedDelegationOf = .ok ds ∧ findDelegation slot slasher ds = some d

structure Authorised (g : Gateway P) (request : CommitmentRequest) (tr : Trace P) (new : NewCommitment)
    (slot : UInt64) (d : SignedDelegation) : Prop where
  commitmentType : request.commitmentType = 1
  columns : new.commitmentType = 1 ∧ new.payload = request.payload ∧ new.slasher = request.slasher
  whitelisted : ∃ a ∈ g.config.validation.slasherWhitelist, normalizeAddress a = normalizeAddress new.slasher
  slot_eq : PayloadParser.extractSlot P 1 new.payload = .ok slot
  requestHash : generateRequestHash P request = .ok new.requestHash
  read : ReadActive tr slot d
  delegationSlot : d.message.slot = slot
  committer : normalizeAddress d.message.committer = normalizeAddress g.config.signing.committerAddress
  verifies : Verifies P d
  delegate : d.message.delegate = g.config.signing.blsPublicKey
  scheduled : Scheduled tr slot d.message.proposer
  signature : signCommitment P ⟨1, new.payload, new.requestHash, new.slasher⟩ g.config.signing.ecdsaPrivateKey =
    .ok new.signature

theorem signedDelegationOf_new (d : SignedDelegation) (id : Nat) :
    signedDelegationOf ((newDelegationOf d).row id) = .ok d := by
  obtain ⟨⟨⟨p,hp⟩,⟨q,hq⟩,committer,slot⟩,⟨sig,hs⟩⟩ := d
  simp [signedDelegationOf,newDelegationOf,NewDelegation.row,hp,hq,hs]

theorem signedDelegationOf_off (p : DelegationRow → Bool) (row : DelegationRow) :
    signedDelegationOf (row.off p) = signedDelegationOf row := by
  unfold DelegationRow.off
  split <;> rfl

/-- The table stays trusted whatever the jobs do to it. -/
theorem Trusted.step {j : Job} {q : Query P} {w w' : World P} (h : Trusted g w) (hc : Changes w q w')
    (ha : g.Asks j q) : Trusted g w' := by
  cases hc with
  | stored news ids kept delegations long added =>
    cases ha with
    | insertDelegations ds hds =>
      intro row hrow d hd
      rcases Delegations.stored_rows added row hrow with hrow | ⟨n,hn,id,rfl⟩
      · exact h row hrow d hd
      · obtain ⟨d',hd',rfl⟩ := List.mem_map.mp hn
        rw [signedDelegationOf_new] at hd
        cases hd
        exact hds _ hd'
  | switchedOff _ p _ =>
    intro row hrow d hd
    obtain ⟨old,ho,rfl⟩ := List.mem_map.mp hrow
    rw [signedDelegationOf_off] at hd
    exact h old ho d hd
  | same => exact h
  | inserted => exact h
  | marked => exact h
  | recorded => exact h
  | counted => exact h
  | taken => exact h

/-- What a job owes for a request: an insert needs an authorised call of its own. -/
def Guarantee (g : Gateway P) (j : Job) (tr : Trace P) (e : Event (requests P) (World P)) : Prop :=
  ∀ new, e.op.query = .sql (.insertCommitment new) →
    ∃ request slot d, j = .commitmentRequest (some request) ∧ Authorised g request tr new slot d ∧
      Matched tr slot request.slasher d

/-- What the lookup has established when it returns a committer. -/
structure Established (g : Gateway P) (tr : Trace P) (slot : UInt64) (committer : String)
    (d : SignedDelegation) : Prop where
  read : ReadActive tr slot d
  slot_eq : d.message.slot = slot
  committer_eq : d.message.committer = committer
  acceptable : Acceptable g.config d
  scheduled : Scheduled tr slot d.message.proposer

variable {Q : Trace P → Outcome → World P → Nat → Prop}

theorem verifyDelegationAuthority_safe {j : Job} {slot : UInt64} {slasher : String} {tr : Trace P}
    {w : World P} {t : Nat} :
    (Gateway.discipline (Trusted g) (Guarantee g j)).Safe g.machine
      (fun tr r _ _ => ∀ committer, r = .ok committer →
        ∃ d, Established g tr slot committer d ∧ Matched tr slot slasher d)
      (verifyDelegationAuthority g.config slot slasher) tr w t := by
  refine Gateway.safe_ask fun w₁ u r w₂ trusted _ _ answers => ⟨(by intro new h; cases h),?_⟩
  rcases r with e | rows
  · intro committer h
    cases h
  · obtain ⟨perm,rfl⟩ := Answers.selectDelegations answers
    dsimp only [Program.bind,Program.pure_eq_ret]
    split
    · intro committer h
      cases h
    · rename_i ds hds
      split
      · intro committer h
        cases h
      · rename_i d hd
        split
        · intro committer h
          cases h
        · rename_i hsig
          obtain ⟨row,hrow,hback⟩ := (mem_mapM_ok hds d).mp (List.mem_of_find?_eq_some hd)
          have active := List.mem_filter.mp (perm.mem_iff.mp hrow)
          simp only [Bool.and_eq_true,decide_eq_true_eq] at active
          have found := List.find?_some hd
          rw [Bool.and_eq_true] at found
          refine Gateway.safe_ask fun w₂ u' duty w₃ _ _ _ _ => ⟨(by intro new h; cases h),?_⟩
          intro committer h
          cases hc : checkProposer slot d duty with
          | error e =>
            simp only [hc] at h
            cases h
          | ok _ =>
            simp only [hc] at h
            cases h
            obtain ⟨v,rfl,hv⟩ := (checkProposer_ok slot).mp hc
            refine ⟨d,⟨?_,of_decide_eq_true found.2,rfl,trusted row active.1 d hback,?_⟩,?_⟩
            · exact ⟨rows,_,_,_,_,List.mem_cons_of_mem _ List.mem_cons_self,row,hrow,active.1,active.2.2,
                active.2.1,hback⟩
            · exact ⟨v,_,_,_,_,List.mem_cons_self,hv⟩
            · exact ⟨rows,ds,_,_,_,_,List.mem_cons_of_mem _ List.mem_cons_self,hds,hd⟩

/-- A job that returned a commitment has stored it with authority. -/
def Returned (g : Gateway P) (j : Job) (tr : Trace P) (r : RpcResult SignedCommitment) : Prop :=
  ∀ request, j = .commitmentRequest (some request) → ∀ sc, r = .ok sc → 
    ∃ newer older id t u w w' slot d,
      tr = newer ++ ⟨.plain (.sql (.insertCommitment (newCommitmentOf P sc 1))), .ok (some id), t, u, w, w'⟩ :: older ∧
        Authorised g request older (newCommitmentOf P sc 1) slot d

theorem storeCommitment_safe {request : CommitmentRequest} {slot : UInt64} {sc : SignedCommitment}
    {d : SignedDelegation} {tr : Trace P} {w : World P} {t : Nat} (type : sc.commitment.commitmentType = 1)
    (h : Authorised g request tr (newCommitmentOf P sc 1) slot d) (matched : Matched tr slot request.slasher d) :
    (Gateway.discipline (Trusted g) (Guarantee g (.commitmentRequest (some request)))).Safe g.machine
      (fun tr r _ _ => Returned g (.commitmentRequest (some request)) tr r)
      (storeCommitment g.config request slot sc) tr w t := by
  unfold storeCommitment
  rw [saveCommitment_one P type]
  refine Gateway.safe_ask fun w₁ u r w₂ _ _ _ _ => ⟨?_,?_⟩
  · intro new hn
    cases hn
    exact ⟨request,slot,d,rfl,h,matched⟩
  · rcases r with e | found
    · intro _ _ _ hr
      cases hr
    · cases found with
      | none =>
        intro _ _ _ hr
        cases hr
      | some id =>
        have account : (accountGas g.config request slot sc).Obeys
            (fun op : Op P => ∀ new, op.query ≠ .sql (.insertCommitment new))
            (fun r => ∀ found, r = .ok found → found = sc) :=
          accountGas_obeys (by simp [Op.query]) (by simp [Op.query]) (by simp [Op.query]) (by simp [Op.query])
        refine (Contract.Safe.of_obeys account (fun _ _ _ _ _ => trivial) ?_).mono ?_
        · intro tr e he new hn
          exact absurd hn (he new)
        · rintro tr' r w' t' ⟨hr,⟨newer,rfl⟩,_⟩ request' hj sc' hsc
          cases hj
          rw [hr sc' hsc]
          exact ⟨newer,tr,id,_,_,_,_,slot,d,rfl,h⟩

theorem commitmentRequestHandler_safe {request : CommitmentRequest} {w : World P} {t : Nat} :
    (Gateway.discipline (Trusted g) (Guarantee g (.commitmentRequest (some request)))).Safe g.machine
      (fun tr r _ _ => Returned g (.commitmentRequest (some request)) tr r)
      (commitmentRequestHandler g.config (some request)) [] w t := by
  have failed (e : RpcError) (tr : Trace P) (w : World P) (t : Nat) :
      (Gateway.discipline (Trusted g) (Guarantee g (.commitmentRequest (some request)))).Safe g.machine
        (fun tr r _ _ => Returned g (.commitmentRequest (some request)) tr r) (pure (.error e)) tr w t := by
    intro _ _ _ hr
    cases hr
  unfold commitmentRequestHandler
  dsimp only
  split
  · exact failed _ _ _ _
  · rename_i slot hash hadmit
    obtain ⟨type,listed,hslot,hhash⟩ := admitRequest_ok hadmit
    refine Gateway.safe_ask fun w₁ u r w₂ _ _ _ _ => ⟨(by intro new h; cases h),?_⟩
    rcases r with e | found
    · exact failed _ _ _ _
    · cases found
      · refine Contract.Safe.bind verifyDelegationAuthority_safe fun tr r w t hr => ?_
        rcases r with e | committer
        · exact failed _ _ _ _
        · obtain ⟨d,established,matched⟩ := hr committer rfl
          dsimp only
          split
          · exact failed _ _ _ _
          · rename_i sc hsc
            obtain ⟨key,hc,hsig⟩ := signRequest_ok hsc
            rw [type] at hc
            have one : sc.commitment.commitmentType = 1 := by rw [hc]
            have authorised : Authorised g request tr (newCommitmentOf P sc 1) slot d := {
              commitmentType := type
              columns := by simp only [newCommitmentOf,hc]; decide
              whitelisted := by simpa only [newCommitmentOf,hc] using listed
              slot_eq := by simpa only [newCommitmentOf,hc] using hslot
              requestHash := by simpa only [newCommitmentOf,hc] using hhash
              read := established.read
              delegationSlot := established.slot_eq
              committer := by rw [established.committer_eq]; exact key
              verifies := established.acceptable.2
              delegate := established.acceptable.1
              scheduled := established.scheduled
              signature := by simpa only [newCommitmentOf,hc] using hsig }
            exact storeCommitment_safe one authorised matched
      · exact failed _ _ _ _

/-- The result of a job, as far as it is a commitment. -/
def Finished (g : Gateway P) (j : Job) (tr : Trace P) (o : Outcome) (_ : World P) (_ : Nat) : Prop :=
  ∀ r, o = .commitment r → Returned g j tr r

theorem authorisation_verified (g : Gateway P) :
    Verified g.system (g.contract (Trusted g) (Guarantee g)) World.Evolves (Finished g) := by
  refine Gateway.verified ?_ (fun j tr e h hc ha _ => h.step hc ha)
  intro j t w _
  have idle {j : Job} (hj : ∀ params, j ≠ .commitmentRequest params) :
      (Gateway.discipline (Trusted g) (Guarantee g j)).Safe g.machine (Finished g j) (g.code j) [] w t := by
    refine (Contract.Safe.of_obeys (g.code_obeys j) (fun _ _ _ _ _ => trivial) ?_).mono ?_
    · intro tr e ha new hn
      rw [hn] at ha
      cases ha with
      | insertCommitment params => exact absurd rfl (hj params)
    · rintro tr' o _ _ - r - request h
      exact absurd h (hj _)
  cases j with
  | commitmentRequest params =>
    cases params with
    | none =>
      intro r _ request h
      cases h
    | some request =>
      refine Contract.Safe.bind commitmentRequestHandler_safe ?_
      intro tr r w t h r' hr
      cases hr
      exact h
  | _ => exact idle (by simp)

/-- In this state a call for the request has sent this insert, after these events of its own. -/
def SentBy (s : State (requests P) (World P) Job Outcome) (request : CommitmentRequest) (older : Trace P)
    (new : NewCommitment) : Prop :=
  ∃ id task newer e, s.tasks id = some task ∧ task.job = .commitmentRequest (some request) ∧
    task.trace = newer ++ e :: older ∧ e.op.query = .sql (.insertCommitment new)

theorem trusted_of_empty {w₀ : World P} (empty : w₀.delegations = .empty) : Trusted g w₀ := by
  intro row h
  rw [empty] at h
  cases h

/-- The row was stored by a call that had matched this delegation and was authorised by it. -/
def AuthorisedBy (g : Gateway P) (s : State (requests P) (World P) Job Outcome) (row : CommitmentRow) (slot : UInt64)
    (d : SignedDelegation) : Prop :=
  ∃ request older new id createdAt, SentBy s request older new ∧ Authorised g request older new slot d ∧
    Matched older slot request.slasher d ∧ (new.row id createdAt).Later row

/-- A stored commitment that was not there at the start was authorised. -/
theorem stored_authorised {w₀ : World P} {s : State (requests P) (World P) Job Outcome}
    (empty : w₀.delegations = .empty) (hr : Reachable g.system w₀ s) {row : CommitmentRow}
    (hrow : row ∈ s.world.commitments.rows) (absent : ∀ r ∈ w₀.commitments.rows, r.requestHash ≠ row.requestHash) :
    ∃ slot d, AuthorisedBy g s row slot d := by
  have sound := (authorisation_verified g).sound (fun _ => trusted_of_empty empty) hr
  obtain ⟨id,job,e,new,rowId,createdAt,⟨task,ht,rfl,he⟩,hq,_,later⟩ := reached_inserted hr hrow absent
  obtain ⟨newer,older,htrace,_,_,_,_,_,owes⟩ := (sound.tasks id task ht).kept.mem he
  obtain ⟨request,slot,d,hj,ha,matched⟩ := owes new hq
  exact ⟨slot,d,request,older,new,rowId,createdAt,⟨id,task,newer,e,ht,hj,htrace,hq⟩,ha,matched,later⟩

/-- Every stored commitment, and every returned one, comes from a call that had read an
active, signed delegation to the own key by the scheduled proposer. -/
theorem commitments_authorised (g : Gateway P) {w₀ : World P} {s : State (requests P) (World P) Job Outcome}
    (empty : w₀.delegations = .empty) (hr : Reachable g.system w₀ s) :
    (∀ row ∈ s.world.commitments.rows, (∀ r ∈ w₀.commitments.rows, r.requestHash ≠ row.requestHash) →
      ∃ request older new slot d id createdAt, SentBy s request older new ∧
        Authorised g request older new slot d ∧ (new.row id createdAt).Later row) ∧
    ∀ id task request sc, s.tasks id = some task → task.job = .commitmentRequest (some request) →
      task.program = .ret (.commitment (.ok sc)) →
        ∃ older slot d, SentBy s request older (newCommitmentOf P sc 1) ∧
          Authorised g request older (newCommitmentOf P sc 1) slot d := by
  have sound := (authorisation_verified g).sound (fun _ => trusted_of_empty empty) hr
  constructor
  · intro row hrow absent
    obtain ⟨slot,d,request,older,new,id,createdAt,sent,ha,_,later⟩ := stored_authorised empty hr hrow absent
    exact ⟨request,older,new,slot,d,id,createdAt,sent,ha,later⟩
  · intro id task request sc ht hj hp
    obtain ⟨w,_,hq⟩ := (sound.tasks id task ht).finished _ hp
    obtain ⟨newer,older,row,t,u,w,w',slot,d,htrace,ha⟩ := hq _ rfl request hj sc rfl
    exact ⟨older,slot,d,⟨id,task,newer,_,ht,hj,htrace,rfl⟩,ha⟩

theorem stored_reachable : ∃ s : State (requests (platform offer)) (World (platform offer)) Job Outcome,
    Reachable small.system (.empty _) s ∧ s.Idle ∧ s.world = stored ∧ s.clock = 60100 ∧
      (∀ i, 1 ≤ i → s.tasks i = none) ∧
        ∃ task, s.tasks 0 = some task ∧ task.job = .pollDelegations ∧ task.dropped = false := by
  have run : (small.system.script [poll offer] (.empty _) 0).any (fun out =>
      out.2.1.commitments.rows = [] && out.2.1.delegations.rows = stored.delegations.rows &&
        out.2.1.congestion.rows = [] && out.2.1.accepted = [] && out.2.2 = 60100 && out.1.length = 1) = true := by
    decide +kernel
  obtain ⟨s,outs,hr,hi,hp,_,free,done⟩ := reach_of_script (.initial 0) (fun _ _ h => (by cases h))
    (fun i (_ : 0 ≤ i) => rfl) run
  simp only [Bool.and_eq_true,decide_eq_true_eq] at hp
  obtain ⟨⟨⟨⟨⟨commitments,delegations⟩,congestion⟩,accepted⟩,clock⟩,played⟩ := hp
  obtain ⟨out,rfl⟩ := List.length_eq_one_iff.mp played
  obtain ⟨since,ht⟩ := done 0 (poll offer) out rfl rfl
  refine ⟨s,hr,hi,?_,clock,free,_,ht,rfl,rfl⟩
  exact World.ext (Commitments.ext commitments) (Delegations.ext delegations) (Congestion.ext congestion) accepted

/-- After a poll the call returns the commitment, and nothing is in flight. -/
theorem reach_of_store {t : Nat} (ht : 60100 ≤ t) {es : Trace (platform offer)}
    (stores : Run small.machine Eq (storeCommitment small.config (request 5 7 own) 5 signed)
      stored t es (.ok signed) served t) :
    ∃ s : State (requests (platform offer)) (World (platform offer)) Job Outcome,
      Reachable small.system (.empty _) s ∧ s.Idle ∧ s.world = served ∧ s.clock = t ∧
        (∀ i, 2 ≤ i → s.tasks i = none) ∧
          (∃ task, s.tasks 0 = some task ∧ task.job = .pollDelegations ∧ task.dropped = false) ∧
          ∃ first : Trace (platform offer), first.all Atomicity.up = true ∧
            s.tasks 1 = some ⟨.commitmentRequest (some (request 5 7 own)), .ret (.commitment (.ok signed)), t,
              (first ++ es).reverse, false⟩ := by
  obtain ⟨s,hr,hi,hw,hclock,free,poll,hpoll,job⟩ := stored_reachable
  obtain ⟨first,serves,all⟩ := Atomicity.serve_of_store stores
  have waited := hr.wait hi (t := t) (by omega)
  have call : Run small.machine Eq (small.system.code (.commitmentRequest (some (request 5 7 own)))) s.world t
      (first ++ es ++ []) (.commitment (.ok signed)) served t := by
    rw [hw]
    exact serves.bind (.ret (Outcome.commitment (.ok signed)) served t)
  obtain ⟨s',hr',hi',hw',ht',mine,others⟩ := waited.run hi (free 1 (Nat.le_refl 1)) trivial call
    (fun _ _ _ => trivial)
  rw [List.append_nil] at mine
  refine ⟨s',hr',hi',hw',ht',?_,⟨poll,(others 0 (by omega)).trans hpoll,job⟩,first,all,mine⟩
  intro i hle
  rw [others i (by omega)]
  exact free i (by omega)

theorem served_reachable : ∃ s : State (requests (platform offer)) (World (platform offer)) Job Outcome,
    Reachable small.system (.empty _) s ∧ s.Idle ∧ s.world = served ∧ s.clock = 61000 ∧
      (∀ i, 2 ≤ i → s.tasks i = none) ∧ (∃ task, s.tasks 0 = some task ∧ task.job = .pollDelegations) ∧
        ∃ task, s.tasks 1 = some task ∧ task.job = .commitmentRequest (some (request 5 7 own)) ∧
          task.program = .ret (.commitment (.ok signed)) := by
  obtain ⟨_,stores,_⟩ := Atomicity.store_signed
  obtain ⟨s,hr,hi,hw,ht,free,⟨poll,hpoll,polls,_⟩,_,_,mine⟩ := reach_of_store (by decide) stores
  exact ⟨s,hr,hi,hw,ht,free,⟨poll,hpoll,polls⟩,_,mine,rfl,rfl⟩

/-- A request served after a poll, with the authority behind its row. -/
theorem commitments_authorised_served :
    ∃ s : State (requests (platform offer)) (World (platform offer)) Job Outcome,
      Reachable small.system (.empty _) s ∧ ∃ row ∈ s.world.commitments.rows,
        ∃ request older new slot d id createdAt, SentBy s request older new ∧
          Authorised small request older new slot d ∧ (new.row id createdAt).Later row := by
  obtain ⟨s,hr,_,hw,_⟩ := served_reachable
  have hrow : (newCommitmentOf (platform offer) signed 1).row 0 0 ∈ s.world.commitments.rows := by
    rw [hw]
    exact List.mem_cons_self
  exact ⟨s,hr,_,hrow,(commitments_authorised _ rfl hr).1 _ hrow (by simp [World.empty,Commitments.empty])⟩

end PreconfGateway.Properties.Authorisation
