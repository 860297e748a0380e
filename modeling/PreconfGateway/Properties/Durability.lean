import PreconfGateway.Properties.Authorisation
import PreconfGateway.Rpc.Stages

/-! A request hash is returned at most once, and what was returned can be read back
for ever, exactly as it was signed. -/
namespace PreconfGateway.Properties.Durability
open Encoding Types Db Crypto Interleaving Rpc Services Fixture
variable {P : Platform} {g : Gateway P}

/-- The call has added the row of this commitment. -/
def Inserted (tr : Trace P) (sc : SignedCommitment) : Prop :=
  ∃ (id t u : Nat) (w w' : World P),
    ⟨.plain (.sql (.insertCommitment (newCommitmentOf P sc 1))), .ok (some id), t, u, w, w'⟩ ∈ tr

/-- The database did not answer the lookup. -/
def LookupFailed (tr : Trace P) (hash : String) : Prop :=
  ∃ (e : DbError) (t u : Nat) (w w' : World P),
    ⟨.plain (.sql (.selectCommitment hash)), .error e, t, u, w, w'⟩ ∈ tr

/-- The lookup found this row, or none. -/
def LookedUp (tr : Trace P) (hash : String) (row : Option CommitmentRow) : Prop :=
  ∃ (t u : Nat) (w w' : World P),
    ⟨.plain (.sql (.selectCommitment hash)), .ok row, t, u, w, w'⟩ ∈ tr

/-- What the two handlers have done when they return. -/
structure Finished (g : Gateway P) (j : Job) (tr : Trace P) (o : Outcome) (_ : World P) (_ : Nat) : Prop where
  request : ∀ params sc, j = .commitmentRequest params → o = .commitment (.ok sc) →
    sc.commitment.commitmentType = 1 ∧ Inserted tr sc
  result : ∀ hash, j = .commitmentResult (some hash) →
    (o = .commitment (.error .internalError) ∧ LookupFailed tr hash) ∨
      ∃ row, LookedUp tr hash row ∧ ∀ r sc, row = some r → signedCommitmentOf r = .ok sc →
        o = .commitment (.ok sc)

/-- Nothing is demanded of the world. -/
abbrev loose (P : Platform) : Contract (requests P) (World P) :=
  Gateway.discipline (fun _ => True) (fun _ _ => True)

theorem Safe.of_obeys {M : Machine (requests P) (World P)} {α : Type} {ok : Op P → Prop} {post : α → Prop}
    {p : Async P α} (hp : p.Obeys ok post) {tr : Trace P} {w : World P} {t : Nat} :
    (loose P).Safe M (fun tr' a _ t' => post a ∧ tr <:+ tr' ∧ t ≤ t') p tr w t :=
  Contract.Safe.of_obeys hp (fun _ _ _ _ _ => trivial) (fun _ _ _ => trivial)

theorem storeCommitment_inserts {request : CommitmentRequest} {slot : UInt64} {sc : SignedCommitment}
    {tr : Trace P} {w : World P} {t : Nat} (one : sc.commitment.commitmentType = 1) :
    (loose P).Safe g.machine (fun tr r _ _ => ∀ found, r = .ok found → found = sc ∧ Inserted tr sc)
      (storeCommitment g.config request slot sc) tr w t := by
  unfold storeCommitment
  rw [saveCommitment_one P one]
  refine Gateway.safe_ask fun w₁ u r w₂ _ _ _ _ => ⟨trivial,?_⟩
  rcases r with e | found
  · intro _ hr
    cases hr
  · cases found with
    | none =>
      intro _ hr
      cases hr
    | some id =>
      have account : (accountGas g.config request slot sc).Obeys (fun _ => True)
          (fun r => ∀ found, r = .ok found → found = sc) :=
        accountGas_obeys trivial (fun _ _ => trivial) (fun _ => trivial) (fun _ _ => trivial)
      refine (Safe.of_obeys account).mono ?_
      rintro tr' r w' t' ⟨hr,⟨newer,rfl⟩,_⟩ found hf
      exact ⟨hr found hf,id,_,_,_,_,List.mem_append_right _ List.mem_cons_self⟩

theorem commitmentRequestHandler_inserts {params : Option CommitmentRequest} {w : World P} {t : Nat} :
    (loose P).Safe g.machine
      (fun tr r _ _ => ∀ sc, r = .ok sc → sc.commitment.commitmentType = 1 ∧ Inserted tr sc)
      (commitmentRequestHandler g.config params) [] w t := by
  cases params with
  | none =>
    intro sc h
    cases h
  | some request =>
    rw [commitmentRequestHandler_split]
    have authorised : (authoriseRequest g.config request).Obeys (fun _ : Op P => True)
        (fun r => ∀ slot sc, r = .ok (slot, sc) → Signed g.config request slot sc) :=
      authoriseRequest_obeys (fun _ => trivial) (fun _ => trivial) (fun _ _ => trivial)
    refine Contract.Safe.bind (Safe.of_obeys authorised) ?_
    rintro tr r w t ⟨signed,_,_⟩
    rcases r with e | ⟨slot,sc⟩
    · intro sc h
      cases h
    · have one : sc.commitment.commitmentType = 1 := by
        rw [(signed slot sc rfl).commitment]
      refine (storeCommitment_inserts one).mono fun tr r w t hr found hf => ?_
      obtain ⟨rfl,hi⟩ := hr found hf
      exact ⟨one,hi⟩

theorem commitmentResultHandler_reads {hash : String} {w : World P} {t : Nat} :
    (loose P).Safe g.machine
      (fun tr r _ _ => (r = .error .internalError ∧ LookupFailed tr hash) ∨
        ∃ row, LookedUp tr hash row ∧ ∀ r' sc, row = some r' → signedCommitmentOf r' = .ok sc → r = .ok sc)
      (commitmentResultHandler P (some hash)) [] w t := by
  refine Gateway.safe_ask fun w₁ u r w₂ _ _ _ _ => ⟨trivial,?_⟩
  rcases r with e | row
  · exact .inl ⟨rfl,e,_,_,_,_,List.mem_cons_self⟩
  · cases row with
    | none => exact .inr ⟨none,⟨_,_,_,_,List.mem_cons_self⟩,fun _ _ h => (by cases h)⟩
    | some row =>
      simp only [Program.bind,Program.pure_eq_ret]
      cases hs : signedCommitmentOf row with
      | error e =>
        refine .inr ⟨some row,⟨_,_,_,_,List.mem_cons_self⟩,?_⟩
        rintro _ sc ⟨⟩ h
        rw [hs] at h
        cases h
      | ok found =>
        refine .inr ⟨some row,⟨_,_,_,_,List.mem_cons_self⟩,?_⟩
        rintro _ sc ⟨⟩ h
        rw [hs] at h
        cases h
        rfl

theorem durability_verified (g : Gateway P) :
    Verified g.system (g.contract (fun _ => True) (fun _ _ _ => True)) World.Evolves (Finished g) := by
  refine Gateway.verified ?_ (fun _ _ _ _ _ _ _ => trivial)
  intro j t w _
  cases j with
  | commitmentRequest params =>
    refine Contract.Safe.bind commitmentRequestHandler_inserts fun tr r w t hr => ?_
    refine ⟨?_,fun _ h => (by cases h)⟩
    rintro _ sc - ⟨⟩
    exact hr sc rfl
  | commitmentResult params =>
    cases params with
    | none => exact ⟨fun _ _ h => (by cases h),fun _ h => (by cases h)⟩
    | some hash =>
      refine Contract.Safe.bind commitmentResultHandler_reads fun tr r w t hr => ?_
      refine ⟨fun _ _ h => (by cases h),?_⟩
      rintro _ ⟨⟩
      rcases hr with ⟨rfl,hf⟩ | ⟨row,hl,ha⟩
      · exact .inl ⟨rfl,hf⟩
      · exact .inr ⟨row,hl,fun r' sc h h' => by rw [ha r' sc h h']⟩
  | _ =>
    refine (Safe.of_obeys (g.code_obeys _)).mono fun _ _ _ _ _ => ?_
    exact ⟨fun _ _ h => (by cases h),fun _ h => (by cases h)⟩

/-- This call has returned the commitment. -/
def Returned (s : State (requests P) (World P) Job Outcome) (id : Nat) (sc : SignedCommitment) : Prop :=
  ∃ task params, s.tasks id = some task ∧ task.job = .commitmentRequest params ∧
    task.program = .ret (.commitment (.ok sc))

/-- The columns hold the commitment, whether or not it has been processed. -/
def Holds (w : World P) (sc : SignedCommitment) : Prop :=
  ∃ row, w.commitments.withHash sc.commitment.requestHash = some row ∧ signedCommitmentOf row = .ok sc

theorem signedCommitmentOf_new {sc : SignedCommitment} (one : sc.commitment.commitmentType = 1)
    {id createdAt : Nat} {row : CommitmentRow} (h : ((newCommitmentOf P sc 1).row id createdAt).Later row) :
    signedCommitmentOf row = .ok sc := by
  obtain ⟨⟨type,payload,hash,slasher⟩,signature⟩ := sc
  cases one
  rw [h.1]
  rfl

/-- What is in the table stays readable under its hash. -/
theorem Holds.evolves {a b : World P} {sc : SignedCommitment} (h : Holds a sc) (he : a.Evolves b) :
    Holds b sc := by
  obtain ⟨row,hf,hs⟩ := h
  obtain ⟨hr,same⟩ := Commitments.withHash_some hf
  obtain ⟨row',hm,hl⟩ := he.commitments row hr
  have hash : row'.requestHash = sc.commitment.requestHash := by
    rw [hl.1]
    exact same
  refine ⟨row',by rw [← hash]; exact Commitments.withHash_mem hm,?_⟩
  rw [hl.1]
  exact hs

theorem holds_of_inserted {sc : SignedCommitment} (one : sc.commitment.commitmentType = 1) {id u : Nat}
    {w w' : World P} (ha : g.machine.Answers u w (.plain (.sql (.insertCommitment (newCommitmentOf P sc 1))))
      (.ok (some id)) w') :
    Holds w' sc ∧ ∀ r ∈ w.commitments.rows, r.requestHash ≠ sc.commitment.requestHash := by
  obtain ⟨createdAt,hrows,fresh⟩ := Answers.insertCommitment ha
  have hm : (newCommitmentOf P sc 1).row id createdAt ∈ w'.commitments.rows := by
    rw [hrows]
    exact List.mem_append_right _ List.mem_cons_self
  exact ⟨⟨_,Commitments.withHash_mem hm,signedCommitmentOf_new one ⟨rfl,fun h => h⟩⟩,fresh⟩

/-- Every stored type converts to the wire and back, so reading a row never fails. -/
theorem signedCommitmentOf_checked {row : CommitmentRow} (h : row.checks = true) :
    ∃ sc, signedCommitmentOf row = .ok sc ∧ i64TryFrom sc.commitment.commitmentType = some row.commitmentType := by
  obtain ⟨type,read,fits⟩ := Db.signedCommitmentOf_checked h
  exact ⟨_,read,fits⟩

/-- A lookup that starts later is answered with the commitment, if the database answers. -/
def ReadBack (s s' : State (requests P) (World P) Job Outcome) (sc : SignedCommitment) : Prop :=
  ∀ k task o, s.tasks k = none → s'.tasks k = some task →
    task.job = .commitmentResult (some sc.commitment.requestHash) → task.program = .ret o →
      o = .commitment (.ok sc) ∨
        (o = .commitment (.error .internalError) ∧ LookupFailed task.trace sc.commitment.requestHash)

/-- Every request hash is stored once and returned at most once, and a returned
commitment is in the table and read back, exactly, for ever after. -/
theorem commitments_durable (g : Gateway P) {w₀ : World P} {s : State (requests P) (World P) Job Outcome}
    (hr : Reachable g.system w₀ s) :
    (s.world.commitments.rows.map CommitmentRow.requestHash).Nodup ∧
    (∀ row ∈ s.world.commitments.rows, ∃ sc, signedCommitmentOf row = .ok sc ∧
      i64TryFrom sc.commitment.commitmentType = some row.commitmentType) ∧
    (∀ i j sc sc', Returned s i sc → Returned s j sc' →
      sc.commitment.requestHash = sc'.commitment.requestHash → i = j) ∧
    ∀ i sc, Returned s i sc → ∀ s', Relation.ReflTransGen (Step g.system) s s' →
      Holds s'.world sc ∧ ReadBack s s' sc := by
  have hv := durability_verified g
  have sound := hv.sound (fun _ => trivial) hr
  have inserted {i : Nat} {sc : SignedCommitment} (h : Returned s i sc) : ∃ job e,
      s.Saw i job e ∧ (∀ r ∈ e.pre.commitments.rows, r.requestHash ≠ sc.commitment.requestHash) ∧
        Holds e.post sc ∧ Holds s.world sc := by
    obtain ⟨task,params,ht,hj,hp⟩ := h
    obtain ⟨w,_,hq⟩ := (sound.tasks i task ht).finished _ hp
    obtain ⟨one,id,t,u,w,w',hm⟩ := hq.request params sc hj rfl
    have saw : s.Saw i task.job _ := ⟨task,ht,rfl,hm⟩
    obtain ⟨_,answers,evolved⟩ := reached_event hr saw
    obtain ⟨holds,fresh⟩ := holds_of_inserted one answers
    exact ⟨task.job,_,saw,fresh,holds,holds.evolves evolved⟩
  refine ⟨s.world.commitments.hashes,?_,?_,?_⟩
  · exact fun row hm => signedCommitmentOf_checked (s.world.commitments.checked row hm)
  · intro i j sc sc' hi hj same
    obtain ⟨a,d,sawd,freshd,heldd,_⟩ := inserted hi
    obtain ⟨b,e,sawe,freshe,helde,_⟩ := inserted hj
    have known {w : World P} {sc : SignedCommitment} (h : Holds w sc) :
        ∃ r ∈ w.commitments.rows, r.requestHash = sc.commitment.requestHash := by
      obtain ⟨row,hf,_⟩ := h
      exact ⟨row,Commitments.withHash_some hf⟩
    refine (hv.claimed_once (fun _ => trivial) hr
      (fun w => ∃ r ∈ w.commitments.rows, r.requestHash = sc.commitment.requestHash) ?_ sawd sawe
      ?_ (known heldd) ?_ (by rw [same]; exact known helde)).1
    · rintro w w' hev ⟨r,hm,hh⟩
      obtain ⟨r',hm',hl⟩ := hev.commitments r hm
      exact ⟨r',hm',by rw [hl.1]; exact hh⟩
    · rintro ⟨r,hm,hh⟩
      exact freshd r hm hh
    · rintro ⟨r,hm,hh⟩
      exact freshe r hm (hh.trans same)
  · intro i sc hi s' steps
    obtain ⟨_,_,_,_,_,held⟩ := inserted hi
    have hr' := hr.steps steps
    refine ⟨held.evolves (reached_later hr steps),?_⟩
    intro k task o fresh ht hj hp
    obtain ⟨w,_,hq⟩ := ((hv.sound (fun _ => trivial) hr').tasks k task ht).finished _ hp
    rcases hq.result _ hj with hf | ⟨row,⟨t,u,w,w',hm⟩,ha⟩
    · exact .inr hf
    · have saw : s'.Saw k task.job _ := ⟨task,ht,rfl,hm⟩
      obtain ⟨_,answers,_⟩ := reached_event hr' saw
      obtain ⟨row',hf,hs⟩ := held.evolves (reached_fresh hr steps fresh saw)
      rw [(Answers.selectCommitment answers).1] at ha
      exact .inl (ha row' sc hf hs)

/-- A request served after a poll, and its commitment kept. -/
theorem commitments_durable_served :
    ∃ s : State (requests (platform offer)) (World (platform offer)) Job Outcome,
      Reachable small.system (.empty _) s ∧ Returned s 1 signed ∧
        ∀ s', Relation.ReflTransGen (Step small.system) s s' → Holds s'.world signed ∧ ReadBack s s' signed := by
  obtain ⟨s,hr,_,_,_,_,_,task,ht,hj,hp⟩ := Authorisation.served_reachable
  have returned : Returned s 1 signed := ⟨task,_,ht,hj,hp⟩
  exact ⟨s,hr,returned,(commitments_durable small hr).2.2.2 1 signed returned⟩

end PreconfGateway.Properties.Durability
