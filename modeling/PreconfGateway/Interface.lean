import PreconfGateway.Properties.Durability
import PreconfGateway.Rpc.Wire
import PreconfGateway.Sources

/-! The calls for commitments in the whole server: what one of them has done when it is replied to. -/
namespace PreconfGateway
open Encoding Types Db Crypto Interleaving Rpc Services Properties.Durability
variable {P : Platform} {g : Gateway P}

/-- The reply to a call of a method with these parameters. -/
def Replied {S : Signature} {W : Type} (s : State S W Entry Ending) (id : Nat) (method : String) (params : Option Json)
    (r : Reply) : Prop :=
  ∃ task call ending, s.tasks id = some task ∧ setupRpcMethods method = some call ∧ task.job = call params ∧
    task.program = .ret ending ∧ ending.reply = some r

/-- The commitment that a call was answered with. -/
def Ending.commitment? : Ending → Option SignedCommitment
  | .inl o => o.commitment?
  | .inr _ => none

theorem Ending.commitment_some {ending : Ending} {sc : SignedCommitment} (h : ending.commitment? = some sc) :
    ending = .inl (.commitment (.ok sc)) := by
  unfold Ending.commitment? at h
  split at h
  · unfold Outcome.commitment? at h
    split at h
    · cases h
      rfl
    · cases h
  · cases h

/-- A call that inserts a commitment has signed it for its own request. -/
def Signs (g : Gateway P) (entry : Entry) (q : Query P) : Prop :=
  ∀ new, q = .sql (.insertCommitment new) → ∃ request slot sc, entry = .inl (.commitmentRequest (some request)) ∧
    Signed g.config request slot sc ∧ new = newCommitmentOf P sc 1

theorem storeCommitment_signs {request : CommitmentRequest} {slot : UInt64} {sc : SignedCommitment}
    (signed : Signed g.config request slot sc) : (storeCommitment g.config request slot sc).Obeys
      (fun op : Op P => Signs g (.inl (.commitmentRequest (some request))) op.query)
      (fun r => ∀ found, r = .ok found → found = sc) := by
  have one : sc.commitment.commitmentType = 1 := by
    rw [signed.commitment]
  unfold storeCommitment
  rw [saveCommitment_one P one]
  refine obeys_asked ?_ fun r => ?_
  · rintro new ⟨⟩
    exact ⟨request,slot,sc,rfl,signed,rfl⟩
  · rcases r with e | found
    · intro found h
      cases h
    · cases found with
      | none =>
        intro found h
        cases h
      | some id => exact accountGas_obeys nofun (fun _ _ => nofun) (fun _ => nofun) fun _ _ => nofun

theorem commitmentRequestHandler_signs (params : Option CommitmentRequest) :
    (commitmentRequestHandler g.config params).Obeys
      (fun op : Op P => Signs g (.inl (.commitmentRequest params)) op.query)
      (fun r => ∀ sc, r = .ok sc → ∃ request slot, params = some request ∧ Signed g.config request slot sc) := by
  cases params with
  | none =>
    intro sc h
    cases h
  | some request =>
    rw [commitmentRequestHandler_split]
    have authorised : (authoriseRequest g.config request).Obeys
        (fun op : Op P => Signs g (.inl (.commitmentRequest (some request))) op.query)
        (fun r => ∀ slot sc, r = .ok (slot, sc) → Signed g.config request slot sc) :=
      authoriseRequest_obeys (fun _ => nofun) (fun _ => nofun) fun _ _ => nofun
    refine authorised.bind fun r signed => ?_
    rcases r with e | ⟨slot,sc⟩
    · intro sc h
      cases h
    · refine (storeCommitment_signs (signed slot sc rfl)).mono (fun _ h => h) fun r same found h => ?_
      rw [same found h]
      exact ⟨request,slot,rfl,signed slot sc rfl⟩

/-- Whatever runs in the server, commitments are inserted by the calls that have signed them. -/
theorem server_signs (entry : Entry) :
    (g.server.code entry).Obeys (fun op : Op P => Signs g entry op.query) (fun _ => True) := by
  have never (h : ∀ new, ¬ g.Requests entry (.sql (.insertCommitment new))) :
      (g.server.code entry).Obeys (fun op : Op P => Signs g entry op.query) (fun _ => True) := by
    refine (g.server_obeys entry).mono (fun op asks new same => ?_) fun _ h => h
    rw [same] at asks
    exact absurd asks (h new)
  cases entry with
  | inr k =>
    refine never fun new asks => ?_
    rcases asks with _ | ⟨asks⟩
    cases asks
  | inl j =>
    cases j with
    | commitmentRequest params =>
      have job : (g.code (.commitmentRequest params)).Obeys
          (fun op : Op P => Signs g (.inl (.commitmentRequest params)) op.query) (fun _ => True) :=
        (commitmentRequestHandler_signs params).bind fun _ _ => trivial
      exact job.bind fun _ _ => trivial
    | _ =>
      refine never fun new asks => ?_
      rcases asks with ⟨asks⟩ | _
      cases asks

/-- A call that looks a commitment up does so under the hash that it was given. -/
def Reads (entry : Entry) (q : Query P) : Prop :=
  ∀ hash, q = .sql (.selectCommitment hash) → entry = .inl (.commitmentResult (some hash))

theorem server_reads (entry : Entry) :
    (g.server.code entry).Obeys (fun op : Op P => Reads entry op.query) (fun _ => True) := by
  have never (h : ∀ hash, ¬ g.Requests entry (.sql (.selectCommitment hash))) :
      (g.server.code entry).Obeys (fun op : Op P => Reads entry op.query) (fun _ => True) := by
    refine (g.server_obeys entry).mono (fun op asks hash same => ?_) fun _ h => h
    rw [same] at asks
    exact absurd asks (h hash)
  cases entry with
  | inr k =>
    refine never fun hash asks => ?_
    rcases asks with _ | ⟨asks⟩
    cases asks
  | inl j =>
    cases j with
    | commitmentResult params =>
      have job : (g.code (.commitmentResult params)).Obeys
          (fun op : Op P => Reads (.inl (.commitmentResult params)) op.query) (fun _ => True) := by
        cases params with
        | none => exact trivial
        | some hash =>
          have read : (getCommitmentByHash P hash).Obeys
              (fun op : Op P => Reads (.inl (.commitmentResult (some hash))) op.query) (fun _ => True) := by
            refine obeys_asked ?_ fun r => ?_
            · rintro _ ⟨⟩
              rfl
            · rcases r with e | found
              · exact trivial
              · cases found <;> exact trivial
          have handler : (commitmentResultHandler P (some hash)).Obeys
              (fun op : Op P => Reads (.inl (.commitmentResult (some hash))) op.query) (fun _ => True) := by
            refine read.bind fun r _ => ?_
            rcases r with e | found
            · exact trivial
            · cases found <;> exact trivial
          exact handler.bind fun _ _ => trivial
      exact job.bind fun _ _ => trivial
    | _ =>
      refine never fun hash asks => ?_
      rcases asks with ⟨asks⟩ | _
      cases asks

/-- What the two handlers have done when they return a commitment, or know of none. -/
structure Answered (g : Gateway P) (j : Job) (tr : Trace P) (o : Outcome) : Prop where
  committed : ∀ params sc, j = .commitmentRequest params → o = .commitment (.ok sc) →
    Inserted tr sc ∧ ∃ request slot, params = some request ∧ Signed g.config request slot sc
  found : ∀ params sc, j = .commitmentResult params → o = .commitment (.ok sc) →
    ∃ hash row, params = some hash ∧ LookedUp tr hash (some row) ∧ signedCommitmentOf row = .ok sc
  missing : ∀ params, j = .commitmentResult params → o = .commitment (.error .invalidRequest) →
    ∃ hash, params = some hash ∧ LookedUp tr hash none

theorem commitmentResultHandler_looks {hash : String} {w : World P} {t : Nat} : (loose P).Safe g.machine
    (fun tr r _ _ => (∀ sc, r = .ok sc → ∃ row, LookedUp tr hash (some row) ∧ signedCommitmentOf row = .ok sc) ∧
      (r = .error .invalidRequest → LookedUp tr hash none)) (commitmentResultHandler P (some hash)) [] w t := by
  refine Gateway.safe_ask fun w₁ u r w₂ _ _ _ _ => ⟨trivial,?_⟩
  rcases r with e | row
  · exact ⟨fun _ h => (by cases h),fun h => (by cases h)⟩
  · cases row with
    | none => exact ⟨fun _ h => (by cases h),fun _ => ⟨_,_,_,_,List.mem_cons_self⟩⟩
    | some row =>
      simp only [Program.bind,Program.pure_eq_ret]
      cases hs : signedCommitmentOf row with
      | error e => exact ⟨fun _ h => (by cases h),fun h => (by cases h)⟩
      | ok found =>
        refine ⟨fun sc h => ?_,fun h => (by cases h)⟩
        cases h
        exact ⟨row,⟨_,_,_,_,List.mem_cons_self⟩,hs⟩

theorem answered_verified (g : Gateway P) : Verified g.system (g.contract (fun _ => True) (fun _ _ _ => True)) World.Evolves
    (fun j tr o _ _ => Answered g j tr o) := by
  refine Gateway.verified ?_ (fun _ _ _ _ _ _ _ => trivial)
  intro j t w _
  cases j with
  | commitmentRequest params =>
    refine Contract.Safe.bind (commitmentRequestHandler_inserts.result (commitmentRequestHandler_signs params))
      fun tr r w t h => ?_
    obtain ⟨inserts,signs⟩ := h
    refine ⟨?_,fun _ _ h => (by cases h),fun _ h => (by cases h)⟩
    rintro _ sc ⟨⟩ ⟨⟩
    exact ⟨(inserts sc rfl).2,signs sc rfl⟩
  | commitmentResult params =>
    cases params with
    | none => exact ⟨fun _ _ h => (by cases h),fun _ _ _ h => (by cases h),fun _ _ h => (by cases h)⟩
    | some hash =>
      refine Contract.Safe.bind commitmentResultHandler_looks fun tr r w t h => ?_
      obtain ⟨found,missing⟩ := h
      refine ⟨fun _ _ h => (by cases h),?_,?_⟩
      · rintro _ sc ⟨⟩ ⟨⟩
        obtain ⟨row,looked,same⟩ := found sc rfl
        exact ⟨hash,row,rfl,looked,same⟩
      · rintro _ ⟨⟩ ⟨⟩
        exact ⟨hash,rfl,missing rfl⟩
  | _ =>
    refine (Safe.of_obeys (g.code_obeys _)).mono fun _ _ _ _ _ => ?_
    exact ⟨fun _ _ h => (by cases h),fun _ _ h => (by cases h),fun _ h => (by cases h)⟩

theorem server_answered (g : Gateway P) : Verified g.server (g.terms (fun _ => True) (fun _ _ _ => True) (fun _ _ _ => True))
    World.Evolves (Beside (fun j tr o _ _ => Answered g j tr o) (fun _ _ _ _ _ => True)) := by
  refine Gateway.verified_server (answered_verified g) ?_ (fun _ _ _ _ _ _ _ => trivial)
  intro k t w _
  exact (Contract.Safe.of_obeys (g.further_obeys k) (fun _ _ _ _ _ => trivial) (fun _ _ _ => trivial)).mono
    (fun _ _ _ _ _ => trivial)

section Replies
variable {w₀ : World P} {s : State (requests P) (World P) Entry Ending} {id : Nat} {params : Option Json}

/-- The outcome behind a reply to a call for a commitment, and what the call has done. -/
theorem replied_answered (hr : Reachable g.server w₀ s) {method : String} {call : Option Json → Job} {r : Reply}
    (named : setupRpcMethods method = some fun params => .inl (call params)) (h : Replied s id method params r) :
    ∃ task o, s.tasks id = some task ∧ task.job = .inl (call params) ∧ Ending.reply (.inl o) = some r ∧
      Answered g (call params) task.trace o := by
  obtain ⟨task,_,ending,ht,known,job,ended,reply⟩ := h
  cases named.symm.trans known
  obtain ⟨w,_,answered⟩ := (((server_answered g).sound (by rintro (j | k) <;> exact trivial) hr).tasks id task ht).finished _ ended
  rw [job] at answered
  cases ending with
  | inl o => exact ⟨task,o,ht,job,reply,answered⟩
  | inr a => exact answered.elim

/-- Only handlers of commitments reply with commitments. -/
theorem outcome_reply {o : Outcome} {r : Reply} (h : Ending.reply (.inl o) = some r) :
    ∃ result, o = .commitment result ∧ reply SignedCommitment.toJson result = some r := by
  cases o with
  | commitment result => exact ⟨result,rfl,h⟩
  | _ => cases h

/-- A call that was replied to with a commitment has signed and stored it. -/
theorem committed_reply (hr : Reachable g.server w₀ s) {v : Json} (h : Replied s id "commitmentRequest" params (.result v)) :
    ∃ (request : CommitmentRequest) (slot : UInt64) (sc : SignedCommitment) (row t u : Nat) (w w' : World P),
      one CommitmentRequest.ofJson params = some request ∧ v = sc.toJson ∧ Signed g.config request slot sc ∧
      s.Saw id (.inl (.commitmentRequest (some request)))
        ⟨.plain (.sql (.insertCommitment (newCommitmentOf P sc 1))), .ok (some row), t, u, w, w'⟩ := by
  obtain ⟨task,o,ht,job,replied,answered⟩ := replied_answered hr rfl h
  obtain ⟨result,rfl,replied⟩ := outcome_reply replied
  obtain ⟨sc,rfl,rfl⟩ := reply_result replied
  obtain ⟨⟨row,t,u,w,w',listed⟩,request,slot,asked,signed⟩ := answered.committed _ sc rfl rfl
  rw [asked] at job
  exact ⟨request,slot,sc,row,t,u,w,w',asked,rfl,signed,task,ht,job,listed⟩

/-- A call that was replied to with a commitment has read it under the hash that it was given. -/
theorem found_reply (hr : Reachable g.server w₀ s) {v : Json} (h : Replied s id "commitmentResult" params (.result v)) :
    ∃ (hash : String) (sc : SignedCommitment) (row : CommitmentRow) (t u : Nat) (w w' : World P),
      one Json.string? params = some hash ∧ v = sc.toJson ∧ signedCommitmentOf row = .ok sc ∧
      s.Saw id (.inl (.commitmentResult (some hash)))
        ⟨.plain (.sql (.selectCommitment hash)), .ok (some row), t, u, w, w'⟩ := by
  obtain ⟨task,o,ht,job,replied,answered⟩ := replied_answered hr rfl h
  obtain ⟨result,rfl,replied⟩ := outcome_reply replied
  obtain ⟨sc,rfl,rfl⟩ := reply_result replied
  obtain ⟨hash,row,asked,⟨t,u,w,w',listed⟩,same⟩ := answered.found _ sc rfl rfl
  rw [asked] at job
  exact ⟨hash,sc,row,t,u,w,w',asked,rfl,same,task,ht,job,listed⟩

/-- A call that was told that there is no commitment has found none under the hash. -/
theorem missing_reply (hr : Reachable g.server w₀ s) (h : Replied s id "commitmentResult" params (.error (-32600))) :
    ∃ (hash : String) (t u : Nat) (w w' : World P), one Json.string? params = some hash ∧
      s.Saw id (.inl (.commitmentResult (some hash))) ⟨.plain (.sql (.selectCommitment hash)), .ok none, t, u, w, w'⟩ := by
  obtain ⟨task,o,ht,job,replied,answered⟩ := replied_answered hr rfl h
  obtain ⟨result,rfl,replied⟩ := outcome_reply replied
  obtain ⟨e,rfl,code⟩ := reply_error replied
  have invalid : e = .invalidRequest := by
    cases e <;> first | rfl | cases code
  subst invalid
  obtain ⟨hash,asked,t,u,w,w',listed⟩ := answered.missing _ rfl rfl
  rw [asked] at job
  exact ⟨hash,t,u,w,w',asked,task,ht,job,listed⟩

end Replies

/-- With its clients the server replies as it does without them. -/
theorem Replied.simulated {d : Deployment P} {s : State (Deployment.Both P) (Deployment.Whole P) Entry Ending}
    {s' : State (requests P) (World P) Entry Ending} (simulates : d.Simulated s s') {id : Nat} {method : String}
    {params : Option Json} {r : Reply} (h : Replied s id method params r) : Replied s' id method params r := by
  obtain ⟨task,call,ending,ht,known,job,ended,reply⟩ := h
  obtain ⟨task',ht',same,_,results⟩ := simulates.result ht
  exact ⟨task',call,ending,ht',known,same.trans job,(results _).mp ended,reply⟩

end PreconfGateway
