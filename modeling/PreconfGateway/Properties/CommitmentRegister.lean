import PreconfGateway.Interleaving.Linearization
import PreconfGateway.Properties.VerifiableReplies

/-! The interface is a register of commitments to its clients: whatever runs at the same time, the calls that are
replied to take effect at one moment each, between their start and their reply. -/
namespace PreconfGateway.Properties.CommitmentRegister
open Encoding Types Db Crypto Interleaving Api Rpc Services Fixture Durability VerifiableReplies
variable {P : Platform} {d : Deployment P} {w₀ : World P} {s s' : State (Deployment.Both P) (Deployment.Whole P) Entry Ending}

/-- What a call does to the register, or reads of it. -/
inductive Move
  | store (sc : SignedCommitment)
  | look (hash : String) (found : Option SignedCommitment)

/-- Under each hash the commitment that was stored first, for ever. -/
def register : Object where
  State := String → Option SignedCommitment
  Move := Move
  move held
    | .store sc =>
      if held sc.commitment.requestHash = none then some (Function.update held sc.commitment.requestHash (some sc)) else none
    | .look hash found => if held hash = found then some held else none

/-- The commitments of the table, as they read back. -/
def held (w : World P) (hash : String) : Option SignedCommitment :=
  (w.commitments.withHash hash).bind fun row => (signedCommitmentOf row).toOption

/-- A row that is new is stored, and a lookup looks. -/
def moveAt (pre post : World P) : Query P → Option Move
  | .sql (.insertCommitment new) => if held pre new.requestHash = none then (held post new.requestHash).map .store else none
  | .sql (.selectCommitment hash) => some (.look hash (held pre hash))
  | _ => none

def view (P : Platform) : View (Deployment.Both P) (Deployment.Whole P) register where
  state w := held w.1
  move e := Sum.elim (fun op : Op P => moveAt e.pre.1 e.post.1 op.query) (fun _ => none) e.op

/-- The requests that moves are made by. -/
def marked (op : Op P) : Bool :=
  match op.query with
  | .sql (.insertCommitment _) | .sql (.selectCommitment _) => true
  | _ => false

/-- A mark does not change what a row says. -/
theorem held_marked (w : World P) (hashes : List String) :
    held { w with commitments := w.commitments.markProcessed hashes } = held w := by
  funext hash
  have found : (w.commitments.markProcessed hashes).withHash hash =
      (w.commitments.withHash hash).map (CommitmentRow.processed hashes) := by
    unfold Commitments.withHash Commitments.markProcessed
    rw [List.find?_map]
    congr 1
    refine congrArg (fun p => w.commitments.rows.find? p) (funext fun r => ?_)
    simp
  unfold held
  rw [found]
  cases w.commitments.withHash hash with
  | none => rfl
  | some row =>
    have reads : signedCommitmentOf (row.processed hashes) = signedCommitmentOf row := by
      unfold CommitmentRow.processed
      split <;> rfl
    simp [reads]

theorem held_inserted {w : World P} {new : NewCommitment} {id createdAt : Nat} {commitments : Commitments}
    (added : w.commitments.insert (new.row id createdAt) = some (some id, commitments)) :
    held w new.requestHash = none ∧ ∃ sc, sc.commitment.requestHash = new.requestHash ∧
      held { w with commitments := commitments } = Function.update (held w) new.requestHash (some sc) := by
  obtain ⟨⟨⟩,_⟩ | ⟨_,rows,fresh⟩ := insert_kind added
  have absent : w.commitments.withHash new.requestHash = none := by
    refine List.find?_eq_none.mpr fun r hr same => fresh ?_
    exact List.mem_map.mpr ⟨r,hr,of_decide_eq_true same⟩
  have listed : new.row id createdAt ∈ commitments.rows := by
    rw [rows]
    exact List.mem_append_right _ List.mem_cons_self
  obtain ⟨type,read,_⟩ := Db.signedCommitmentOf_checked (commitments.checked _ listed)
  refine ⟨by rw [held,absent]; rfl,⟨⟨type, new.payload, new.requestHash, new.slasher⟩, new.signature⟩,rfl,funext fun hash => ?_⟩
  by_cases same : hash = new.requestHash
  · subst same
    have found : commitments.withHash new.requestHash = some (new.row id createdAt) := Commitments.withHash_mem listed
    rw [Function.update_self,held]
    dsimp only
    rw [found]
    exact congrArg Except.toOption read
  · rw [Function.update_of_ne same,held,held]
    have other : commitments.withHash hash = w.commitments.withHash hash := by
      unfold Commitments.withHash
      rw [rows,List.find?_append]
      have not : (new.row id createdAt).requestHash ≠ hash := fun h => same h.symm
      simp [not]
    rw [other]

/-- What was stored is what the row reads back as. -/
theorem stored_reads {w w' : World P} {new : NewCommitment} {sc : SignedCommitment}
    (changes : Changes w (.sql (.insertCommitment new)) w') (absent : held w new.requestHash = none)
    (after : held w' new.requestHash = some sc) : ∃ id createdAt, signedCommitmentOf (new.row id createdAt) = .ok sc := by
  cases changes with
  | same =>
    rw [absent] at after
    cases after
  | inserted new id createdAt commitments added =>
    obtain ⟨⟨⟩,_⟩ | ⟨_,rows,_⟩ := insert_kind added
    have listed : new.row id createdAt ∈ commitments.rows := by
      rw [rows]
      exact List.mem_append_right _ List.mem_cons_self
    have found : commitments.withHash new.requestHash = some (new.row id createdAt) := Commitments.withHash_mem listed
    rw [held] at after
    dsimp only at after
    rw [found] at after
    refine ⟨id,createdAt,?_⟩
    change (signedCommitmentOf (new.row id createdAt)).toOption = some sc at after
    cases read : signedCommitmentOf (new.row id createdAt) with
    | error e =>
      rw [read] at after
      cases after
    | ok found =>
      rw [read] at after
      cases after
      rfl
  | switchedOff _ _ how => rcases how with ⟨_,⟨⟩,_⟩ | ⟨_,⟨⟩,_⟩

theorem held_holds {w : World P} {sc : SignedCommitment} (h : Holds w sc) : held w sc.commitment.requestHash = some sc := by
  obtain ⟨row,found,read⟩ := h
  rw [held,found]
  exact congrArg Except.toOption read

theorem held_absent {w : World P} {hash : String} (h : ∀ r ∈ w.commitments.rows, r.requestHash ≠ hash) : held w hash = none := by
  have absent : w.commitments.withHash hash = none :=
    List.find?_eq_none.mpr fun r hr same => h r hr (of_decide_eq_true same)
  rw [held,absent]
  rfl

/-- A change of the world is the move of its request, or no matter of the register. -/
theorem changes_move {w w' : World P} {q : Query P} (changes : Changes w q w') :
    (∃ m, moveAt w w' q = some m ∧ register.move (held w) m = some (held w')) ∨ (moveAt w w' q = none ∧ held w' = held w) := by
  cases changes with
  | same q =>
    by_cases look : ∃ hash, q = .sql (.selectCommitment hash)
    · obtain ⟨hash,rfl⟩ := look
      exact .inl ⟨_,rfl,if_pos rfl⟩
    · refine .inr ⟨?_,rfl⟩
      unfold moveAt
      split
      · split
        · rename_i absent
          rw [absent]
          rfl
        · rfl
      · exact absurd ⟨_,rfl⟩ look
      · rfl
  | inserted new id createdAt commitments added =>
    obtain ⟨absent,sc,same,after⟩ := held_inserted added
    refine .inl ⟨.store sc,?_,?_⟩
    · rw [moveAt,if_pos absent,after,Function.update_self]
      rfl
    · rw [after,← same]
      rw [← same] at absent
      exact if_pos absent
  | marked hashes => exact .inr ⟨rfl,held_marked w hashes⟩
  | switchedOff q p how =>
    rcases how with ⟨_,rfl,_⟩ | ⟨_,rfl,_⟩ <;> exact .inr ⟨rfl,rfl⟩
  | _ => exact .inr ⟨rfl,rfl⟩

theorem event_follows {v₀ : Deployment.Whole P} (hr : Reachable d.system v₀ s) {id : Nat} {entry : Entry}
    {e : Event (Deployment.Both P) (Deployment.Whole P)} (saw : s.Saw id entry e) : (view P).Follows e := by
  have changed := Deployment.asked hr saw
  obtain ⟨op,reply,start,stop,pre,post⟩ := e
  cases op with
  | inr request =>
    rcases changed with still | ⟨_,⟨⟩,_⟩
    exact .of_none rfl (congrArg held still)
  | inl op =>
    have changes : Changes pre.1 op.query post.1 := by
      rcases changed with still | ⟨_,⟨⟩,_,changes⟩
      · change post.1 = pre.1 at still
        rw [still]
        exact .same _
      · exact changes
    rcases changes_move changes with ⟨m,made,moved⟩ | ⟨none,still⟩
    · exact .of_some made moved
    · exact .of_none none still

theorem moveAt_marked {w w' : World P} {op : Op P} {m : Move} (made : moveAt w w' op.query = some m) : marked op = true := by
  unfold moveAt at made
  unfold marked
  split at made
  · rfl
  · rfl
  · cases made

theorem commitmentRequestHandler_atMost (config : Config P) (params : Option CommitmentRequest) :
    (commitmentRequestHandler config params).AtMost marked 1 := by
  cases params with
  | none => exact trivial
  | some request =>
    rw [commitmentRequestHandler_split]
    have authorised : (authoriseRequest config request).Obeys (fun op : Op P => marked op = false) _ :=
      authoriseRequest_obeys (fun _ => rfl) (fun _ => rfl) fun _ _ => rfl
    refine Program.AtMost.bind (n := 1) authorised.atMost fun r => ?_
    rcases r with e | ⟨slot,sc⟩
    · exact trivial
    · have account : (accountGas config request slot sc).Obeys (fun op : Op P => marked op = false) _ :=
        accountGas_obeys rfl (fun _ _ => rfl) (fun _ => rfl) fun _ _ => rfl
      have saved : (saveCommitment P sc).AtMost marked 1 := by
        unfold saveCommitment
        split
        · exact trivial
        · exact ⟨Nat.le_refl 1,fun _ => trivial⟩
      refine Program.AtMost.bind (n := 0) saved fun r => ?_
      rcases r with e | found
      · exact trivial
      · cases found with
        | none => exact trivial
        | some id => exact account.atMost

theorem commitmentResultHandler_atMost (params : Option String) : (commitmentResultHandler P params).AtMost marked 1 := by
  cases params with
  | none => exact trivial
  | some hash =>
    have read : (getCommitmentByHash P hash).AtMost marked 1 := by
      refine ⟨Nat.le_refl 1,fun r => ?_⟩
      rcases r with e | found
      · exact trivial
      · cases found <;> exact trivial
    refine Program.AtMost.bind (n := 0) read fun r => ?_
    rcases r with e | found
    · exact trivial
    · cases found <;> exact trivial

/-- No call makes more than one such request. -/
theorem server_atMost (g : Gateway P) (entry : Entry) : (g.server.code entry).AtMost marked 1 := by
  have never (h : ∀ q, g.Requests entry q → marked (.plain q) = false) : (g.server.code entry).AtMost marked 1 :=
    ((g.server_obeys entry).mono (fun op asks => h op.query asks) fun _ h => h).atMost.mono (Nat.zero_le 1)
  cases entry with
  | inr k =>
    refine never fun q asks => ?_
    rcases asks with _ | ⟨asks⟩
    cases asks <;> rfl
  | inl j =>
    have job (h : (g.code j).AtMost marked 1) : (g.server.code (.inl j)).AtMost marked 1 :=
      Program.AtMost.bind (n := 0) h fun _ => trivial
    cases j with
    | commitmentRequest params =>
      exact job (Program.AtMost.bind (n := 0) (commitmentRequestHandler_atMost g.config params) fun _ => trivial)
    | commitmentResult params =>
      exact job (Program.AtMost.bind (n := 0) (commitmentResultHandler_atMost params) fun _ => trivial)
    | _ =>
      refine never fun q asks => ?_
      rcases asks with ⟨asks⟩ | _
      cases asks <;> rfl

/-- The clients of the chains make none. -/
def markedWhole : (Deployment.Both P).Op → Bool := Sum.elim marked fun _ => false

theorem system_atMost (d : Deployment P) (entry : Entry) : (d.system.code entry).AtMost markedWhole 1 := by
  have outside {α : Type} (p : Nodes.Client α) : p.right.Obeys (S := Deployment.Both P) (fun op => markedWhole op = false)
      (fun _ => True) := (Program.obeys_true p).expand fun op _ => ⟨rfl,fun _ => trivial⟩
  refine (server_atMost d.toGateway entry).expand fun op => ?_
  have direct : (Program.request (S := Deployment.Both P) (.inl op)).AtMost markedWhole (marked op).toNat :=
    ⟨Nat.le_refl _,fun _ => trivial⟩
  cases op with
  | within deadline q => exact direct
  | plain q =>
    cases q with
    | proposerForSlot | validatorStatus | gasPrice => exact (outside _).atMost.bind (n := 0) fun _ => trivial
    | _ => exact direct

/-- The calls whose moves these are, in an order in which a register of commitments, beginning with those of the first
table, gives the replies that were given: a commitment that was replied to was stored by its call, and a lookup that was
replied to has found what was replied, or nothing. -/
structure Linearized (d : Deployment P) (w₀ : World P) (s : State (Deployment.Both P) (Deployment.Whole P) Entry Ending)
    (points : List (Nat × Move)) : Prop where
  run : register.run (held w₀) (points.map Prod.snd) = some (held s.world.1)
  once : (points.map Prod.fst).Nodup
  stores : ∀ id sc, (id, Move.store sc) ∈ points → ∃ task request slot, s.tasks id = some task ∧
    task.job = .inl (.commitmentRequest (some request)) ∧ Signed d.config request slot sc
  looks : ∀ id hash found, (id, Move.look hash found) ∈ points → ∃ task, s.tasks id = some task ∧
    task.job = .inl (.commitmentResult (some hash))
  committed : ∀ id params v, Replied s id "commitmentRequest" params (.result v) →
    ∃ sc, v = sc.toJson ∧ (id, Move.store sc) ∈ points
  found : ∀ id params v, Replied s id "commitmentResult" params (.result v) →
    ∃ hash sc, one Json.string? params = some hash ∧ v = sc.toJson ∧ (id, Move.look hash (some sc)) ∈ points
  missing : ∀ id params, Replied s id "commitmentResult" params (.error (-32600)) →
    ∃ hash, one Json.string? params = some hash ∧ (id, Move.look hash none) ∈ points

section Points
variable {id : Nat} {entry : Entry} {e : Event (Deployment.Both P) (Deployment.Whole P)}

theorem store_signed {v₀ : Deployment.Whole P} {sc : SignedCommitment} (hr : Reachable d.system v₀ s) (saw : s.Saw id entry e)
    (made : (view P).move e = some (.store sc)) :
    ∃ request slot, entry = .inl (.commitmentRequest (some request)) ∧ Signed d.config request slot sc := by
  obtain ⟨signs,answers⟩ := hr.obeys (Deployment.system_obeys server_signs) saw
  obtain ⟨op,reply,start,stop,pre,post⟩ := e
  cases op with
  | inr request => cases made
  | inl op =>
    have changes := Changes.of_answers (Machine.sum_left.mp answers).1
    change moveAt pre.1 post.1 op.query = some (.store sc) at made
    unfold moveAt at made
    split at made
    · rename_i new insert
      obtain ⟨absent,stored⟩ := Option.ite_none_right_eq_some.mp made
      obtain ⟨_,after,⟨⟩⟩ := Option.map_eq_some_iff.mp stored
      obtain ⟨request,slot,own,rfl,signed,rfl⟩ := signs new insert
      rw [insert] at changes
      obtain ⟨rowId,createdAt,read⟩ := stored_reads changes absent after
      have one : own.commitment.commitmentType = 1 := by
        rw [signed.commitment]
      cases (signedCommitmentOf_new one ⟨rfl,fun h => h⟩).symm.trans read
      exact ⟨request,slot,rfl,signed⟩
    · cases made
    · cases made

theorem look_own {v₀ : Deployment.Whole P} {hash : String} {found : Option SignedCommitment} (hr : Reachable d.system v₀ s)
    (saw : s.Saw id entry e) (made : (view P).move e = some (.look hash found)) :
    entry = .inl (.commitmentResult (some hash)) := by
  have reads := (hr.obeys (Deployment.system_obeys server_reads) saw).1
  obtain ⟨op,reply,start,stop,pre,post⟩ := e
  cases op with
  | inr request => cases made
  | inl op =>
    change moveAt pre.1 post.1 op.query = some (.look hash found) at made
    unfold moveAt at made
    split at made
    · obtain ⟨_,stored⟩ := Option.ite_none_right_eq_some.mp made
      obtain ⟨_,_,⟨⟩⟩ := Option.map_eq_some_iff.mp stored
    · rename_i asked look
      cases made
      exact reads _ look
    · cases made

end Points

theorem ordered_linearized (hr : Reachable d.system (w₀, .empty) s) {points : List (Nat × Move)}
    (h : s.Ordered (view P) (w₀, .empty) points) : Linearized d w₀ s points where
  run := h.run
  once := h.once
  stores id sc listed := by
    obtain ⟨_,e,saw,made⟩ := (h.own id _).mp listed
    obtain ⟨request,slot,rfl,signed⟩ := store_signed hr saw made
    obtain ⟨task,ht,job,_⟩ := saw
    exact ⟨task,request,slot,ht,job,signed⟩
  looks id hash found listed := by
    obtain ⟨_,e,saw,made⟩ := (h.own id _).mp listed
    obtain rfl := look_own hr saw made
    obtain ⟨task,ht,job,_⟩ := saw
    exact ⟨task,ht,job⟩
  committed id params v replied := by
    obtain ⟨s',reached,simulates⟩ := Deployment.simulated hr
    obtain ⟨_,_,sc,_,_,_,_,_,_,rfl,signed,saw⟩ := committed_reply reached (replied.simulated simulates)
    obtain ⟨o,seen,op,_,answers⟩ := Deployment.direct_event simulates saw (Deployment.carry_sql rfl)
    have one : sc.commitment.commitmentType = 1 := by
      rw [signed.commitment]
    obtain ⟨holds,fresh⟩ := holds_of_inserted one answers
    refine ⟨sc,rfl,(h.own id _).mpr ⟨_,o,seen,?_⟩⟩
    change Sum.elim _ _ o.op = _
    rw [op]
    exact (if_pos (held_absent fresh)).trans (congrArg (Option.map Move.store) (held_holds holds))
  found id params v replied := by
    obtain ⟨s',reached,simulates⟩ := Deployment.simulated hr
    obtain ⟨hash,sc,row,_,_,_,_,asked,rfl,read,saw⟩ := found_reply reached (replied.simulated simulates)
    obtain ⟨o,seen,op,_,answers⟩ := Deployment.direct_event simulates saw (Deployment.carry_sql rfl)
    have there : held o.pre.1 hash = some sc := by
      rw [held,← (Answers.selectCommitment answers).1]
      exact congrArg Except.toOption read
    refine ⟨hash,sc,asked,rfl,(h.own id _).mpr ⟨_,o,seen,?_⟩⟩
    change Sum.elim _ _ o.op = _
    rw [op,← there]
    rfl
  missing id params replied := by
    obtain ⟨s',reached,simulates⟩ := Deployment.simulated hr
    obtain ⟨hash,_,_,_,_,asked,saw⟩ := missing_reply reached (replied.simulated simulates)
    obtain ⟨o,seen,op,_,answers⟩ := Deployment.direct_event simulates saw (Deployment.carry_sql rfl)
    have there : held o.pre.1 hash = none := by
      rw [held,← (Answers.selectCommitment answers).1]
      rfl
    refine ⟨hash,asked,(h.own id _).mpr ⟨_,o,seen,?_⟩⟩
    change Sum.elim _ _ o.op = _
    rw [op,← there]
    rfl

/-- The interface is linearizable: the calls up to now have an order, and what comes later only goes on from it. -/
theorem interface_linearizable (d : Deployment P) (hr : Reachable d.system (w₀, .empty) s)
    (steps : Relation.ReflTransGen (Step d.system) s s') :
    ∃ past more, Linearized d w₀ s past ∧ Linearized d w₀ s' (past ++ more) := by
  have marks (e : Event (Deployment.Both P) (Deployment.Whole P)) (m : Move) (made : (view P).move e = some m) :
      markedWhole e.op = true := by
    obtain ⟨op,reply,start,stop,pre,post⟩ := e
    cases op with
    | inl op => exact moveAt_marked made
    | inr request => cases made
  obtain ⟨past,more,ordered,ordered'⟩ := hr.ordered steps (fun hu _ _ _ => event_follows hu) marks (system_atMost d)
  exact ⟨past,more,ordered_linearized hr ordered,ordered_linearized (hr.steps steps) ordered'⟩

/-- The served commitment is stored by its call and then found, and found again when the run goes on. -/
theorem interface_linearizable_answered : ∃ (s s' : DeployedState) (past more : List (Nat × Move)),
    Relation.ReflTransGen (Step deployed.system) s s' ∧ (1, Move.store signed) ∈ past ∧
      (2, Move.look signed.commitment.requestHash (some signed)) ∈ past ∧
      (3, Move.look signed.commitment.requestHash (some signed)) ∈ more ∧
      Linearized deployed (.empty _) s past ∧ Linearized deployed (.empty _) s' (past ++ more) := by
  have plays : (deployed.system.script [deployedPoll, deployedCall, deployedResult 62000] (.empty _, .empty) 0).any (fun out =>
      out.1.map (fun o => Ending.commitment? o.2) = [none, some signed, some signed] && findsSigned out.2.1 out.2.2) = true := by
    decide +kernel
  obtain ⟨s,hr,idle,onward,rest,done⟩ := @reach_of_replies (Reachable deployed.system (.empty _, .empty))
    (fun h step => h.step step) _ (.initial 0) (fun _ _ h => by cases h) 0 (fun _ _ => rfl) _ _ findsSigned plays
  obtain ⟨s',steps,_,_,_,again⟩ := @reach_of_replies (Relation.ReflTransGen (Step deployed.system) s)
    (fun h step => h.tail step) _ .refl idle 3 rest _ _ (fun _ _ => true) onward
  obtain ⟨past,more,here,later⟩ := interface_linearizable deployed hr steps
  obtain ⟨_,same,stored⟩ := here.committed 1 _ _ (replied_request (done 1 _ _ rfl rfl))
  obtain ⟨_,_,⟨⟩,same',looked⟩ := here.found 2 _ _ (replied_result (done 2 _ _ rfl rfl))
  obtain ⟨_,_,⟨⟩,same'',anew⟩ := later.found 3 _ _ (replied_result (again 0 _ _ rfl rfl))
  rw [← SignedCommitment.toJson_inj same] at stored
  rw [← SignedCommitment.toJson_inj same'] at looked
  rw [← SignedCommitment.toJson_inj same''] at anew
  refine ⟨s,s',past,more,steps,stored,looked,(List.mem_append.mp anew).resolve_left fun old => ?_,here,later⟩
  obtain ⟨task,ht,_⟩ := here.looks 3 _ _ old
  cases (rest 3 (Nat.le_refl 3)).symm.trans ht

end PreconfGateway.Properties.CommitmentRegister
