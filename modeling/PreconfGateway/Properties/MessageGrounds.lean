import PreconfGateway.Db.CongestionStore
import PreconfGateway.Properties.CommitmentGrounds

/-! What a message rests on that the relay has accepted from a tick: on stored commitments, on the
delegations that they were signed under, and on what the nodes had said of the proposers. -/
namespace PreconfGateway.Properties.MessageGrounds
open Encoding Types Db Crypto Interleaving Api Rpc Services Fixture CommitmentGrounds
variable {P : Platform} {d : Deployment P} {w₀ : World P} {s : State (Deployment.Both P) (Deployment.Whole P) Entry Ending}
  {s' : State (requests P) (World P) Entry Ending}

/-- What the ticks owe, they owe in the server as well. -/
theorem server_submitting (g : Gateway P) :
    Verified g.server (g.terms (fun _ => True) g.submits (fun _ _ _ => True)) World.Evolves
      (Beside (fun _ _ _ _ _ => True) (fun _ _ _ _ _ => True)) := by
  refine Gateway.verified_server g.submitting ?_ (fun _ _ _ _ _ _ _ => trivial)
  intro k t w _
  exact (Contract.Safe.of_obeys (g.further_obeys k) (fun _ _ _ _ _ => trivial) (fun _ _ _ => trivial)).mono
    (fun _ _ _ _ _ => trivial)

/-- The relay has accepted the message in this event. -/
structure Taken (e : Event (Deployment.Both P) (Deployment.Whole P)) (m : SignedConstraints) : Prop where
  before : m ∉ e.pre.1.accepted
  after : m ∈ e.post.1.accepted

/-- The message is from the own key, its proposer had been reported fit, and each of its constraints is that of
a stored commitment for the same slot, which had been supported. -/
structure Backed (d : Deployment P) (n : Nodes.Peers) (rows : List CommitmentRow) (m : SignedConstraints) (t : Nat) : Prop where
  issued : Issued d.toGateway m
  proposer : ∃ u ≤ t, d.Known n m.message.proposer.bytes true u
  constraints : ∀ c ∈ m.message.constraints, ∃ row ∈ rows, c = constraintOf row ∧
    ∃ del, ∃ u ≤ t, Supported d n row.payload m.message.slot del u

theorem carry_post {op : Op P} {m : SignedConstraints} (h : op.query = .postConstraints m) :
    d.carry op = Program.request (S := Deployment.Both P) (.inl op) := by
  cases op with
  | within deadline q => rfl
  | plain q =>
    cases h
    rfl

/-- An accepted message was posted by a tick, or submitted at once. -/
theorem taken_event (hr : Reachable d.server w₀ s') {m : SignedConstraints} (absent : m ∉ w₀.accepted)
    (hm : m ∈ s'.world.accepted) : ∃ id entry e, s'.Saw id entry e ∧ e.op.query = .postConstraints m ∧
      m ∉ e.pre.accepted ∧ m ∈ e.post.accepted := by
  obtain ⟨id,entry,e,saw,before,after⟩ := hr.provenance (fun w => m ∈ w.accepted) absent hm
  have changes := Changes.of_answers (server_event hr saw).2.1
  refine ⟨id,entry,e,saw,?_,before,after⟩
  generalize e.op.query = q at changes
  generalize e.post = w' at changes after
  cases changes with
  | taken c =>
    rcases List.mem_append.mp after with old | new
    · exact absurd old before
    · rw [List.mem_singleton.mp new]
  | _ => exact absurd after before

/-- A row that a task has read is still there, but for its mark. -/
theorem read_kept (hr : Reachable d.server w₀ s') {id : Nat} {entry : Entry} {e : Event (requests P) (World P)}
    (saw : s'.Saw id entry e) {row : CommitmentRow} (hrow : row ∈ e.pre.commitments.rows) :
    ∃ r ∈ s'.world.commitments.rows, row.Later r := by
  obtain ⟨_,answers,evolved⟩ := server_event hr saw
  exact ((Changes.of_answers answers).evolves.trans evolved).commitments row hrow

/-- Each row of a batch was read by its task, pending for the slot of the message. -/
theorem batch_read (reached : Reachable d.server w₀ s') {id : Nat} {entry : Entry} {older : Trace P} {t : Nat}
    (seen : s'.Seen id entry older t) {m : SignedConstraints} {committer : String} {batch : List CommitmentRow}
    (flying : InFlight d.toGateway older m committer batch) {row : CommitmentRow} (hrow : row ∈ batch) :
    ∃ e, s'.Saw id entry e ∧ e.stop ≤ t ∧ row ∈ e.pre.commitments.rows ∧ row.slotNumber = some m.message.slot.toInt64 := by
  obtain ⟨_,rows,_,_,_,_,listed,rfl⟩ := flying.batched
  obtain ⟨saw,early⟩ := seen _ listed
  obtain ⟨perm,_,_⟩ := Answers.selectUnprocessed (server_event reached saw).2.1
  obtain ⟨there,pending⟩ := List.mem_filter.mp (perm.mem_iff.mp (List.mem_of_mem_filter hrow))
  simp only [Bool.and_eq_true,decide_eq_true_eq] at pending
  exact ⟨_,saw,early,there,pending.1⟩

/-- A message that is made is backed by the rows of the moment, in whatever state of the run. -/
theorem flying_backed (empty : w₀.delegations = .empty) (none : w₀.commitments.rows = [])
    (hr : Reachable d.system (w₀, .empty) s) (reached : Reachable d.server w₀ s') (h : d.Simulated s s')
    {now : State (requests P) (World P) Entry Ending} (reached_now : Reachable d.server w₀ now)
    (kept_now : ∀ i j e, now.Saw i j e → s'.Saw i j e)
    {id : Nat} {entry : Entry} {older : Trace P} {t : Nat} (seen : now.Seen id entry older t) {m : SignedConstraints}
    {committer : String} {batch : List CommitmentRow} (flying : InFlight d.toGateway older m committer batch) :
    Backed d s.world.2 now.world.commitments.rows m t where
  issued := flying.issued
  proposer := by
    obtain ⟨rows,a,b,pre,post,row,listed,hrow,proposer,_⟩ := flying.delegated
    obtain ⟨saw,_⟩ := seen _ listed
    obtain ⟨perm,_⟩ := Answers.selectDelegations (server_event reached_now saw).2.1
    have seen' : s'.Seen id entry older t := fun e he => ⟨kept_now _ _ _ (seen e he).1,(seen e he).2⟩
    obtain ⟨u,early,known⟩ := read_known empty hr reached h seen' listed (List.mem_of_mem_filter (perm.mem_iff.mp hrow))
    rw [proposer] at known
    exact ⟨u,early,known⟩
  constraints := by
    rw [flying.constraints]
    intro c hc
    obtain ⟨row,hrow,rfl⟩ := List.mem_map.mp hc
    obtain ⟨e,saw,early,there,pending⟩ := batch_read reached_now seen flying hrow
    obtain ⟨r,hr',later⟩ := read_kept reached_now saw there
    obtain ⟨v,hv,world,clock,kept⟩ := reached.at_event (kept_now _ _ _ saw)
    rw [← world] at there
    obtain ⟨_,_,o,_,_,_,slot,del,sawᵥ,_,_,_,column,supported⟩ :=
      row_supported empty hr reached h hv kept there (by rw [none]; exact fun _ h => by cases h)
    have slot_eq : slot = m.message.slot := by
      rw [column] at pending
      exact toInt64_injective (Option.some.inj pending)
    have began := (Grounds.reached_grounded hv sawᵥ).2.1
    have ended := hv.stop_le sawᵥ
    have payload : row.payload = r.payload := by
      rw [later.1]
    rw [slot_eq,payload] at supported
    refine ⟨r,hr',?_,del,o.start,by omega,supported⟩
    rw [constraintOf,payload]
    rfl

/-- The message of a direct submission: from the own key, for its slot, and with its payload as the one constraint. -/
structure Direct (d : Deployment P) (slot : UInt64) (payload : Bytes) (m : SignedConstraints) : Prop where
  issued : Issued d.toGateway m
  slot_eq : m.message.slot = slot
  constraints : m.message.constraints = [Constraint.fromInclusionCommitment payload]

/-- Every message that the relay has accepted was posted by a tick that had made it of commitments that were stored when
it posted, each of them supported and for the slot of the message, and for a proposer that had been reported fit; or
someone submitted its payload at once. -/
theorem accepted_backed (d : Deployment P) (hr : Reachable d.system (.empty P, .empty) s) {m : SignedConstraints}
    (hm : m ∈ s.world.1.accepted) : ∃ id entry o, s.Saw id entry o ∧ Taken o m ∧
      ((entry = .inl .processPendingConstraints ∧ Backed d s.world.2 o.pre.1.commitments.rows m o.start) ∨
        ∃ slot payload committer, entry = .inl (.submitConstraintNow slot payload committer) ∧ Direct d slot payload m) := by
  obtain ⟨s',reached,simulates⟩ := Deployment.simulated hr
  rw [← simulates.world] at hm
  obtain ⟨id,entry,e,saw,post,before,after⟩ := taken_event reached List.not_mem_nil hm
  have moved : e.pre ≠ e.post := by
    intro still
    rw [still] at before
    exact before after
  obtain ⟨o,seen_o,start,pre,post'⟩ := Deployment.direct_moved simulates saw (carry_post post) moved
  refine ⟨id,entry,o,seen_o,⟨by rw [pre]; exact before,by rw [post']; exact after⟩,?_⟩
  rw [start,pre]
  -- right after the post the rows are those from which the message was made
  obtain ⟨now,reached_now,world,_,saw_now,kept_now⟩ := reached.after_event saw
  obtain ⟨asks,answers,_⟩ := server_event reached_now saw_now
  have rows : now.world.commitments = e.pre.commitments := by
    have changes := Changes.of_answers answers
    rw [post] at changes
    rw [world]
    generalize e.post = w' at changes
    cases changes <;> rfl
  obtain ⟨older,_,guaranteed,_,seen⟩ :=
    (server_submitting d.toGateway).kept (by rintro (j | k) <;> exact trivial) reached_now saw_now
  rw [post] at asks
  rcases asks with ⟨asks⟩ | ⟨asks⟩
  · cases asks with
    | tickPost m issued =>
      obtain ⟨committer,batch,flying⟩ := guaranteed.2.post m post
      rw [← rows]
      exact .inl ⟨rfl,flying_backed rfl rfl hr reached simulates reached_now kept_now seen flying⟩
    | submitPost slot payload committer m issued slot_eq constraints =>
      exact .inr ⟨slot,payload,committer,rfl,issued,slot_eq,constraints⟩
  · cases asks

/-- A tick that sends the served commitment. -/
def deployedTick : DeployedScene where
  job := .inl .processPendingConstraints
  time := 62000
  choices := ((tick 62000).choices).map (fun c => (.inl c.1, c.2))

theorem deployed_ticked : ∃ s : DeployedState, Reachable deployed.system (.empty _, .empty) s ∧
    ∃ m, m ∈ s.world.1.accepted := by
  have plays : (deployed.system.script [deployedPoll, deployedCall, deployedTick] (.empty _, .empty) 0).any (fun out =>
      out.2.1.1.accepted.length = 1) = true := by
    decide +kernel
  obtain ⟨s,hr,hp⟩ := @reach_of_deployed _ (fun w _ => w.1.accepted.length = 1) plays
  obtain ⟨m,hm⟩ := List.length_eq_one_iff.mp (of_decide_eq_true hp)
  refine ⟨s,hr,m,?_⟩
  rw [hm]
  exact List.mem_cons_self

/-- The message of the tick that follows the served call. -/
theorem accepted_backed_ticked : ∃ (s : DeployedState) (m : SignedConstraints), m ∈ s.world.1.accepted ∧
    ∃ id entry o, s.Saw id entry o ∧ Taken o m ∧
      ((entry = .inl .processPendingConstraints ∧ Backed deployed s.world.2 o.pre.1.commitments.rows m o.start) ∨
        ∃ slot payload committer, entry = .inl (.submitConstraintNow slot payload committer) ∧
          Direct deployed slot payload m) := by
  obtain ⟨s,hr,m,hm⟩ := deployed_ticked
  exact ⟨s,m,hm,accepted_backed deployed hr hm⟩

end PreconfGateway.Properties.MessageGrounds
