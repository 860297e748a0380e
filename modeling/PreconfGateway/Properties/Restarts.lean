import PreconfGateway.Interleaving.Lives
import PreconfGateway.Properties.Delivery
import PreconfGateway.Properties.MessageGrounds
import PreconfGateway.Properties.VerifiableReplies

/-! The server may stop at any moment and be started again: what its tables hold they hold rightly, and what a client
was told stays true. -/
namespace PreconfGateway.Properties.Restarts
open Encoding Types Db Crypto Interleaving Api Rpc Services Fixture Durability MessageGrounds VerifiableReplies
variable {P : Platform} {may : Deployment P → Prop}

/-- The lives of such servers: tables and relay stay, and the caches are lost. -/
abbrev Lives (may : Deployment P → Prop) (w₀ : Deployment.Whole P) :
    { d : Deployment P // may d } → State (Deployment.Both P) (Deployment.Whole P) Entry Ending → Prop :=
  Lived (D := { d : Deployment P // may d }) (fun d => d.1.system) (fun w => (w.1, Nodes.Peers.empty)) w₀

/-- One of the servers has signed what the row says, for a request. -/
def Attested (may : Deployment P → Prop) (row : CommitmentRow) : Prop :=
  ∃ d, may d ∧ ∃ request slot sc id createdAt, Signed d.config request slot sc ∧
    ((newCommitmentOf P sc 1).row id createdAt).Later row

/-- The relay has taken a message for the row's slot, with the row's constraint, from one of the servers. -/
def Submitted (may : Deployment P → Prop) (accepted : List SignedConstraints) (row : CommitmentRow) : Prop :=
  ∃ d, may d ∧ ∃ m ∈ accepted, Issued d.toGateway m ∧ row.slotNumber = some m.message.slot.toInt64 ∧
    i64TryFrom m.message.slot = row.slotNumber ∧ constraintOf row ∈ m.message.constraints

structure Kept (may : Deployment P → Prop) (w : World P) : Prop where
  attested : ∀ row ∈ w.commitments.rows, Attested may row
  submitted : ∀ row ∈ w.commitments.rows, row.constraintProcessed = true → Submitted may w.accepted row
  acceptable : ∀ row ∈ w.delegations.rows, ∃ d, may d ∧ ∃ del id, Acceptable d.config del ∧
    ((newDelegationOf del).row id).Later row
  issued : ∀ m ∈ w.accepted, ∃ d, may d ∧ Issued d.toGateway m

section Life
variable {d : Deployment P} {w : World P} {s : State (requests P) (World P) Entry Ending} {row : CommitmentRow}

theorem server_evolves (hr : Reachable d.server w s) : w.Evolves s.world :=
  hr.grown World.Evolves.refl World.Evolves.trans fun hu _ _ _ saw => (Changes.of_answers (server_event hu saw).2.1).evolves

private theorem later_trans {a b c : CommitmentRow} (h : a.Later b) (k : b.Later c) : a.Later c := by
  refine ⟨?_,fun set => k.2 (h.2 set)⟩
  rw [k.1,h.1]

/-- There is one row under a hash, and it is the one of the start. -/
theorem row_later {r : CommitmentRow} (hr : Reachable d.server w s) (there : r ∈ w.commitments.rows)
    (hrow : row ∈ s.world.commitments.rows) (same : r.requestHash = row.requestHash) : r.Later row := by
  obtain ⟨r',hr',later⟩ := (server_evolves hr).commitments r there
  have one : r' = row := Commitments.hash_injective hr' hrow (by rw [later.1]; exact same)
  rw [← one]
  exact later

theorem attested_life (own : may d) (kept : Kept may w) (hr : Reachable d.server w s)
    (hrow : row ∈ s.world.commitments.rows) : Attested may row := by
  by_cases known : ∃ r ∈ w.commitments.rows, r.requestHash = row.requestHash
  · obtain ⟨r,there,same⟩ := known
    obtain ⟨d',own',request,slot,sc,id,createdAt,signed,later⟩ := kept.attested r there
    exact ⟨d',own',request,slot,sc,id,createdAt,signed,later_trans later (row_later hr there hrow same)⟩
  · obtain ⟨_,_,_,new,rowId,createdAt,saw,insert,_,later⟩ := server_added hr hrow fun r there same => known ⟨r,there,same⟩
    obtain ⟨request,slot,sc,_,signed,rfl⟩ := (hr.obeys server_signs saw).1 new insert
    exact ⟨d,own,request,slot,sc,rowId,createdAt,signed,later⟩

/-- A row that is marked was in a message that the relay has taken. -/
theorem marked_submitted (own : may d) (hr : Reachable d.server w s) {id : Nat} {entry : Entry} {e : Event (requests P) (World P)}
    (saw : s.Saw id entry e) {hashes : List String} (mark : e.op.query = .sql (.updateProcessed hashes))
    (hrow : row ∈ s.world.commitments.rows) (listed : row.requestHash ∈ hashes) : Submitted may s.world.accepted row := by
  obtain ⟨older,_,guaranteed,_,seen⟩ := (server_submitting d.toGateway).kept (by rintro (j | k) <;> exact trivial) hr saw
  have asks := (server_event hr saw).1
  rw [mark] at asks
  rcases asks with ⟨asks⟩ | ⟨asks⟩
  · cases asks
    obtain ⟨m,committer,batch,flying,rfl,reply,⟨start,stop,v,v',told⟩,ok⟩ := guaranteed.2.mark hashes mark
    obtain ⟨r,hb,same⟩ := List.mem_map.mp listed
    obtain ⟨_,reads,_,there,pending⟩ := batch_read hr seen flying hb
    obtain ⟨r',hr',later⟩ := read_kept hr reads there
    have one : r' = row := Commitments.hash_injective hr' hrow (by rw [later.1]; exact same)
    rw [one] at later
    have column : row.slotNumber = some m.message.slot.toInt64 := by
      rw [later.1]
      exact pending
    refine ⟨d,own,m,?_,flying.issued,column,flying.batched.fits.trans column.symm,?_⟩
    · obtain ⟨posted,_⟩ := seen _ told
      obtain ⟨_,⟨c,answered⟩,since⟩ := server_event hr posted
      change Query.respond stop v (.postConstraints m) c = some (reply, v') at answered
      refine since.accepted.subset ?_
      cases c <;> cases answered
      simp [ok]
    · rw [flying.constraints,List.mem_map]
      refine ⟨r,hb,?_⟩
      rw [later.1]
      rfl
  · cases asks

theorem submitted_life (own : may d) (kept : Kept may w) (hr : Reachable d.server w s)
    (hrow : row ∈ s.world.commitments.rows) (set : row.constraintProcessed = true) : Submitted may s.world.accepted row := by
  by_cases known : ∃ r ∈ w.commitments.rows, r.requestHash = row.requestHash ∧ r.constraintProcessed = true
  · obtain ⟨r,there,same,was⟩ := known
    have later := row_later hr there hrow same
    obtain ⟨d',own',m,hm,issued,column,fits,constraint⟩ := kept.submitted r there was
    refine ⟨d',own',m,(server_evolves hr).accepted.subset hm,issued,?_⟩
    rw [later.1]
    exact ⟨column,fits,constraint⟩
  · obtain ⟨id,entry,e,saw,before,r,hm,same,was⟩ := hr.provenance
      (fun w => ∃ r ∈ w.commitments.rows, r.requestHash = row.requestHash ∧ r.constraintProcessed = true)
      known ⟨row,hrow,rfl,set⟩
    have unset : ∀ a ∈ e.pre.commitments.rows, a.requestHash = r.requestHash → a.constraintProcessed = false := by
      intro a ha he
      rw [← Bool.not_eq_true]
      exact fun h => before ⟨a,ha,he.trans same,h⟩
    obtain ⟨hashes,mark,listed⟩ := Delivery.marked_here (Changes.of_answers (server_event hr saw).2.1) hm was unset
    rw [same] at listed
    exact marked_submitted own hr saw mark hrow listed

theorem acceptable_life (own : may d) (kept : Kept may w) (hr : Reachable d.server w s) {row : DelegationRow}
    (hrow : row ∈ s.world.delegations.rows) :
    ∃ d, may d ∧ ∃ del id, Acceptable d.config del ∧ ((newDelegationOf del).row id).Later row := by
  by_cases known : ∃ r ∈ w.delegations.rows, r.key = row.key
  · obtain ⟨r,there,same⟩ := known
    obtain ⟨d',own',del,id,acceptable,before⟩ := kept.acceptable r there
    obtain ⟨r',hr',later⟩ := (server_evolves hr).delegations r there
    have key : r'.key = r.key := by
      rw [later.1]
      rfl
    rw [Delegations.key_injective hr' hrow (key.trans same)] at later
    refine ⟨d',own',del,id,acceptable,?_,fun active => before.2 (later.2 active)⟩
    rw [later.1,before.1]
  · obtain ⟨id,e,news,new,rowId,saw,insert,listed,_,_,later⟩ := Grounds.stored_event hr hrow
      fun r there same => known ⟨r,there,same⟩
    have asks := (server_event hr saw).1
    rw [insert] at asks
    rcases asks with ⟨asks⟩ | ⟨asks⟩
    cases asks with
    | insertDelegations ds acceptable =>
      obtain ⟨del,hdel,rfl⟩ := List.mem_map.mp listed
      exact ⟨d,own,del,rowId,acceptable del hdel,later⟩

theorem issued_life (own : may d) (kept : Kept may w) (hr : Reachable d.server w s) {m : SignedConstraints}
    (hm : m ∈ s.world.accepted) : ∃ d, may d ∧ Issued d.toGateway m := by
  by_cases known : m ∈ w.accepted
  · exact kept.issued m known
  · obtain ⟨id,entry,e,saw,post,_,_⟩ := taken_event hr known hm
    have asks := (server_event hr saw).1
    rw [post] at asks
    rcases asks with ⟨asks⟩ | ⟨asks⟩
    · cases asks with
      | tickPost m issued => exact ⟨d,own,issued⟩
      | submitPost slot payload committer m issued => exact ⟨d,own,issued⟩
    · cases asks

end Life

variable {w₀ : Deployment.Whole P} {d d' : { d : Deployment P // may d }}
  {s s' : State (Deployment.Both P) (Deployment.Whole P) Entry Ending}

theorem kept_life {d : Deployment P} {w : World P} (own : may d) (kept : Kept may w) (hr : Reachable d.system (w, .empty) s) :
    Kept may s.world.1 := by
  obtain ⟨s',reached,simulates⟩ := Deployment.simulated hr
  rw [← simulates.world]
  exact ⟨fun _ hrow => attested_life own kept reached hrow,fun _ hrow set => submitted_life own kept reached hrow set,
    fun _ hrow => acceptable_life own kept reached hrow,fun _ hm => issued_life own kept reached hm⟩

/-- After any number of stops and restarts every commitment of the table was signed for its request, every processed
one was in a message that the relay has taken, every delegation is one that a server may act on, and every message at
the relay is a server's. Nothing has been lost. A life begins with the tables as they were when the last one stopped: a
request that was in flight then has taken effect before, or it never does. -/
theorem tables_survive (start : Kept may w₀.1) (h : Lives may w₀ d s) : Kept may s.world.1 ∧ w₀.1.Evolves s.world.1 := by
  refine h.invariant (fun w => Kept may w.1 ∧ w₀.1.Evolves w.1) ⟨start,.refl _⟩ fun d w s inv run => ?_
  obtain ⟨kept,since⟩ := inv
  obtain ⟨s',reached,simulates⟩ := Deployment.simulated run
  refine ⟨kept_life d.2 kept run,since.trans ?_⟩
  rw [← simulates.world]
  exact server_evolves reached

/-- A life that begins with this world submits a message. -/
def submitsOne (w : World (platform offer)) : Bool :=
  (deployed.system.script [deployedTick] (w, .empty) 0).any (fun out => out.2.1.1.accepted.length = 1)

/-- A commitment of the first life is submitted in the second. -/
theorem tables_survive_ticked : ∃ (s s' : DeployedState) (m : SignedConstraints),
    servedRow ∈ s.world.1.commitments.rows ∧ m ∉ s.world.1.accepted ∧ m ∈ s'.world.1.accepted ∧
      Lives (fun d => d = deployed) (World.empty (platform offer), .empty) ⟨deployed, rfl⟩ s' ∧
      Kept (fun d => d = deployed) s'.world.1 ∧ (World.empty (platform offer)).Evolves s'.world.1 := by
  have plays : (deployed.system.script [deployedPoll, deployedCall] (.empty _, .empty) 0).any (fun out =>
      out.2.1.1.commitments.rows = [servedRow] && out.2.1.1.accepted = [] && submitsOne out.2.1.1) = true := by
    decide +kernel
  obtain ⟨s,hr,hp⟩ := @reach_of_deployed _ (fun w _ => w.1.commitments.rows = [servedRow] && w.1.accepted = [] &&
    submitsOne w.1) plays
  simp only [Bool.and_eq_true,decide_eq_true_eq] at hp
  obtain ⟨⟨rows,none⟩,ticks⟩ := hp
  obtain ⟨⟨outs,w,t⟩,played,one⟩ := (Option.any_eq_true _ _).mp ticks
  obtain ⟨s',hr',_,rfl,_⟩ := @System.script_reachable _ _ _ _ deployed.system _ (s.world.1, .empty) _ (.initial 0)
    (fun _ _ h => by cases h) 0 (fun _ _ => rfl) _ _ _ played (fun _ _ _ => trivial) (fun _ _ _ _ _ _ => trivial)
  obtain ⟨m,hm⟩ := List.length_eq_one_iff.mp (of_decide_eq_true one)
  have start : Kept (fun d => d = deployed) (World.empty (platform offer)) :=
    ⟨fun _ h => (by cases h),fun _ h => (by cases h),fun _ h => (by cases h),fun _ h => (by cases h)⟩
  have first : Lives (fun d => d = deployed) (World.empty (platform offer), .empty) ⟨deployed, rfl⟩ s := .first hr
  have second : Lives (fun d => d = deployed) (World.empty (platform offer), .empty) ⟨deployed, rfl⟩ s' := first.again hr'
  refine ⟨s,s',m,?_,?_,?_,second,tables_survive start second⟩
  · rw [rows]
    exact List.mem_cons_self
  · rw [none]
    exact List.not_mem_nil
  · rw [hm]
    exact List.mem_cons_self

/-- The commitment is in the table and in every reply to a lookup of its hash; it is never denied and never replaced. -/
structure Survives (s : State (Deployment.Both P) (Deployment.Whole P) Entry Ending) (sc : SignedCommitment) : Prop where
  holds : Holds s.world.1 sc
  found : ∀ id params v, Replied s id "commitmentResult" params (.result v) →
    one Json.string? params = some sc.commitment.requestHash → v = sc.toJson
  known : ∀ id params, Replied s id "commitmentResult" params (.error (-32600)) →
    one Json.string? params ≠ some sc.commitment.requestHash
  single : ∀ id params (sc' : SignedCommitment), Replied s id "commitmentRequest" params (.result sc'.toJson) →
    sc'.commitment.requestHash ≠ sc.commitment.requestHash

/-- A life that begins with a commitment stands by it. -/
theorem survives_life {d : Deployment P} {w : World P} {sc : SignedCommitment} (held : Holds w sc)
    (hr : Reachable d.system (w, .empty) s) : Survives s sc := by
  obtain ⟨s',reached,simulates⟩ := Deployment.simulated hr
  have before {id : Nat} {entry : Entry} {e : Event (requests P) (World P)} (saw : s'.Saw id entry e) : Holds e.pre sc := by
    obtain ⟨v,hv,world,_,_⟩ := reached.at_event saw
    rw [← world]
    exact held.evolves (server_evolves hv)
  refine ⟨?_,?_,?_,?_⟩
  · rw [← simulates.world]
    exact held.evolves (server_evolves reached)
  · intro id params v replied asked
    obtain ⟨hash,found,row,_,_,_,_,asked',rfl,read,saw⟩ := found_reply reached (replied.simulated simulates)
    cases asked.symm.trans asked'
    obtain ⟨row',there,read'⟩ := before saw
    cases there.symm.trans (Answers.selectCommitment (server_event reached saw).2.1).1.symm
    cases read.symm.trans read'
    rfl
  · intro id params replied asked
    obtain ⟨hash,_,_,_,_,asked',saw⟩ := missing_reply reached (replied.simulated simulates)
    cases asked.symm.trans asked'
    obtain ⟨row',there,_⟩ := before saw
    cases there.symm.trans (Answers.selectCommitment (server_event reached saw).2.1).1.symm
  · intro id params sc' replied same
    obtain ⟨_,_,own,_,_,_,_,_,_,equal,signed,saw⟩ := committed_reply reached (replied.simulated simulates)
    cases SignedCommitment.toJson_inj equal
    have type : sc'.commitment.commitmentType = 1 := by
      rw [signed.commitment]
    obtain ⟨_,fresh⟩ := holds_of_inserted type (server_event reached saw).2.1
    obtain ⟨row,there,_⟩ := before saw
    obtain ⟨listed,hash⟩ := Commitments.withHash_some there
    exact fresh row listed (hash.trans same.symm)

/-- What a client was given by one life, every later life gives again: however often the server stops and starts, the
commitment is read back as it was, and no other one is signed under its hash. Of a request in flight at a stop nothing
takes effect later. -/
theorem acknowledged_survives (h : Lives may w₀ d s) {id : Nat} {params : Option Json} {v : Json}
    (replied : Replied s id "commitmentRequest" params (.result v)) (later : Lives may s.world d' s') :
    ∃ sc, v = SignedCommitment.toJson sc ∧ Survives s' sc := by
  obtain ⟨w,_,run⟩ := h.latest (fun _ => True) trivial fun _ _ _ _ _ => trivial
  obtain ⟨u,reached,simulates⟩ := Deployment.simulated run
  obtain ⟨_,_,sc,_,_,_,_,_,_,rfl,signed,saw⟩ := committed_reply reached (replied.simulated simulates)
  have type : sc.commitment.commitmentType = 1 := by
    rw [signed.commitment]
  obtain ⟨_,answers,since⟩ := server_event reached saw
  have held := (holds_of_inserted type answers).1.evolves since
  rw [simulates.world] at held
  obtain ⟨w',held',run'⟩ := later.latest (fun w => Holds w.1 sc) held fun d w s held run => (survives_life held run).holds
  exact ⟨sc,rfl,survives_life held' run'⟩

/-- The served commitment is found after a restart. -/
theorem acknowledged_survives_restart : ∃ s s' : DeployedState,
    Replied s 1 "commitmentRequest" (some (.array [(request 5 7 own).toJson])) (.result signed.toJson) ∧
    Lives (fun d => d = deployed) s.world ⟨deployed, rfl⟩ s' ∧
    Replied s' 0 "commitmentResult" (some (.array [.string signed.commitment.requestHash])) (.result signed.toJson) ∧
    ∃ sc, signed.toJson = SignedCommitment.toJson sc ∧ Survives s' sc := by
  have plays : (deployed.system.script [deployedPoll, deployedCall] (.empty _, .empty) 0).any (fun out =>
      out.1.map (fun o => Ending.commitment? o.2) = [none, some signed] && findsSigned (out.2.1.1, .empty) 0) = true := by
    decide +kernel
  obtain ⟨s,hr,_,onward,_,done⟩ := @reach_of_replies (Reachable deployed.system (.empty _, .empty))
    (fun h step => h.step step) _ (.initial 0) (fun _ _ h => by cases h) 0 (fun _ _ => rfl) _ _
    (fun w _ => findsSigned (w.1, .empty) 0) plays
  obtain ⟨s',hr',_,_,_,again⟩ := @reach_of_replies (Reachable deployed.system (s.world.1, .empty)) (fun h step => h.step step) _
    (.initial 0) (fun _ _ h => by cases h) 0 (fun _ _ => rfl) _ _ (fun _ _ => true) onward
  have committed := replied_request (done 1 _ _ rfl rfl)
  have found := replied_result (again 0 _ _ rfl rfl)
  have first : Lives (fun d => d = deployed) (World.empty (platform offer), .empty) ⟨deployed, rfl⟩ s := .first hr
  have second : Lives (fun d => d = deployed) s.world ⟨deployed, rfl⟩ s' := .first hr'
  exact ⟨s,s',committed,second,found,acknowledged_survives first committed second⟩

end PreconfGateway.Properties.Restarts
