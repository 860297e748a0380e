import PreconfGateway.Properties.Deployed
import PreconfGateway.Properties.SlotColumn
import PreconfGateway.Submissions

/-! What a stored commitment and its price rest on in a run with the clients: the pages of the beacon
chain on its proposer, and the gas price of the execution node. -/
namespace PreconfGateway.Properties.CommitmentGrounds
open Encoding Types Db Crypto Interleaving Api Rpc Services Fixture Authorisation
variable {P : Platform} {d : Deployment P} {w₀ : World P} {s : State (Deployment.Both P) (Deployment.Whole P) Entry Ending}

/-- The event inserted the row, or the one that it has come from. -/
structure Inserted (e : Event (Deployment.Both P) (Deployment.Whole P)) (row : CommitmentRow) : Prop where
  before : ∀ r ∈ e.pre.1.commitments.rows, r.requestHash ≠ row.requestHash
  after : ∃ r ∈ e.post.1.commitments.rows, r.Later row

/-- By this time a delegation spoke for the commitment, and the beacon chain for its proposer: an endpoint
had assigned the slot to it, and one had reported it to be active and not slashed. -/
structure Supported (d : Deployment P) (n : Nodes.Peers) (payload : Bytes) (slot : UInt64) (del : SignedDelegation)
    (t : Nat) : Prop where
  slot_eq : PayloadParser.extractSlot P 1 payload = .ok slot
  delegationSlot : del.message.slot = slot
  acceptable : Acceptable d.config del
  committer : normalizeAddress del.message.committer = normalizeAddress d.config.signing.committerAddress
  assigned : ∃ duty u, u ≤ t ∧ d.Assigned n slot duty u ∧ duty.toValidatorDuty.parsePubkey = .ok del.message.proposer
  fit : ∃ u ≤ t, d.Known n del.message.proposer.bytes true u

/-- The authority for commitments is the same in the server, whose further calls change no delegation. -/
theorem server_authorised (g : Gateway P) :
    Verified g.server (g.terms (Trusted g) (Guarantee g) (fun _ _ _ => True)) World.Evolves
      (Beside (Finished g) (fun _ _ _ _ _ => True)) := by
  refine Gateway.verified_server (authorisation_verified g) ?_ ?_
  · intro k t w _
    exact (Contract.Safe.of_obeys (g.further_obeys k) (fun _ _ _ _ _ => trivial) (fun _ _ _ => trivial)).mono
      (fun _ _ _ _ _ => trivial)
  · intro k tr e trusted changes asks _
    rcases asks.changes changes with same | ⟨row,_,_,same⟩
    · rw [same]
      exact trusted
    · rw [same]
      exact trusted

/-- Who inserts a commitment is a call that had its authority before. -/
theorem insert_authorised {g : Gateway P} {u : State (requests P) (World P) Entry Ending} (empty : w₀.delegations = .empty)
    (hr : Reachable g.server w₀ u) {id : Nat} {entry : Entry} {e : Event (requests P) (World P)} (saw : u.Saw id entry e)
    {new : NewCommitment} (insert : e.op.query = .sql (.insertCommitment new)) :
    ∃ request slot del older, entry = .inl (.commitmentRequest (some request)) ∧ Authorised g request older new slot del ∧
      u.Seen id entry older e.start := by
  have trusted : ∀ i, (g.terms (Trusted g) (Guarantee g) (fun _ _ _ => True) i).inv w₀ := by
    rintro (j | k) <;> exact trusted_of_empty empty
  obtain ⟨older,_,guaranteed,_,seen⟩ := (server_authorised g).kept trusted hr saw
  cases entry with
  | inl job =>
    obtain ⟨request,slot,del,rfl,authorised,_⟩ := guaranteed.2 new insert
    exact ⟨request,slot,del,older,rfl,authorised,seen⟩
  | inr k =>
    have asks := guaranteed.1
    dsimp only at asks
    rw [insert] at asks
    cases asks

section Earlier
variable {s' v : State (requests P) (World P) Entry Ending}

/-- The proposer of a delegation that was in the table at some time had been reported fit before. -/
theorem row_known (empty : w₀.delegations = .empty) (hr : Reachable d.system (w₀, .empty) s) (h : d.Simulated s s')
    (hv : Reachable d.server w₀ v) (kept : ∀ i j x, v.Saw i j x → s'.Saw i j x) {row : DelegationRow}
    (hrow : row ∈ v.world.delegations.rows) : ∃ u ≤ v.clock, d.Known s.world.2 row.proposerPubkey true u := by
  obtain ⟨i,e,older,saw,seen,judged,_⟩ := Grounds.stored_grounds hv hrow (by rw [empty]; exact fun _ h => by cases h)
  have seen' : s'.Seen i (.inl .pollDelegations) older e.start := fun o ho => ⟨kept i _ o (seen o ho).1,(seen o ho).2⟩
  obtain ⟨u,early,known⟩ := Deployment.judged_known hr h seen' judged
  have spans := (Grounds.reached_grounded hv saw).2.1
  have ended := hv.stop_le saw
  exact ⟨u,by omega,known⟩

/-- The proposer of a delegation that a task has read had been reported fit. -/
theorem read_known (empty : w₀.delegations = .empty) (hr : Reachable d.system (w₀, .empty) s)
    (reached : Reachable d.server w₀ s') (h : d.Simulated s s') {id : Nat} {entry : Entry} {older : Trace P} {t : Nat}
    (seen : s'.Seen id entry older t) {e : Event (requests P) (World P)} (listed : e ∈ older) {row : DelegationRow}
    (hrow : row ∈ e.pre.delegations.rows) : ∃ u ≤ t, d.Known s.world.2 row.proposerPubkey true u := by
  obtain ⟨saw,before⟩ := seen e listed
  obtain ⟨v,hv,world,clock,kept⟩ := reached.at_event saw
  rw [← world] at hrow
  obtain ⟨u,early,known⟩ := row_known empty hr h hv kept hrow
  exact ⟨u,by omega,known⟩

/-- The column of an authorised insert holds the slot of its payload. -/
theorem inserted_slot {g : Gateway P} {request : CommitmentRequest} {older : Trace P} {new : NewCommitment} {slot : UInt64}
    {del : SignedDelegation} (authorised : Authorised g request older new slot del) {entry : Entry}
    (asks : g.Requests entry (.sql (.insertCommitment new))) : new.slotNumber = some slot.toInt64 := by
  rcases asks with ⟨asks⟩ | ⟨asks⟩ <;> cases asks
  rename_i sc type fits
  have type_eq : sc.commitment.commitmentType = 1 := by
    have one : type = 1 := authorised.columns.1
    obtain ⟨_,same⟩ := Option.ite_none_right_eq_some.mp fits
    have cast : sc.commitment.commitmentType.toInt64 = 1 := (Option.some.inj same).trans one
    rw [← UInt64.toUInt64_toInt64 sc.commitment.commitmentType,cast]
    rfl
  have payload : PayloadParser.extractSlot P 1 sc.commitment.payload = .ok slot := authorised.slot_eq
  have column : (newCommitmentOf P sc type).slotNumber = i64TryFrom slot := by
    simp only [newCommitmentOf,slotNumberOf,type_eq,payload]
  rw [column,SlotColumn.authorised_fits authorised]

/-- A commitment that was in the table at some time had been inserted by a call, which had found it supported. -/
theorem row_supported (empty : w₀.delegations = .empty) (hr : Reachable d.system (w₀, .empty) s)
    (reached : Reachable d.server w₀ s') (h : d.Simulated s s') (hv : Reachable d.server w₀ v)
    (kept : ∀ i j x, v.Saw i j x → s'.Saw i j x) {row : CommitmentRow} (hrow : row ∈ v.world.commitments.rows)
    (absent : ∀ r ∈ w₀.commitments.rows, r.requestHash ≠ row.requestHash) :
    ∃ id request e new rowId createdAt slot del, v.Saw id (.inl (.commitmentRequest (some request))) e ∧
      e.op.query = .sql (.insertCommitment new) ∧
      e.post.commitments.rows = e.pre.commitments.rows ++ [new.row rowId createdAt] ∧ (new.row rowId createdAt).Later row ∧
      row.slotNumber = some slot.toInt64 ∧ Supported d s.world.2 row.payload slot del e.start := by
  obtain ⟨id,entry,e,new,rowId,createdAt,saw,insert,added,later⟩ := server_added hv hrow absent
  obtain ⟨request,slot,del,older,rfl,authorised,seenᵥ⟩ := insert_authorised empty hv saw insert
  have seen : s'.Seen id (.inl (.commitmentRequest (some request))) older e.start :=
    fun o ho => ⟨kept id _ o (seenᵥ o ho).1,(seenᵥ o ho).2⟩
  have payload : new.payload = row.payload := by
    rw [later.1]
    rfl
  have column : row.slotNumber = some slot.toInt64 := by
    rw [later.1]
    have asks := (server_event hv saw).1
    rw [insert] at asks
    exact inserted_slot authorised asks
  refine ⟨id,request,e,new,rowId,createdAt,slot,del,saw,insert,added,later,column,?_,authorised.delegationSlot,
    ⟨authorised.delegate,authorised.verifies⟩,authorised.committer,?_,?_⟩
  · rw [← payload]
    exact authorised.slot_eq
  · obtain ⟨found,a,b,w,w',listed,names⟩ := authorised.scheduled
    obtain ⟨saw,early⟩ := seen _ listed
    obtain ⟨duty,rfl,u,_,before,assigned⟩ := Deployment.sourced hr h saw _ rfl
    exact ⟨duty,u,Nat.le_trans before early,assigned,names⟩
  · obtain ⟨rows,a,b,w,w',listed,source,_,hsource,_,_,back⟩ := authorised.read
    obtain ⟨u,early,known⟩ := read_known empty hr reached h seen listed hsource
    rw [(signedDelegationOf_columns back).1] at known
    exact ⟨u,early,known⟩

end Earlier

/-- A commitment is stored only after an endpoint of the beacon chain had assigned its slot to the proposer
that a signed delegation to the own key is from, and one had reported this proposer to be fit. -/
theorem stored_supported (d : Deployment P) (empty : w₀.delegations = .empty) (hr : Reachable d.system (w₀, .empty) s)
    {row : CommitmentRow} (hrow : row ∈ s.world.1.commitments.rows)
    (absent : ∀ r ∈ w₀.commitments.rows, r.requestHash ≠ row.requestHash) :
    ∃ id request e slot del, s.Saw id (.inl (.commitmentRequest (some request))) e ∧ Inserted e row ∧
      Supported d s.world.2 row.payload slot del e.start := by
  obtain ⟨s',reached,simulates⟩ := Deployment.simulated hr
  have hrow' := hrow
  rw [← simulates.world] at hrow'
  obtain ⟨id,request,e,new,rowId,createdAt,slot,del,saw,insert,added,later,_,supported⟩ :=
    row_supported empty hr reached simulates reached (fun _ _ _ saw => saw) hrow' absent
  have hash : (new.row rowId createdAt).requestHash = row.requestHash := by
    rw [later.1]
  have fresh : ∀ r ∈ e.pre.commitments.rows, r.requestHash ≠ row.requestHash := by
    intro r hr same
    have once := e.post.commitments.hashes
    rw [added,List.map_append,List.nodup_append] at once
    exact once.2.2 _ (List.mem_map_of_mem hr) _ (List.mem_map_of_mem List.mem_cons_self) (same.trans hash.symm)
  have here : new.row rowId createdAt ∈ e.post.commitments.rows := by
    rw [added]
    exact List.mem_append_right _ List.mem_cons_self
  have moved : e.pre ≠ e.post := by
    intro same
    rw [← same] at here
    exact fresh _ here hash
  obtain ⟨o,seen_o,start,pre,post⟩ := Deployment.direct_moved simulates saw (Deployment.carry_sql insert) moved
  refine ⟨id,request,o,slot,del,seen_o,⟨?_,_,?_,later⟩,?_⟩
  · rw [pre]
    exact fresh
  · rw [post]
    exact here
  · rw [start]
    exact supported

/-- The commitment of the call that was served. -/
theorem stored_supported_served : ∃ s : DeployedState, servedRow ∈ s.world.1.commitments.rows ∧
    ∃ id request e slot del, s.Saw id (.inl (.commitmentRequest (some request))) e ∧ Inserted e servedRow ∧
      Supported deployed s.world.2 servedRow.payload slot del e.start := by
  obtain ⟨s,hr,_,rows,_⟩ := Deployed.deployed_served
  have hrow : servedRow ∈ s.world.1.commitments.rows := by
    rw [rows]
    exact List.mem_cons_self
  exact ⟨s,hrow,stored_supported deployed rfl hr hrow (fun _ h => by cases h)⟩

/-- The event opened the record of a slot. -/
structure Opened (e : Event (Deployment.Both P) (Deployment.Whole P)) (row : CongestionRow P) : Prop where
  before : ∀ r ∈ e.pre.1.congestion.rows, r.slot ≠ row.slot
  after : ∃ r ∈ e.post.1.congestion.rows, r.slot = row.slot ∧ r.baseGasPrice = row.baseGasPrice

/-- The price with which the record of a slot was opened, and which it has kept, had been quoted by the
execution node before. -/
theorem opened_quoted (d : Deployment P) (hr : Reachable d.system (w₀, .empty) s) {row : CongestionRow P}
    (hrow : row ∈ s.world.1.congestion.rows) (absent : ∀ r ∈ w₀.congestion.rows, r.slot ≠ row.slot) :
    ∃ id entry e price u, s.Saw id entry e ∧ Opened e row ∧ u ≤ e.start ∧ d.Quoted s.world.2 price u ∧
      row.baseGasPrice = (GasPriceInfo.gasPriceAsU64Clamped ⟨price⟩).toInt64 := by
  obtain ⟨s',reached,simulates⟩ := Deployment.simulated hr
  rw [← simulates.world] at hrow
  obtain ⟨id,entry,e,older,saw,seen,priced,⟨statement,sql⟩,before,r,hr',slot,same⟩ :=
    Grounds.opened_grounds reached hrow absent
  have moved : e.pre ≠ e.post := by
    intro still
    rw [← still] at hr'
    exact before r hr' slot
  obtain ⟨o,seen_o,start,pre,post⟩ := Deployment.direct_moved simulates saw (Deployment.carry_sql sql) moved
  obtain ⟨price,base,u,early,quoted⟩ := Deployment.priced_quoted hr simulates seen priced
  refine ⟨id,entry,o,price,u,seen_o,⟨?_,r,?_,slot,same⟩,?_,quoted,base⟩
  · rw [pre]
    exact before
  · rw [post]
    exact hr'
  · rw [start]
    exact early

theorem opened_quoted_served : ∃ (s : DeployedState) (row : CongestionRow (platform offer)),
    row ∈ s.world.1.congestion.rows ∧ ∃ id entry e price u, s.Saw id entry e ∧ Opened e row ∧ u ≤ e.start ∧
      deployed.Quoted s.world.2 price u ∧ row.baseGasPrice = (GasPriceInfo.gasPriceAsU64Clamped ⟨price⟩).toInt64 := by
  obtain ⟨s,hr,_,_,rows⟩ := Deployed.deployed_served
  have hrow : (⟨5, 31016, 30000000, (3877 / 3750000 : Rat), 10, (14062500000000 / 14062484968871 : Rat), 11, 60⟩ :
      CongestionRow (platform offer)) ∈ s.world.1.congestion.rows := by
    rw [rows]
    exact List.mem_cons_self
  exact ⟨s,_,hrow,opened_quoted deployed hr hrow (fun _ h => by cases h)⟩

end PreconfGateway.Properties.CommitmentGrounds
