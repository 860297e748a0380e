import PreconfGateway.Properties.Deployed

/-! What the table of delegations rests on in a run with the clients: what an endpoint of the beacon
chain has said of each proposer. -/
namespace PreconfGateway.Properties.DelegationGrounds
open Encoding Types Db Interleaving Api Services Fixture
variable {P : Platform} {d : Deployment P} {w₀ : World P} {s : State (Deployment.Both P) (Deployment.Whole P) Entry Ending}

/-- The event stored the row, or one that it has come from. -/
structure Stored (e : Event (Deployment.Both P) (Deployment.Whole P)) (row : DelegationRow) : Prop where
  before : ∀ r ∈ e.pre.1.delegations.rows, r.key ≠ row.key
  after : ∃ r ∈ e.post.1.delegations.rows, r.Later row

/-- The event switched the row off. -/
structure SwitchedOff (e : Event (Deployment.Both P) (Deployment.Whole P)) (row : DelegationRow) : Prop where
  before : ∀ r ∈ e.pre.1.delegations.rows, r.key = row.key → r.isActive = true
  after : ∃ r ∈ e.post.1.delegations.rows, r.key = row.key ∧ r.isActive = false

/-- In this task the proposer was looked up before this time, and the status had this verdict. -/
def FoundOut (d : Deployment P) (s : State (Deployment.Both P) (Deployment.Whole P) Entry Ending) (id : Nat) (entry : Entry)
    (proposer : Bytes) (verdict : Bool) (t : Nat) : Prop :=
  ∃ pubkey info, proposer = pubkey.bytes ∧ DelegationPolling.eligible info.toValidatorInfo = verdict ∧
    d.LookedUp s id entry pubkey info t

/-- A poll stores a delegation only after it has itself looked its proposer up and found it active and not slashed: an
endpoint had reported so, no longer before the lookup than a status may be kept. -/
theorem stored_known (d : Deployment P) (hr : Reachable d.system (w₀, .empty) s) {row : DelegationRow}
    (hrow : row ∈ s.world.1.delegations.rows) (absent : ∀ r ∈ w₀.delegations.rows, r.key ≠ row.key) :
    ∃ id e, s.Saw id (.inl .pollDelegations) e ∧ Stored e row ∧
      FoundOut d s id (.inl .pollDelegations) row.proposerPubkey true e.start := by
  obtain ⟨s',reached,simulates⟩ := Deployment.simulated hr
  have hrow' := hrow
  rw [← simulates.world] at hrow'
  obtain ⟨id,e,older,saw,seen,judged,⟨news,insert⟩,before,r,hr',later⟩ := Grounds.stored_grounds reached hrow' absent
  have moved : e.pre ≠ e.post := by
    intro same
    refine before r (by rw [same]; exact hr') ?_
    rw [later.1]
    rfl
  obtain ⟨o,seen_o,start,pre,post⟩ := Deployment.direct_moved simulates saw (Deployment.carry_sql insert) moved
  refine ⟨id,o,seen_o,⟨?_,r,?_,later⟩,?_⟩
  · rw [pre]
    exact before
  · rw [post]
    exact hr'
  · rw [start]
    exact Deployment.judged_looked_up hr simulates seen judged

/-- The delegation of the call that was served. -/
theorem stored_known_served : ∃ (s : DeployedState) (row : DelegationRow), row ∈ s.world.1.delegations.rows ∧
    ∃ id e, s.Saw id (.inl .pollDelegations) e ∧ Stored e row ∧
      FoundOut deployed s id (.inl .pollDelegations) row.proposerPubkey true e.start := by
  obtain ⟨s,hr,rows,_⟩ := Deployed.deployed_served
  have hrow : (newDelegationOf (delegation 2 own 5)).row 0 ∈ s.world.1.delegations.rows := by
    rw [rows]
    exact List.mem_cons_self
  exact ⟨s,_,hrow,stored_known deployed hr hrow (fun _ h => by cases h)⟩

/-- A cleanup switches a delegation off only when its slot is over by the clock, or after it has itself looked its
proposer up and found it slashed or not active: an endpoint had reported so, no longer before the lookup than a status
may be kept. -/
theorem off_known (d : Deployment P) (hr : Reachable d.system (w₀, .empty) s) {row : DelegationRow}
    (hrow : row ∈ s.world.1.delegations.rows) (off : row.isActive = false)
    (absent : ∀ r ∈ w₀.delegations.rows, r.key ≠ row.key) :
    ∃ id e, s.Saw id (.inl .cleanupExpiredDelegations) e ∧ SwitchedOff e row ∧
      ((∃ now : UInt64, 1000 * now.toNat ≤ e.start ∧
          row.slotNumber < (BeaconTiming.currentSlotEstimate d.config.beaconApi.genesisTime now).toInt64) ∨
        FoundOut d s id (.inl .cleanupExpiredDelegations) row.proposerPubkey false e.start) := by
  obtain ⟨s',reached,simulates⟩ := Deployment.simulated hr
  have hrow' := hrow
  rw [← simulates.world] at hrow'
  obtain ⟨id,e,older,saw,seen,grounds,⟨statement,sql⟩,before,r,hr',same,inactive⟩ :=
    Grounds.off_grounds reached hrow' off absent
  have moved : e.pre ≠ e.post := by
    intro still
    rw [← still] at hr'
    rw [before r hr' same] at inactive
    cases inactive
  obtain ⟨o,seen_o,start,pre,post⟩ := Deployment.direct_moved simulates saw (Deployment.carry_sql sql) moved
  refine ⟨id,o,seen_o,⟨?_,r,?_,same,inactive⟩,?_⟩
  · rw [pre]
    exact before
  · rw [post]
    exact hr'
  · rw [start]
    rcases grounds with ⟨slot,ended,now,⟨a,b,w,w',told⟩,current⟩ | unfit
    · rw [current] at ended
      obtain ⟨sees,early⟩ := seen _ told
      obtain ⟨shown,_⟩ := Answers.now (server_event reached sees).2.1
      dsimp only at shown early
      exact .inl ⟨now,by omega,ended⟩
    · exact .inr (Deployment.judged_looked_up hr simulates seen unfit)

/-- A cleanup in the same slot, when an endpoint reports the proposer slashed. -/
def deployedCleanup : DeployedScene where
  job := .inl .cleanupExpiredDelegations
  time := 61000
  choices := [(.inl .done, 61000),(.inl .done, 61000),(.inl (.delegations (polled offer)), 61000),(.inr .done, 61000),
    page (statusPage true) 61000,(.inr .done, 61000),(.inl .done, 61000)]

/-- The delegation of the poll, when it is switched off. -/
def offRow : DelegationRow := { (newDelegationOf (delegation 2 own 5)).row 0 with isActive := false }

theorem deployed_cleaned : ∃ s : DeployedState, Reachable deployed.system (.empty _, .empty) s ∧
    s.world.1.delegations.rows = [offRow] ∧ s.clock = 61000 := by
  have plays : (deployed.system.script [deployedPoll, deployedCleanup] (.empty _, .empty) 0).any (fun out =>
      out.2.1.1.delegations.rows = [offRow] && out.2.2 = 61000) = true := by
    decide +kernel
  obtain ⟨s,hr,hp⟩ := @reach_of_deployed _ (fun w t => w.1.delegations.rows = [offRow] && t = 61000) plays
  simp only [Bool.and_eq_true,decide_eq_true_eq] at hp
  exact ⟨s,hr,hp⟩

/-- The slot is not over: it was the report that switched the delegation off. -/
theorem off_known_slashed : ∃ (s : DeployedState) (row : DelegationRow), row ∈ s.world.1.delegations.rows ∧
    ∃ id e, s.Saw id (.inl .cleanupExpiredDelegations) e ∧ SwitchedOff e row ∧
      FoundOut deployed s id (.inl .cleanupExpiredDelegations) row.proposerPubkey false e.start := by
  obtain ⟨s,hr,rows,clock⟩ := deployed_cleaned
  have hrow : offRow ∈ s.world.1.delegations.rows := by
    rw [rows]
    exact List.mem_cons_self
  obtain ⟨id,e,saw,off,⟨now,soon,ended⟩ | found⟩ := off_known deployed hr hrow rfl (fun _ h => by cases h)
  · obtain ⟨spans,past⟩ := hr.spans saw
    have early : now.toNat ≤ 61 := by omega
    have fifth : ∀ n ≤ 61, ¬ (5 : Int64) < (BeaconTiming.currentSlotEstimate 0 (.ofNat n)).toInt64 := by decide
    refine absurd ended ?_
    have := fifth now.toNat early
    rwa [UInt64.ofNat_toNat] at this
  · exact ⟨s,_,hrow,id,e,saw,off,found⟩

end PreconfGateway.Properties.DelegationGrounds
