import PreconfGateway.Properties.DelegationGrounds
import PreconfGateway.Types.RelayEncoding

/-! Where the delegations of the table come from: each was in a reply of the relay. -/
namespace PreconfGateway.Properties.RelayGrounds
open Encoding Types Db Crypto Interleaving Api Services Fixture DelegationGrounds
variable {P : Platform} {d : Deployment P} {w₀ : World P} {s : State (Deployment.Both P) (Deployment.Whole P) Entry Ending}

/-- The relay listed the delegation in the JSON of a good reply, to a request about the slot that this task had made by
this time. -/
def Received (json : JsonText) (s : State (Deployment.Both P) (Deployment.Whole P) Entry Ending) (id : Nat)
    (slot : UInt64) (del : SignedDelegation) (t : Nat) : Prop :=
  ∃ (body : Bytes) (ds : List SignedDelegation) (start stop : Nat) (pre post : Deployment.Whole P),
    s.Saw id (.inl .pollDelegations) ⟨.inl (.plain (.getDelegations slot)), .ok ⟨200, some body⟩, start, stop, pre, post⟩ ∧
      stop ≤ t ∧ (json.parse body).bind DelegationsResponse.ofJson = some ds ∧ del ∈ ds

/-- A poll stores a delegation to the own key that its proposer has signed, as the relay has listed it in a reply to
this poll. -/
theorem stored_received (d : Deployment P) {json : JsonText} (reads : P.ReadsDelegations json)
    (hr : Reachable d.system (w₀, .empty) s) {row : DelegationRow} (hrow : row ∈ s.world.1.delegations.rows)
    (absent : ∀ r ∈ w₀.delegations.rows, r.key ≠ row.key) :
    ∃ id e slot del rowId, s.Saw id (.inl .pollDelegations) e ∧ Stored e row ∧ Received json s id slot del e.start ∧
      Acceptable d.config del ∧ ((newDelegationOf del).row rowId).Later row := by
  obtain ⟨s',reached,simulates⟩ := Deployment.simulated hr
  rw [← simulates.world] at hrow
  obtain ⟨id,e,news,new,rowId,saw,insert,listed,before,after,later⟩ := Grounds.stored_event reached hrow absent
  obtain ⟨_,_,older,grounded,seen⟩ := Grounds.reached_grounded reached saw
  obtain ⟨slot,del,rfl,acceptable,body,ds,⟨start,stop,w,w',told⟩,read,offered⟩ := grounded.offered news insert new listed
  have moved : e.pre ≠ e.post := by
    intro same
    refine before _ (by rw [same]; exact after) ?_
    rw [later.1]
    rfl
  obtain ⟨pre,post,stores,_,own⟩ := Deployment.direct_whole simulates saw (Deployment.carry_sql insert)
  obtain ⟨pre_eq,post_eq⟩ := own moved
  rw [← pre_eq] at before
  rw [← post_eq] at after
  obtain ⟨asks,early⟩ := seen _ told
  obtain ⟨pre',post',asked,_⟩ := Deployment.direct_whole simulates asks rfl
  have parsed := reads body
  rw [read] at parsed
  exact ⟨id,_,slot,del,rowId,stores,⟨before,_,after,later⟩,⟨body,ds,_,_,pre',post',asked,early,parsed.symm,offered⟩,
    acceptable,later⟩

/-- One text is read: the relay's list. -/
def relayText (offered : List SignedDelegation) : JsonText where
  parse body := (Json.readerOf [listing offered] body).toOption
  print := Json.printed

theorem relayText_reads (offered : List SignedDelegation) : (platform offered).ReadsDelegations (relayText offered) := by
  intro body
  by_cases listed : body = Json.printed (listing offered)
  · have read : Json.readerOf [listing offered] body = .ok (listing offered) := by
      rw [listed,Json.readerOf_printed]
    have accepted : (platform offered).delegationsResponseFromJson body = .ok offered := if_pos listed
    simp only [relayText,read,accepted]
    exact (DelegationsResponse.ofJson_object offered).symm
  · have unread : Json.readerOf [listing offered] body = .error "expected value at line 1 column 1" := by
      simp [Json.readerOf,Ne.symm listed]
    have refused : (platform offered).delegationsResponseFromJson body = .error "expected value at line 1 column 1" :=
      if_neg listed
    simp only [relayText,unread,refused]
    rfl

theorem stored_received_served : ∃ (s : DeployedState) (row : DelegationRow), row ∈ s.world.1.delegations.rows ∧
    ∃ id e slot del rowId, s.Saw id (.inl .pollDelegations) e ∧ Stored e row ∧
      Received (relayText offer) s id slot del e.start ∧ Acceptable deployed.config del ∧
      ((newDelegationOf del).row rowId).Later row := by
  obtain ⟨s,hr,rows,_⟩ := Deployed.deployed_served
  have hrow : (newDelegationOf (delegation 2 own 5)).row 0 ∈ s.world.1.delegations.rows := by
    rw [rows]
    exact List.mem_cons_self
  exact ⟨s,_,hrow,stored_received deployed (relayText_reads offer) hr hrow (fun _ h => by cases h)⟩

end PreconfGateway.Properties.RelayGrounds
