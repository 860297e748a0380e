import PreconfGateway.Properties.Authorisation
import PreconfGateway.Times

/-! The handler looks at no clock. A commitment is stored in time when the beacon client
names the proposer early enough for the slowest insert. -/
namespace PreconfGateway.Properties.CommitmentDeadline
open Encoding Types Db Crypto Interleaving Rpc Services Fixture
variable {P : Platform} {g : Gateway P}

/-- When the beacon client names the proposer of the delegation that the lookup of a call has met, an insert
can still end before the deadline of the slot. -/
def Prompt (g : Gateway P) (job : Job) (tr : Trace P) (e : Event (requests P) (World P)) : Prop :=
  ∀ request slot d duty t u w w', job = .commitmentRequest (some request) →
    Authorisation.Matched tr slot request.slasher d →
      e = ⟨.plain (.proposerForSlot slot), .ok (some duty), t, u, w, w'⟩ →
        duty.parsePubkey = .ok d.message.proposer → g.Open slot (u + g.limits.db)

/-- No insert of a commitment takes effect after the deadline of its slot. -/
def OnTime (g : Gateway P) (e : Event (requests P) (World P)) : Prop :=
  ∀ new slot, e.op.query = .sql (.insertCommitment new) →
    PayloadParser.extractSlot P 1 new.payload = .ok slot → g.Open slot e.stop

abbrev onTime (g : Gateway P) (job : Job) : Contract (requests P) (World P) :=
  Gateway.schedule (Prompt g job) (fun _ => OnTime g) (fun _ _ => True)

theorem silent_onTime {α : Type} {post : α → Prop} {p : Async P α} {job : Job}
    (hp : p.Obeys (fun op : Op P => ∀ new, op.query ≠ .sql (.insertCommitment new)) post) {tr : Trace P}
    {w : World P} {t : Nat} : (onTime g job).Safe g.machine (fun _ _ _ _ => True) p tr w t := by
  have harmless : ∀ (tr : Trace P) (e : Event (requests P) (World P)),
      (∀ new, e.op.query ≠ .sql (.insertCommitment new)) → (onTime g job).guarantee tr e :=
    fun _ _ he => ⟨fun new _ hq => absurd hq (he new),trivial⟩
  exact (Contract.Safe.of_obeys (C := onTime g job) hp (fun _ _ _ _ _ => ⟨trivial,trivial⟩) harmless).mono (fun _ _ _ _ _ => trivial)

section Calls
variable {request : CommitmentRequest} {slot : UInt64} {tr : Trace P} {w : World P} {t : Nat}

theorem checkDelegations_onTime {ds : List SignedDelegation}
    (matched : ∀ d, findDelegation slot request.slasher ds = some d → Authorisation.Matched tr slot request.slasher d) :
    (onTime g (.commitmentRequest (some request))).Safe g.machine
      (fun _ r _ u => ∀ c, r = .ok c → g.Open slot (u + g.limits.db))
      (checkDelegations g.config slot request.slasher ds) tr w t := by
  unfold checkDelegations
  split
  · intro c h
    cases h
  · rename_i d found
    split
    · intro c h
      cases h
    · refine Gateway.safe_request ⟨trivial,trivial⟩ fun w₁ u duty w₂ _ _ _ _ _ prompt => ?_
      refine ⟨⟨fun _ _ => nofun,trivial⟩,?_⟩
      intro c hc
      have checked : checkProposer slot d duty = .ok () := by
        cases h : checkProposer slot d duty with
        | error e =>
          rw [h] at hc
          cases hc
        | ok _ => rfl
      obtain ⟨named,rfl,key⟩ := (checkProposer_ok slot).mp checked
      exact prompt request slot d named t u w₁ w₂ rfl (matched d found) rfl key

/-- The lookup authorises only while an insert can still end before the deadline. -/
theorem verifyDelegationAuthority_onTime :
    (onTime g (.commitmentRequest (some request))).Safe g.machine
      (fun _ r _ u => ∀ c, r = .ok c → g.Open slot (u + g.limits.db))
      (verifyDelegationAuthority g.config slot request.slasher) tr w t := by
  rw [verifyDelegationAuthority_split]
  unfold getDelegationsForSlot
  rw [bind_assoc]
  refine Gateway.safe_request ⟨trivial,trivial⟩ fun w₁ u r w₂ _ _ _ _ _ _ => ⟨⟨fun _ _ => nofun,trivial⟩,?_⟩
  rcases r with e | rows
  · intro c h
    cases h
  · cases read : rows.mapM signedDelegationOf with
    | error e =>
      simp only [read]
      intro c h
      cases h
    | ok ds =>
      simp only [read]
      refine checkDelegations_onTime fun d found => ?_
      exact ⟨rows,ds,t,u,w₁,w₂,List.mem_cons_self,read,found⟩

/-- A request is authorised only while its insert can still end before the deadline. -/
theorem authoriseRequest_onTime :
    (onTime g (.commitmentRequest (some request))).Safe g.machine
      (fun _ r _ u => ∀ slot sc, r = .ok (slot, sc) → g.Open slot (u + g.limits.db))
      (authoriseRequest g.config request) tr w t := by
  unfold authoriseRequest
  split
  · intro slot sc h
    cases h
  · rename_i slot hash _
    refine Gateway.safe_request ⟨trivial,trivial⟩ fun _ _ r _ _ _ _ _ _ _ => ⟨⟨fun _ _ => nofun,trivial⟩,?_⟩
    rcases r with e | found
    · intro slot sc h
      cases h
    · cases found
      · refine verifyDelegationAuthority_onTime.bind fun _ r _ u opened => ?_
        rcases r with e | committer
        · intro slot sc h
          cases h
        · intro slot' sc h
          have same : slot' = slot := by
            cases hs : signRequest g.config request hash committer with
            | error e => simp [hs,Except.map] at h
            | ok sc' =>
              simp only [hs,Except.map,Except.ok.injEq,Prod.mk.injEq] at h
              exact h.1.symm
          rw [same]
          exact opened committer rfl
      · intro slot sc h
        cases h

theorem storeCommitment_onTime {sc : SignedCommitment} {job : Job} (signed : Signed g.config request slot sc)
    (room : g.Open slot (t + g.limits.db)) :
    (onTime g job).Safe g.machine (fun _ _ _ _ => True) (storeCommitment g.config request slot sc) tr w t := by
  unfold storeCommitment
  rw [saveCommitment_one P (by rw [signed.commitment])]
  refine Gateway.safe_request ⟨trivial,trivial⟩ fun w₁ u r w₂ _ _ _ inTime _ _ => ⟨⟨?_,trivial⟩,?_⟩
  · intro new slot' hq hslot
    cases hq
    have same : slot' = slot := by
      rw [newCommitmentOf,signed.commitment] at hslot
      exact Except.ok.inj (hslot.symm.trans signed.slot_eq)
    have bound : u ≤ t + g.limits.db := inTime _ rfl
    rw [same]
    exact Nat.le_trans (Nat.div_le_div_right bound) room
  · rcases r with e | found
    · exact trivial
    · cases found with
      | none => exact trivial
      | some id =>
        refine silent_onTime (accountGas_obeys ?_ ?_ ?_ ?_)
        all_goals
          intros
          intro clash
          cases clash

end Calls

theorem deadline_verified (g : Gateway P) :
    Verified g.system (fun job => (onTime g job).assuming) World.Evolves (fun _ _ _ _ _ => True) := by
  refine Gateway.verified_assuming (Q := fun _ _ _ _ _ => True) ?_
  intro j t w
  have idle {j : Job} (hj : ∀ params, j ≠ .commitmentRequest params) :
      (onTime g j).Safe g.machine (fun _ _ _ _ => True) (g.code j) [] w t := by
    refine silent_onTime ((g.code_obeys j).mono ?_ (fun _ h => h))
    intro op ha new hn
    rw [hn] at ha
    cases ha with
    | insertCommitment params => exact hj params rfl
  cases j with
  | commitmentRequest params =>
    cases params with
    | none => exact trivial
    | some request =>
      change (onTime g _).Safe g.machine _ (commitmentRequestHandler g.config (some request) >>= _) [] w t
      rw [commitmentRequestHandler_split]
      have names : (authoriseRequest g.config request).Obeys (fun _ => True)
          (fun r => ∀ slot sc, r = .ok (slot, sc) → Signed g.config request slot sc) :=
        authoriseRequest_obeys (fun _ => trivial) (fun _ => trivial) (fun _ _ => trivial)
      rw [bind_assoc]
      refine (authoriseRequest_onTime.result names).bind fun tr r w' u ⟨opened,signed⟩ => ?_
      rcases r with e | ⟨slot,sc⟩
      · exact trivial
      · exact (storeCommitment_onTime (signed slot sc rfl) (opened slot sc rfl)).bind (fun _ _ _ _ _ => trivial)
  | _ => exact idle (by simp)

/-- A call to which the beacon client names the proposer of its delegation early enough, if it does so at all,
stores no commitment after the deadline of the slot, whatever runs beside it. -/
theorem no_late_commitment (g : Gateway P) {w₀ : World P} {s : State (requests P) (World P) Job Outcome}
    (hr : Reachable g.system w₀ s) {id : Nat} {task : Task (requests P) (World P) Job Outcome}
    (ht : s.tasks id = some task) (prompt : Contract.Met (Prompt g task.job) task.trace) :
    ∀ e ∈ task.trace, OnTime g e := by
  intro e he
  have sound := ((deadline_verified g).sound (fun _ => trivial) hr).tasks id task ht
  obtain ⟨newer,older,split,_,_,_,_,kept⟩ := sound.kept.mem he
  rw [split] at prompt
  exact (kept prompt.older).1

/-- The row that the request of a run adds is one of its inserts. -/
private theorem stored_event {t : Nat} {es : Trace (platform offer)}
    (stores : Run small.machine Eq (storeCommitment small.config (request 5 7 own) 5 signed)
      stored t es (.ok signed) served t) :
    ∃ e ∈ es, e.op.query = .sql (.insertCommitment (newCommitmentOf (platform offer) signed 1)) ∧ t ≤ e.stop := by
  unfold storeCommitment at stores
  rw [saveCommitment_one _ rfl,bind_assoc] at stores
  obtain ⟨_,_,_,_,_,rfl,_,later,_⟩ := run_ask stores
  exact ⟨_,List.mem_cons_self,rfl,later⟩

theorem slot_of_request : PayloadParser.extractSlot (platform offer) 1 (payload 5 7) = .ok 5 := by decide +kernel

/-- The request is served seven seconds before the deadline. -/
theorem no_late_commitment_served : ∃ s task e, Reachable small.system (.empty _) s ∧ s.tasks 1 = some task ∧
    Contract.Met (Prompt small task.job) task.trace ∧ e ∈ task.trace ∧
      e.op.query = .sql (.insertCommitment (newCommitmentOf (platform offer) signed 1)) ∧ OnTime small e := by
  obtain ⟨es,stores,_⟩ := Atomicity.store_signed
  obtain ⟨e,he,hq,_⟩ := stored_event stores
  obtain ⟨s,hr,_,_,clock,_,_,first,_,mine⟩ := Authorisation.reach_of_store (by decide) stores
  have prompt : Contract.Met (Prompt small (.commitmentRequest (some (request 5 7 own)))) (first ++ es).reverse := by
    apply Contract.met_of_mem
    rintro _ listed _ _ slot d duty t u w w' ⟨⟩ _ rfl _
    have saw : s.Saw 1 (.commitmentRequest (some (request 5 7 own)))
        ⟨.plain (.proposerForSlot slot), .ok (some duty), t, u, w, w'⟩ := ⟨_,mine,rfl,listed⟩
    have stop : u ≤ s.clock := hr.stop_le saw
    cases (reached_event hr saw).1 with
    | proposerForSlot _ _ named =>
      cases slot_of_request.symm.trans named
      have room : (u + 1000) / 1000 ≤ 68 := by omega
      exact room
  have listed : e ∈ (first ++ es).reverse := List.mem_reverse.mpr (List.mem_append_right _ he)
  exact ⟨s,_,e,hr,mine,prompt,listed,hq,no_late_commitment small hr mine prompt e listed⟩

/-- A second after the deadline the delegation is still active, and the commitment is stored. -/
theorem late_commitment : ∃ s id job e, Reachable small.system (.empty _) s ∧ s.world = served ∧ s.Saw id job e ∧
    ¬ OnTime small e := by
  obtain ⟨es,stores,_⟩ := Atomicity.store_of_play (t := 69000) (by decide +kernel)
  obtain ⟨e,he,hq,late⟩ := stored_event stores
  obtain ⟨s,hr,_,hw,_,_,_,first,_,mine⟩ := Authorisation.reach_of_store (by decide) stores
  refine ⟨s,1,_,e,hr,hw,⟨_,mine,rfl,List.mem_reverse.mpr (List.mem_append_right _ he)⟩,?_⟩
  intro onTime
  have opened : e.stop / 1000 ≤ 68 := onTime _ 5 hq slot_of_request
  omega

end PreconfGateway.Properties.CommitmentDeadline
