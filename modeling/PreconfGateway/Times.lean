import PreconfGateway.Interleaving.Punctual
import PreconfGateway.Rpc.Stages

/-! How long the gateway's programs can take, with every party as slow as it may be. -/
namespace PreconfGateway
open Encoding Types Db Crypto Interleaving Rpc Services
variable {P : Platform} {limits : Limits} {relay : ConstraintsApiConfig} {α : Type}
  {due : Op P → Nat → Prop} {last t : Nat}

/-- The deadline of a slot has not passed by the clock, which shows whole seconds. -/
def Gateway.Open (g : Gateway P) (slot : UInt64) (t : Nat) : Prop :=
  t / 1000 ≤ (BeaconTiming.constraintDeadlineForSlot g.config.beaconApi.genesisTime slot).toNat

instance (g : Gateway P) (slot : UInt64) (t : Nat) : Decidable (g.Open slot t) :=
  inferInstanceAs (Decidable (_ ≤ _))

theorem timely_ret {a : α} (h : t ≤ last) :
    Program.Timely (world P limits relay) due last (pure a : Async P α) t := h

theorem timely_asked {q : Query P} {f : q.Reply → Async P α} (hd : ∀ u ≤ t, due (.plain q) u)
    (hf : ∀ r, (f r).Timely (world P limits relay) due last (t + q.limit limits relay)) :
    (ask q >>= f).Timely (world P limits relay) due last t := by
  refine ⟨hd,t + q.limit limits relay,?_,hf⟩
  intro since u hs hin
  have hb := hin _ rfl
  omega

theorem getDelegationsForSlot_timely {slot : UInt64}
    (hd : ∀ u ≤ t, due (.plain (.sql (.selectDelegations slot.toInt64))) u) :
    (getDelegationsForSlot P slot).Timely (world P limits relay) due (t + limits.db) t := by
  refine timely_asked hd fun r => ?_
  cases r <;> exact timely_ret (Nat.le_refl _)

theorem checkDelegations_timely {config : Config P} {slot : UInt64} {committer : String}
    {ds : List SignedDelegation} :
    (checkDelegations config slot committer ds).Timely (world P limits relay) (fun _ _ => True)
      (t + limits.beacon) t := by
  unfold checkDelegations
  split
  · exact timely_ret (Nat.le_add_right _ _)
  · split
    · exact timely_ret (Nat.le_add_right _ _)
    · exact timely_asked (fun _ _ => trivial) fun r => timely_ret (Nat.le_refl _)

/-- Two reads of the database and one of the beacon chain come before the signature. -/
theorem authoriseRequest_timely {config : Config P} {request : CommitmentRequest} :
    (authoriseRequest config request).Timely (world P limits relay) (fun _ _ => True)
      (t + limits.db + limits.db + limits.beacon) t := by
  unfold authoriseRequest
  split
  · exact timely_ret (by omega)
  · rename_i slot hash _
    refine timely_asked (fun _ _ => trivial) fun r => ?_
    simp only [Query.limit]
    rcases r with e | found
    · exact timely_ret (by omega)
    · cases found
      · have authority : (verifyDelegationAuthority config slot request.slasher).Timely (world P limits relay)
            (fun _ _ => True) (t + limits.db + limits.db + limits.beacon) (t + limits.db) := by
          rw [verifyDelegationAuthority_split]
          refine (getDelegationsForSlot_timely (fun _ _ => trivial)).bind fun r => ?_
          rcases r with e | ds
          · exact timely_ret (by omega)
          · exact checkDelegations_timely
        refine authority.bind fun r => ?_
        rcases r with e | committer <;> exact timely_ret (Nat.le_refl _)
      · exact timely_ret (by omega)

/-- The time for some attempts of a submission, each with its full pause. -/
def attemptsMs (relay : ConstraintsApiConfig) : Nat → Nat → Nat
  | 0, _ => 0
  | left + 1, attempt =>
    relay.requestTimeoutSecs.toNat * 1000 + Api.backoffMs (attempt + 1) + attemptsMs relay left (attempt + 1)

theorem judge_delay {attempt delay : Nat} {reply : Except String HttpResponse} {e : Chain}
    (h : Api.judge P attempt reply = .retry (some delay) e) : delay = Api.backoffMs attempt := by
  unfold Api.judge at h
  repeat' split at h
  all_goals cases h <;> rfl

/-- The last of the attempts starts when the others are over. -/
theorem submitLoop_timely {m : SignedConstraints} {left attempt : Nat} {lastError : Option Chain}
    (post : left ≠ 0 → ∀ u ≤ t + attemptsMs relay (left - 1) attempt, due (.plain (.postConstraints m)) u)
    (pause : ∀ ms u, due (.plain (.sleep ms)) u) :
    (Api.submitLoop P m left attempt lastError).Timely (world P limits relay) due
      (t + attemptsMs relay left attempt) t := by
  induction left generalizing attempt lastError t with
  | zero => exact timely_ret (Nat.le_refl _)
  | succ left ih =>
    have first : ∀ u ≤ t, due (.plain (.postConstraints m)) u :=
      fun u hu => post (Nat.succ_ne_zero left) u (Nat.le_trans hu (Nat.le_add_right _ _))
    have again (lastError : Option Chain) :
        (Api.submitLoop P m left (attempt + 1) lastError).Timely (world P limits relay) due
          (t + attemptsMs relay (left + 1) attempt)
          (t + relay.requestTimeoutSecs.toNat * 1000 + Api.backoffMs (attempt + 1)) := by
      refine (ih ?_).mono (Nat.le_refl _) (by simp only [attemptsMs]; omega)
      intro others u hu
      refine post (Nat.succ_ne_zero left) u ?_
      obtain ⟨more,rfl⟩ := Nat.exists_eq_succ_of_ne_zero others
      simp only [Nat.succ_eq_add_one,Nat.add_sub_cancel,attemptsMs] at hu ⊢
      omega
    have enough : t + relay.requestTimeoutSecs.toNat * 1000 ≤ t + attemptsMs relay (left + 1) attempt := by
      simp only [attemptsMs]
      omega
    refine timely_asked first fun r => ?_
    split
    · exact timely_ret enough
    · exact timely_ret enough
    · exact (again _).mono (Nat.le_add_right _ _) (Nat.le_refl _)
    · rename_i delay e hj
      rw [judge_delay hj]
      exact timely_asked (fun u _ => pause _ u) fun _ => again _

/-- Processing one delegation: reading the batch, every attempt, and the mark. -/
def Gateway.delegationMs (g : Gateway P) : Nat :=
  g.limits.db + attemptsMs g.config.constraintsApi (Api.maxAttempts g.config.constraintsApi) 0 + g.limits.db

/-- How long after the delegations of a slot are known, n of them to the own key, its last attempt can start. -/
def Gateway.lastPostMs (g : Gateway P) (n : Nat) : Nat :=
  (n - 1) * g.delegationMs + g.limits.db +
    attemptsMs g.config.constraintsApi (Api.maxAttempts g.config.constraintsApi - 1) 0

theorem markCommitmentsAsProcessed_timely {hashes : List String}
    (hd : ∀ u, due (.plain (.sql (.updateProcessed hashes))) u) :
    (markCommitmentsAsProcessed P hashes).Timely (world P limits relay) due (t + limits.db) t := by
  unfold markCommitmentsAsProcessed
  split
  · exact timely_ret (Nat.le_add_right _ _)
  · exact timely_asked (fun u _ => hd u) fun _ => timely_ret (Nat.le_refl _)

section Tick
variable {g : Gateway P} {slot : UInt64}

/-- The messages for one slot are due until its deadline, and nothing else is ever late. -/
def Gateway.Due (g : Gateway P) (op : Op P) (t : Nat) : Prop :=
  ∀ m, op.query = .postConstraints m → g.Open m.message.slot t

theorem processDelegationConstraints_timely {d : SignedDelegation}
    (own : d.message.delegate = g.config.signing.blsPublicKey)
    (opened : g.Open slot (t + g.limits.db +
      attemptsMs g.config.constraintsApi (Api.maxAttempts g.config.constraintsApi - 1) 0)) :
    (ConstraintSubmission.processDelegationConstraints g.blsManager g.config d slot).Timely g.machine g.Due
      (t + g.delegationMs) t := by
  have read : (ConstraintSubmission.createConstraintsFromCommitments P slot d.message.committer).Timely
      g.machine g.Due (t + g.limits.db) t := by
    unfold ConstraintSubmission.createConstraintsFromCommitments getUnprocessedCommitmentsForSlot
    split
    · exact timely_ret (Nat.le_add_right _ _)
    · rw [bind_assoc]
      refine timely_asked (fun _ _ _ => nofun) fun r => ?_
      cases r with
      | error e => exact timely_ret (Nat.le_refl _)
      | ok rows =>
        rw [pure_bind]
        cases rows.mapM signedCommitmentOf <;> exact timely_ret (Nat.le_refl _)
  refine read.bind fun r => ?_
  rcases r with e | ⟨constraints,hashes⟩
  · exact timely_ret (by unfold Gateway.delegationMs; omega)
  · dsimp only
    split
    · exact timely_ret (by unfold Gateway.delegationMs; omega)
    · split
      · exact timely_ret (by unfold Gateway.delegationMs; omega)
      · rename_i m hm
        obtain ⟨_,_,hslot,_⟩ := buildSignedConstraints_issued own hm
        have posted : (Api.submitConstraints P g.config.constraintsApi m).Timely g.machine g.Due
            (t + g.limits.db + attemptsMs g.config.constraintsApi (Api.maxAttempts g.config.constraintsApi) 0)
            (t + g.limits.db) := by
          refine submitLoop_timely ?_ (fun _ _ _ => nofun)
          intro _ u hu m' he
          cases he
          rw [hslot]
          exact Nat.le_trans (Nat.div_le_div_right hu) opened
        refine posted.bind fun r => ?_
        rcases r with e | response
        · exact timely_ret (by unfold Gateway.delegationMs; omega)
        · refine (markCommitmentsAsProcessed_timely (fun _ _ => nofun)).bind fun _ => timely_ret ?_
          unfold Gateway.delegationMs
          omega

/-- The delegations of a slot to the own key. -/
def ownDelegations (config : Config P) (ds : List SignedDelegation) : List SignedDelegation :=
  ds.filter (fun d => d.message.delegate = config.signing.blsPublicKey)

theorem processDelegations_timely {ds : List SignedDelegation}
    (opened : ownDelegations g.config ds ≠ [] →
      g.Open slot (t + g.lastPostMs (ownDelegations g.config ds).length)) :
    (ConstraintSubmission.processDelegations g.blsManager g.config slot ds).Timely g.machine g.Due
      (t + (ownDelegations g.config ds).length * g.delegationMs) t := by
  induction ds generalizing t with
  | nil => exact timely_ret (Nat.le_add_right _ _)
  | cons d ds ih =>
    unfold ConstraintSubmission.processDelegations
    split
    · rename_i own
      have mine : ownDelegations g.config (d :: ds) = d :: ownDelegations g.config ds := by
        simp [ownDelegations,own]
      rw [mine] at opened ⊢
      have now := opened (List.cons_ne_nil _ _)
      simp only [List.length_cons,Gateway.lastPostMs,Nat.add_sub_cancel] at now ⊢
      have first := processDelegationConstraints_timely (t := t) own (Nat.le_trans (Nat.div_le_div_right (by omega)) now)
      refine first.bind fun _ => (ih ?_).mono (Nat.le_refl _) (by rw [Nat.succ_mul]; omega)
      intro others
      obtain ⟨more,hn⟩ := Nat.exists_eq_succ_of_ne_zero (List.length_eq_zero_iff.not.mpr others)
      rw [hn] at now ⊢
      simp only [Gateway.lastPostMs,Nat.succ_eq_add_one,Nat.add_sub_cancel,Nat.succ_mul] at now ⊢
      refine Nat.le_trans (Nat.div_le_div_right ?_) now
      omega
    · rename_i other
      have same : ownDelegations g.config (d :: ds) = ownDelegations g.config ds := by
        simp [ownDelegations,other]
      rw [same] at opened ⊢
      exact ih opened

end Tick

/-- Inside a timeout nothing starts after it. -/
theorem timeoutAt_timely {p : Async P α} {post : α → Prop} {deadline : Nat} (ht : t ≤ deadline)
    (h : p.Obeys (fun op : Op P => ∃ q, op = .plain q ∧ ∀ u ≤ deadline, due (.within deadline q) u) post) :
    (timeoutAt deadline p).Timely (world P limits relay) due deadline t := by
  induction p generalizing t with
  | ret a => exact timely_ret ht
  | call op k ih =>
    obtain ⟨⟨q,rfl,hd⟩,hk⟩ := h
    rw [timeoutAt]
    refine ⟨fun u hu => hd u (Nat.le_trans hu ht),deadline,?_,fun r => ?_⟩
    · intro since u hs hin
      have bound := hin _ rfl
      omega
    · cases r with
      | none => exact timely_ret (Nat.le_refl _)
      | some r => exact ih r (Nat.le_refl _) (hk r)

end PreconfGateway
