import PreconfGateway.Interleaving.Latency
import PreconfGateway.Properties.FeeQuotes
import PreconfGateway.Times

/-! How long a call can take from its start to its answer, with every party as slow as it may be and
whatever else goes on in the gateway. -/
namespace PreconfGateway.Properties.CallTimes
open Encoding Types Db Interleaving Api Rpc Services Fixture
variable {P : Platform} {limits : Limits} {relay : ConstraintsApiConfig} {α : Type} {t last : Nat}

section Programs
variable {config : Config P}

theorem ends_asked {q : Query P} {f : q.Reply → Async P α}
    (h : ∀ r, (f r).Ends (world P limits relay) last (t + q.limit limits relay)) : (ask q >>= f).Ends (world P limits relay) last t :=
  timely_asked (fun _ _ => trivial) h

theorem ends_ret {a : α} (h : t ≤ last) : (pure a : Async P α).Ends (world P limits relay) last t := h

/-- A record is opened, and read where it had been there. -/
theorem getOrCreate_ends {slot base limit genesis : UInt64} :
    (getOrCreateSlotCongestion (P := P) slot base limit genesis).Ends (world P limits relay) (t + 2 * limits.db) t := by
  unfold getOrCreateSlotCongestion
  dsimp only
  split
  · exact ends_ret (Nat.le_add_right _ _)
  · split
    · exact ends_ret (Nat.le_add_right _ _)
    · refine ends_asked fun r => ?_
      dsimp only [Query.limit]
      rcases r with e | new
      · exact ends_ret (by omega)
      · cases new with
        | true => exact ends_ret (by omega)
        | false =>
          have read : (getSlotCongestion (P := P) slot).Ends (world P limits relay) (t + 2 * limits.db) (t + limits.db) := by
            refine ends_asked fun r => ?_
            dsimp only [Query.limit]
            rcases r with e | row
            · exact ends_ret (by omega)
            · cases row <;> exact ends_ret (by omega)
          refine read.bind fun r => ?_
          rcases r with e | found
          · exact ends_ret (Nat.le_refl _)
          · cases found <;> exact ends_ret (Nat.le_refl _)

theorem calculateFee_ends {commitmentType slot : UInt64} {payload : Bytes} :
    (FeePricing.calculateFeeForCommitment config commitmentType payload slot).Ends (world P limits relay)
      (t + limits.reth + 2 * limits.db) t := by
  refine ends_asked fun r => ?_
  dsimp only [Query.limit]
  rcases r with e | info
  · exact ends_ret (Nat.le_add_right _ _)
  · dsimp only [Except.mapError]
    split
    · exact ends_ret (Nat.le_add_right _ _)
    · refine getOrCreate_ends.bind fun r => ?_
      rcases r with e | record <;> exact ends_ret (Nat.le_refl _)

theorem storeCommitment_ends {request : CommitmentRequest} {slot : UInt64} {sc : SignedCommitment} :
    (storeCommitment config request slot sc).Ends (world P limits relay) (t + limits.reth + 4 * limits.db) t := by
  have saved : (saveCommitment P sc).Ends (world P limits relay) (t + limits.db) t := by
    unfold saveCommitment
    split
    · exact ends_ret (Nat.le_add_right _ _)
    · refine ends_asked fun r => ?_
      dsimp only [Query.limit]
      rcases r with e | id <;> exact ends_ret (Nat.le_refl _)
  refine saved.bind fun r => ?_
  rcases r with e | found
  · exact ends_ret (by omega)
  · cases found with
    | none => exact ends_ret (by omega)
    | some id =>
      refine calculateFee_ends.bind fun r => ?_
      rcases r with e | fee
      · cases e <;> exact ends_ret (by omega)
      · have applied : (FeePricing.applyGasUsageToSlot config slot fee.estimatedGas).Ends (world P limits relay)
            (t + limits.reth + 4 * limits.db) (t + limits.db + limits.reth + 2 * limits.db) := by
          refine ends_asked fun r => ?_
          dsimp only [Query.limit]
          rcases r with e | row
          · exact ends_ret (by omega)
          · cases row <;> exact ends_ret (by omega)
        refine applied.bind fun r => ?_
        rcases r with e | record
        · cases e <;> exact ends_ret (Nat.le_refl _)
        · exact ends_ret (Nat.le_refl _)

theorem requestHandler_ends {params : Option CommitmentRequest} :
    (commitmentRequestHandler config params).Ends (world P limits relay) (t + limits.beacon + limits.reth + 6 * limits.db) t := by
  cases params with
  | none => exact ends_ret (by omega)
  | some request =>
    rw [commitmentRequestHandler_split]
    refine authoriseRequest_timely.bind fun r => ?_
    rcases r with e | ⟨slot,sc⟩
    · exact ends_ret (by omega)
    · exact storeCommitment_ends.mono (Nat.le_refl _) (by omega)

theorem resultHandler_ends {params : Option String} :
    (commitmentResultHandler P params).Ends (world P limits relay) (t + limits.db) t := by
  cases params with
  | none => exact ends_ret (Nat.le_add_right _ _)
  | some hash =>
    have read : (getCommitmentByHash P hash).Ends (world P limits relay) (t + limits.db) t := by
      refine ends_asked fun r => ?_
      dsimp only [Query.limit]
      rcases r with e | row
      · exact ends_ret (Nat.le_refl _)
      · cases row <;> exact ends_ret (Nat.le_refl _)
    refine read.bind fun r => ?_
    rcases r with e | row
    · exact ends_ret (Nat.le_refl _)
    · cases row <;> exact ends_ret (Nat.le_refl _)

theorem feeHandler_ends {params : Option CommitmentRequest} :
    (feeHandler config params).Ends (world P limits relay) (t + limits.reth + 2 * limits.db) t := by
  cases params with
  | none => exact ends_ret (by omega)
  | some request =>
    unfold feeHandler
    dsimp only
    split
    · exact ends_ret (by omega)
    · split
      · exact ends_ret (by omega)
      · have acceptable (slot : UInt64) : (FeePricing.isSlotAcceptableForFees config slot).Ends (world P limits relay) t t :=
          ends_asked fun _ => ends_ret (Nat.le_refl _)
        refine (acceptable _).bind fun a => ?_
        split
        · refine calculateFee_ends.bind fun r => ?_
          rcases r with e | fee
          · cases e <;> exact ends_ret (Nat.le_refl _)
          · exact ends_ret (Nat.le_refl _)
        · exact ends_ret (by omega)

theorem world_prompt (op : Op P) (t : Nat) : (world P limits relay).InTime t op t := by
  rintro bound same
  cases op <;> cases same
  · exact Nat.le_add_right _ _
  · exact Nat.le_max_left _ _

theorem world_answered (op : Op P) : Nonempty op.Reply := by
  have plain (q : Query P) : Nonempty q.Reply := by
    cases q with
    | sql s => exact ⟨.error ⟨.begun, ""⟩⟩
    | sleep ms => exact ⟨()⟩
    | now => exact ⟨0⟩
    | instant => exact ⟨0⟩
    | _ => exact ⟨.error ""⟩
  cases op with
  | plain q => exact plain q
  | within deadline q => exact ⟨none⟩

/-- A timeout makes nothing longer. -/
theorem timeoutAt_ends {p : Async P α} {post : α → Prop} {deadline : Nat} (plain : p.Obeys (fun op : Op P => ∃ q, op = .plain q) post)
    (h : p.Ends (world P limits relay) last t) : (timeoutAt deadline p).Ends (world P limits relay) last t := by
  induction p generalizing t with
  | ret a => exact h
  | call op k ih =>
    obtain ⟨⟨q,rfl⟩,rest⟩ := plain
    obtain ⟨_,next,bound,ends⟩ := h
    rw [timeoutAt]
    refine ⟨fun _ _ => trivial,next,fun since u early inTime => ?_,fun r => ?_⟩
    · have capped := inTime _ rfl
      have whole := bound since (since + q.limit limits relay) early fun b hb => by cases hb; exact Nat.le_refl _
      omega
    · cases r with
      | some r => exact ih r (rest r) (ends r)
      | none =>
        obtain ⟨r⟩ := world_answered (.plain q)
        exact (ends r).le world_prompt world_answered

/-- A submission at once: its delegations, and every attempt with its pause. -/
theorem submitConstraint_ends {manager : Crypto.BlsManager} {slot : UInt64} {payload : Bytes} {committer : String} :
    (ConstraintSubmission.submitConstraint manager config slot payload committer).Ends (world P limits config.constraintsApi)
      (t + limits.db + attemptsMs config.constraintsApi (maxAttempts config.constraintsApi) 0) t := by
  unfold ConstraintSubmission.submitConstraint
  split
  · exact ends_ret (by omega)
  · refine (getDelegationsForSlot_timely (fun _ _ => trivial)).bind fun r => ?_
    rcases r with e | delegations
    · exact ends_ret (Nat.le_add_right _ _)
    · dsimp only
      split
      · exact ends_ret (Nat.le_add_right _ _)
      · split
        · exact ends_ret (Nat.le_add_right _ _)
        · rename_i m _
          have before : (ConstraintSubmission.submitBefore config slot m).Ends (world P limits config.constraintsApi)
              (t + limits.db + attemptsMs config.constraintsApi (maxAttempts config.constraintsApi) 0) (t + limits.db) := by
            refine ends_asked fun now => ?_
            dsimp only [Query.limit]
            split
            · exact ends_ret (Nat.le_add_right _ _)
            · refine ends_asked fun started => ?_
              dsimp only [Query.limit]
              have looped : (submitConstraints P config.constraintsApi m).Obeys (fun op : Op P => ∃ q, op = .plain q) (fun _ => True) :=
                submitLoop_obeys ⟨_,rfl⟩ fun _ => ⟨_,rfl⟩
              have timed : (submitConstraints P config.constraintsApi m).Ends (world P limits config.constraintsApi)
                  (t + limits.db + attemptsMs config.constraintsApi (maxAttempts config.constraintsApi) 0) (t + limits.db) :=
                submitLoop_timely (fun _ _ _ => trivial) fun _ _ => trivial
              refine (timeoutAt_ends looped timed).bind fun r => ?_
              rcases r with _ | (e | response) <;> exact ends_ret (Nat.le_refl _)
          exact before.bind fun _ => ends_ret (Nat.le_refl _)

end Programs

section Calls
variable (d : Deployment P)

/-- The longest that a call can take; the jobs of the schedulers have no such bound. -/
def callMs : Entry → Option Nat
  | .inl (.commitmentRequest _) => some (d.limits.beacon + d.limits.reth + 6 * d.limits.db)
  | .inl (.commitmentResult _) => some d.limits.db
  | .inl (.submitConstraintNow _ _ _) =>
    some (d.limits.db + attemptsMs d.config.constraintsApi (maxAttempts d.config.constraintsApi) 0)
  | .inr (.fee _) => some (d.limits.reth + 2 * d.limits.db)
  | .inr .slots => some 0
  | .inr .refreshGasPrice => some d.limits.reth
  | _ => none

theorem entry_ends {entry : Entry} {ms : Nat} (call : callMs d entry = some ms) (t : Nat) :
    (d.server.code entry).Ends d.machine (t + ms) t := by
  cases entry with
  | inl j =>
    cases j with
    | commitmentRequest params =>
      cases call
      exact (requestHandler_ends.bind fun _ => ends_ret (by omega)).bind fun _ => ends_ret (Nat.le_refl _)
    | commitmentResult params =>
      cases call
      exact (resultHandler_ends.bind fun _ => ends_ret (Nat.le_refl _)).bind fun _ => ends_ret (Nat.le_refl _)
    | submitConstraintNow slot payload committer =>
      cases call
      exact (submitConstraint_ends.bind fun _ => ends_ret (by omega)).bind fun _ => ends_ret (Nat.le_refl _)
    | _ => cases call
  | inr k =>
    cases k with
    | fee params =>
      cases call
      exact (feeHandler_ends.bind fun _ => ends_ret (by omega)).bind fun _ => ends_ret (Nat.le_refl _)
    | slots | refreshGasPrice =>
      cases call
      exact Program.Timely.bind (ends_asked fun _ => ends_ret (Nat.le_refl _)) fun _ => ends_ret (Nat.le_refl _)

/-- Each request is carried out in the time that it is counted with. -/
theorem carry_ends (op : Op P) (t next : Nat) (bound : ∀ since u, since ≤ t → d.machine.InTime since op u → u ≤ next) :
    (d.carry op).Ends (d.machine.sum (Nodes.machine d.clients.limits)) next t := by
  have client {β γ : Type} {p : Nodes.Client β} {f : β → γ} {ms : Nat} (timely : p.Timely (Nodes.machine d.clients.limits) always (t + ms) t)
      (fits : t + ms ≤ next) : (p.right >>= fun r => .ret (f r) : Program (Deployment.Both P) γ).Ends
        (d.machine.sum (Nodes.machine d.clients.limits)) next t :=
    (Program.Ends.right (timely.ends.mono (Nat.le_refl _) fits)).bind fun _ => Nat.le_refl _
  have whole {ms : Nat} (latest : d.machine.latest t op = some (t + ms)) : t + ms ≤ next := by
    refine bound t _ (Nat.le_refl _) fun b hb => ?_
    rw [latest] at hb
    cases hb
    exact Nat.le_refl _
  have direct : (Program.request (S := Deployment.Both P) (.inl op)).Ends (d.machine.sum (Nodes.machine d.clients.limits)) next t :=
    ⟨fun _ _ => trivial,next,bound,fun _ => Nat.le_refl _⟩
  cases op with
  | within deadline q => exact direct
  | plain q =>
    cases q with
    | proposerForSlot slot =>
      exact client proposerForSlot_timely (Nat.le_trans (Nat.add_le_add_left d.beacon t) (whole rfl))
    | validatorStatus pubkey =>
      exact client validatorStatus_timely (Nat.le_trans (Nat.add_le_add_left d.status t) (whole rfl))
    | gasPrice => exact client gasPrice_timely (Nat.le_trans (Nat.add_le_add_left d.reth t) (whole rfl))
    | _ => exact direct

/-- Whatever else goes on, a call has its answer within its time, with all the requests of its clients,
and is at work no longer. The timeouts and retries in this time are configured; what it counts for a request
to the database is assumed, since the code sets no timeout for one. -/
theorem call_in_time {v₀ : Deployment.Whole P} {s : State (Deployment.Both P) (Deployment.Whole P) Entry Ending}
    (hr : Reachable d.system v₀ s) {id : Nat} {task : Task (Deployment.Both P) (Deployment.Whole P) Entry Ending}
    (ht : s.tasks id = some task) {ms : Nat} (call : callMs d task.job = some ms) :
    (∀ ending, task.program = .ret ending → task.since ≤ task.began + ms) ∧ (task.Running → s.clock ≤ task.began + ms) := by
  refine hr.in_time ?_ ?_ ht fun t => (entry_ends d call t).expand (carry_ends d)
  · rintro (op | request) t
    · exact world_prompt op t
    · exact Nodes.prompt _ request t
  · rintro (op | request)
    · exact world_answered op
    · exact Nodes.answered request

end Calls

theorem call_in_time_quoted : ∃ (s : DeployedState) (task : _), s.tasks 0 = some task ∧
    task.job = .inr (.fee (some (request 5 7 own))) ∧ task.since ≤ task.began + 3000 := by
  obtain ⟨s,task,hr,ht,fee,answered,_⟩ := FeeQuotes.deployed_quoted
  have call : callMs deployed task.job = some 3000 := by
    rw [fee]
    rfl
  exact ⟨s,task,ht,fee,(call_in_time deployed hr ht call).1 _ answered⟩

end PreconfGateway.Properties.CallTimes
