import PreconfGateway.Fixture

/-! The two tests of the submission deadline: the window that a tick looks through, and what a
submission that was asked for directly has left. -/
namespace PreconfGateway.Properties.DeadlineTests
open Encoding Types Db Crypto Interleaving Services Fixture
variable {P : Platform}

/-- The submission is turned away as past its deadline. -/
def elapsed (slot : UInt64) : Result String :=
  bail ("Constraint submission deadline elapsed for slot " ++ toString slot)

/-- The requests of an exchange with the relay. -/
def Exchange (q : Query P) : Prop := (∃ m, q = .postConstraints m) ∨ ∃ ms, q = .sleep ms

/-- The tests give one answer at a time, and what is not turned away is given a positive rest of whole seconds,
up to the deadline. -/
structure Agree (genesisTime slot now : UInt64) (es : Trace P) (r : Result String) : Prop where
  same : BeaconTiming.isWithinConstraintWindow genesisTime slot now = true ↔ r ≠ elapsed slot
  rest : r ≠ elapsed slot → ∃ started remaining, Told es .instant started ∧ started / 1000 = now.toNat ∧
    0 < remaining ∧ now.toNat + remaining = (BeaconTiming.constraintDeadlineForSlot genesisTime slot).toNat ∧
      ∀ e ∈ es, Exchange e.op.query → e.op = .within (started + remaining * 1000) e.op.query

/-- Inside a timeout every request has its deadline. -/
theorem timeoutAt_within {α : Type} {okq : Query P → Prop} {deadline : Nat} {p : Async P α} {post : α → Prop}
    (h : p.Obeys (fun op : Op P => ∃ q, op = .plain q ∧ okq q) post) :
    (timeoutAt deadline p).Obeys (fun op : Op P => op = .within deadline op.query ∧ okq op.query)
      (fun r => ∀ a, r = some a → post a) := by
  induction p with
  | ret a =>
    intro b hb
    cases hb
    exact h
  | call op k ih =>
    obtain ⟨⟨q,rfl,ok⟩,rest⟩ := h
    rw [timeoutAt]
    refine ⟨⟨rfl,ok⟩,fun r => ?_⟩
    cases r with
    | none =>
      intro a ha
      cases ha
    | some r => exact ih r (rest r)

section Before
variable {between : World P → World P → Prop} {limits : Limits} {relay : ConstraintsApiConfig} {config : Config P}
  {slot : UInt64} {m : SignedConstraints} {w w' : World P} {t t' : Nat} {es : Trace P}
  {r : Result Api.ConstraintSubmissionResponse}

/-- What the relay is asked within the timeout. -/
private theorem exchange_obeys (deadline : Nat) : (timeoutAt deadline (Api.submitConstraints P relay m)).Obeys
    (fun op : Op P => op = .within deadline op.query ∧ Exchange op.query) (fun _ => True) := by
  have plain : (Api.submitConstraints P relay m).Obeys (fun op : Op P => ∃ q, op = .plain q ∧ Exchange q) (fun _ => True) :=
    submitLoop_obeys ⟨_,rfl,.inl ⟨m,rfl⟩⟩ (fun ms => ⟨_,rfl,.inr ⟨ms,rfl⟩⟩)
  exact (timeoutAt_within plain).mono (fun _ h => h) (fun _ _ => trivial)

private theorem failed_ne {slot : UInt64} {e : Chain} :
    "Failed to submit constraint to API" :: e ≠ ["Constraint submission deadline elapsed for slot " ++ toString slot] := by
  intro h
  have heads := congrArg String.toList (List.cons.inj h).1
  rw [String.toList_append] at heads
  cases heads

/-- A submission reads the clock once, and what it then has left ends at the deadline. -/
theorem submitBefore_run
    (h : Run (world P limits relay) between (ConstraintSubmission.submitBefore config slot m) w t es r w' t') :
    ∃ now, (∀ now', Told es .now now' → now' = now) ∧
      ((now ≥ BeaconTiming.constraintDeadlineForSlot config.beaconApi.genesisTime slot ∧
          r = bail ("Constraint submission deadline elapsed for slot " ++ toString slot)) ∨
        (now < BeaconTiming.constraintDeadlineForSlot config.beaconApi.genesisTime slot ∧
          r ≠ bail ("Constraint submission deadline elapsed for slot " ++ toString slot) ∧
            ∃ started, Told es .instant started ∧ started / 1000 = now.toNat ∧
              ∀ e ∈ es, Exchange e.op.query → e.op = .within (started +
                (BeaconTiming.constraintDeadlineForSlot config.beaconApi.genesisTime slot - now).toNat * 1000) e.op.query)) := by
  obtain ⟨_,u,now,_,rest,rfl,_,_,_,answers,h⟩ := run_ask h
  obtain ⟨shown,_⟩ := Answers.now answers
  refine ⟨now,?_⟩
  split at h
  · rename_i late
    obtain ⟨rfl,rfl,_⟩ := h.ret_inv
    refine ⟨fun now' told => ?_,.inl ⟨late,rfl⟩⟩
    rcases told_here.mp told with same | told
    · exact same.symm
    · exact absurd told told_nil
  · rename_i early
    obtain ⟨_,u',started,_,rest,rfl,_,later,inTime,answers',h⟩ := run_ask h
    obtain ⟨rfl,_⟩ := Answers.instant answers'
    -- the timer is read in the moment of the clock
    have same : started = u := Nat.le_antisymm (inTime _ rfl) later
    obtain ⟨es₁,answer,_,_,es₂,rfl,hexchange,hend⟩ := h.bind_inv
    have within := (hexchange.obeys (exchange_obeys _)).1
    obtain ⟨rfl,result⟩ : es₂ = [] ∧ r ≠ bail ("Constraint submission deadline elapsed for slot " ++ toString slot) := by
      rcases answer with _ | (e | response)
      all_goals
        obtain ⟨rfl,rfl,_⟩ := hend.ret_inv
        refine ⟨rfl,?_⟩
      · exact fun h => nomatch (List.cons.inj (Except.error.inj h)).2
      · exact fun h => failed_ne (Except.error.inj h)
      · nofun
    rw [List.append_nil]
    refine ⟨fun now' told => ?_,.inr ⟨UInt64.not_le.mp early,result,started,?_,?_,?_⟩⟩
    · rcases told_here.mp told with same | told
      · exact same.symm
      · rw [told_other (by nofun)] at told
        refine absurd told (told_never fun e he clock => ?_)
        rcases (within e he).2 with ⟨_,h⟩ | ⟨_,h⟩ <;> cases h.symm.trans clock
    · exact (told_other (by nofun)).mpr (told_here.mpr (.inl rfl))
    · rw [same,shown]
    · intro e he exchange
      rcases List.mem_cons.mp he with rfl | he
      · rcases exchange with ⟨_,h⟩ | ⟨_,h⟩ <;> cases h
      · rcases List.mem_cons.mp he with rfl | he
        · rcases exchange with ⟨_,h⟩ | ⟨_,h⟩ <;> cases h
        · exact (within e he).1

end Before

section Submit
variable {between : World P → World P → Prop} {limits : Limits} {relay : ConstraintsApiConfig} {config : Config P}
  {blsManager : BlsManager} {slot : UInt64} {payload : Bytes} {committer : String} {w w' : World P} {t t' : Nat}
  {es : Trace P} {r : Result String} {now : UInt64}

private theorem map_error {α β : Type} {f : α → β} {r : Result α} {e : Chain} : r.map f = .error e ↔ r = .error e := by
  cases r <;> simp [Except.map]

/-- A call that reads the clock has got as far as its submission. -/
theorem submit_reaches
    (h : Run (world P limits relay) between (ConstraintSubmission.submitConstraint blsManager config slot payload committer)
      w t es r w' t') (told : Told es .now now) :
    ∃ m first es' submitted w₁ t₁, es = first ++ es' ∧ (∀ e ∈ first, e.op.query = .sql (.selectDelegations slot.toInt64)) ∧
      Run (world P limits relay) between (ConstraintSubmission.submitBefore config slot m) w₁ t₁ es' submitted w' t' ∧
        ∀ e, r = .error e ↔ submitted = .error e := by
  unfold ConstraintSubmission.submitConstraint at h
  split at h
  · obtain ⟨rfl,_⟩ := h.ret_inv
    exact absurd told told_nil
  · obtain ⟨first,found,w₁,t₁,es',rfl,hget,hrest⟩ := h.bind_inv
    have only : (getDelegationsForSlot P slot).Obeys (fun op : Op P => op.query = .sql (.selectDelegations slot.toInt64))
      (fun _ => True) := getDelegationsForSlot_obeys rfl
    have read := (hget.obeys only).1
    have silent : ∀ e ∈ first, e.op.query ≠ .now := by
      intro e he clock
      cases (read e he).symm.trans clock
    rw [told_append _ silent] at told
    rcases found with e | delegations
    · obtain ⟨rfl,_⟩ := hrest.ret_inv
      exact absurd told told_nil
    · dsimp only at hrest
      split at hrest
      · obtain ⟨rfl,_⟩ := hrest.ret_inv
        exact absurd told told_nil
      · split at hrest
        · obtain ⟨rfl,_⟩ := hrest.ret_inv
          exact absurd told told_nil
        · rename_i m _
          obtain ⟨es₁,submitted,_,_,es₂,rfl,hsubmit,hend⟩ := hrest.bind_inv
          obtain ⟨rfl,rfl,rfl,rfl⟩ := hend.ret_inv
          exact ⟨m,first,es₁,submitted,w₁,t₁,by rw [List.append_nil],read,hsubmit,fun e => map_error⟩

end Submit

/-- The window and the submission agree about a time exactly if it is not the second of the deadline. -/
theorem deadline_tests_agree_iff (blsManager : BlsManager) (config : Config P)
    {between : World P → World P → Prop} {limits : Limits} {relay : ConstraintsApiConfig} {slot now : UInt64}
    {payload : Bytes} {committer : String} {w w' : World P} {t t' : Nat} {es : Trace P} {r : Result String}
    (h : Run (world P limits relay) between (ConstraintSubmission.submitConstraint blsManager config slot payload committer)
      w t es r w' t') (told : Told es .now now) :
    Agree config.beaconApi.genesisTime slot now es r ↔
      now ≠ BeaconTiming.constraintDeadlineForSlot config.beaconApi.genesisTime slot := by
  obtain ⟨m,first,es',submitted,_,_,rfl,read,hsubmit,errors⟩ := submit_reaches h told
  have silent {q : Query P} (hq : q ≠ .sql (.selectDelegations slot.toInt64)) : ∀ e ∈ first, e.op.query ≠ q := by
    intro e he same
    exact hq (same.symm.trans (read e he))
  obtain ⟨now',once,cases_⟩ := submitBefore_run hsubmit
  obtain rfl : now = now' := once now ((told_append _ (silent (by nofun))).mp told)
  have window : BeaconTiming.isWithinConstraintWindow config.beaconApi.genesisTime slot now = true ↔
      now ≤ BeaconTiming.constraintDeadlineForSlot config.beaconApi.genesisTime slot := decide_eq_true_iff
  rcases cases_ with ⟨late,late_⟩ | ⟨early,early_,started,start,second,within⟩
  · -- at the deadline itself the window is open still
    have turned : r = elapsed slot := (errors _).mpr late_
    constructor
    · rintro ⟨same,_⟩ rfl
      exact same.mp (window.mpr (UInt64.le_refl _)) turned
    · intro other
      refine ⟨⟨fun open_ => absurd (UInt64.le_antisymm (window.mp open_) late) other,fun h => absurd turned h⟩,
        fun h => absurd turned h⟩
  · have given : r ≠ elapsed slot := mt (errors _).mp early_
    have less := UInt64.lt_iff_toNat_lt.mp early
    have rest := UInt64.toNat_sub_of_le _ _ (UInt64.le_of_lt early)
    constructor
    · rintro _ rfl
      exact UInt64.lt_irrefl _ early
    · intro _
      refine ⟨⟨fun _ => given,fun _ => window.mpr (UInt64.le_of_lt early)⟩,fun _ => ⟨started,
        (BeaconTiming.constraintDeadlineForSlot config.beaconApi.genesisTime slot - now).toNat,
        (told_append _ (silent (by nofun))).mpr start,second,?_,?_,?_⟩⟩
      · omega
      · omega
      · intro e he exchange
        rcases List.mem_append.mp he with he | he
        · rcases exchange with ⟨_,post⟩ | ⟨_,pause⟩
          · cases post.symm.trans (read e he)
          · cases pause.symm.trans (read e he)
        · exact within e he exchange

/-- A submission for the fifth slot, whose deadline is in the second 68, at this time. -/
def submitAt (t : Nat) (answers : List (Choice × Nat)) : Option (Trace (platform offer) × Result String × World (platform offer) × Nat) :=
  small.machine.play ([(.delegations (polled offer), t), (.done, t)] ++ answers)
    (ConstraintSubmission.submitConstraint small.blsManager small.config 5 (payload 5 7) own) stored t

/-- Whether the clock was read, and the call ended like this. -/
def readAt (now : UInt64) (r : Result String) (out : Trace (platform offer) × Result String × World (platform offer) × Nat) : Bool :=
  out.2.1 = r && out.1.any (fun e =>
    match e with
    | ⟨.plain .now, shown, _, _, _, _⟩ => shown = now
    | _ => false)

private theorem readAt_run {t : Nat} {answers : List (Choice × Nat)} {now : UInt64} {r : Result String}
    (h : (submitAt t answers).any (readAt now r) = true) : ∃ es w' t',
    Run small.machine Eq (ConstraintSubmission.submitConstraint small.blsManager small.config 5 (payload 5 7) own)
      stored t es r w' t' ∧ Told es .now now := by
  obtain ⟨⟨es,r',w',t'⟩,hplay,hp⟩ := (Option.any_eq_true _ _).mp h
  simp only [readAt,Bool.and_eq_true,decide_eq_true_eq] at hp
  obtain ⟨rfl,clock⟩ := hp
  obtain ⟨e,he,shown⟩ := List.any_eq_true.mp clock
  refine ⟨es,w',t',Machine.play_run _ hplay,?_⟩
  split at shown
  · rename_i same start stop pre post
    obtain rfl := of_decide_eq_true shown
    exact ⟨_,_,_,_,he⟩
  · cases shown

/-- A second before the deadline the relay still takes the message. -/
theorem deadline_tests_agree_before : ∃ es r w' t',
    Run small.machine Eq (ConstraintSubmission.submitConstraint small.blsManager small.config 5 (payload 5 7) own)
      stored 67000 es r w' t' ∧ Agree 0 5 67 es r := by
  have run : (submitAt 67000 [(.done, 67000), (.posted (.ok ⟨200, none⟩) true, 67500)]).any
      (readAt 67 (.ok "ConstraintSubmissionResponse { status: 200 }")) = true := by
    decide +kernel
  obtain ⟨es,w',t',run,told⟩ := readAt_run run
  exact ⟨es,_,w',t',run,(deadline_tests_agree_iff small.blsManager small.config run told).mpr (by decide)⟩

/-- In the second of the deadline the window is open, and the submission is turned away. -/
theorem deadline_second_differs : ∃ es w' t',
    Run small.machine Eq (ConstraintSubmission.submitConstraint small.blsManager small.config 5 (payload 5 7) own)
      stored 68000 es (elapsed 5) w' t' ∧ Told es .now 68 ∧
        BeaconTiming.isWithinConstraintWindow 0 5 68 = true ∧ ¬ Agree 0 5 68 es (elapsed 5) := by
  have run : (submitAt 68000 []).any (readAt 68 (elapsed 5)) = true := by
    decide +kernel
  obtain ⟨es,w',t',run,told⟩ := readAt_run run
  have open_ : BeaconTiming.isWithinConstraintWindow 0 5 68 = true := by decide
  exact ⟨es,w',t',run,told,open_,fun agree => agree.same.mp open_ rfl⟩

end PreconfGateway.Properties.DeadlineTests
