import PreconfGateway.Fixture

/-! Posting one message to a relay that answers each attempt as it likes: how often the client
tries, how long it pauses, and what it returns. -/
namespace PreconfGateway.Properties.ConstraintRetries
open Encoding Types Interleaving Fixture
variable {P : Platform}

/-- How one attempt went: a reply with any status, or a transport error. -/
abbrev Outcome := Except String HttpResponse

/-- The client does not try again: 200, 202, and 4xx other than 408 and 429. -/
def Final : Outcome → Prop
  | .ok response => response.status = 200 ∨ response.status = 202 ∨
      (400 ≤ response.status ∧ response.status < 500 ∧ response.status ≠ 408 ∧ response.status ≠ 429)
  | .error _ => False

/-- The pause after an attempt in milliseconds: for 429, 5xx other than 504, and transport errors. -/
def pauseAfter (attempt : Nat) : Outcome → Option Nat
  | .ok response =>
    if response.status = 429 ∨ (500 ≤ response.status ∧ response.status < 600 ∧ response.status ≠ 504)
    then some (min (100 * 2 ^ min attempt 10) 30000) else none
  | .error _ => some (min (100 * 2 ^ min attempt 10) 30000)

/-- The error that an unsuccessful attempt stands for. -/
def errorOf (P : Platform) : Outcome → Chain
  | .error e => [e]
  | .ok response =>
    if response.status = 429 then ["Rate limited"]
    else if response.status = 408 ∨ response.status = 504 then ["API timeout"]
    else Api.statusError P response

/-- Ok exactly for 200 and 202. -/
def resultOf (P : Platform) : Outcome → Result Api.ConstraintSubmissionResponse
  | .ok response => if response.status = 200 ∨ response.status = 202 then .ok ⟨response.status⟩ else .error (errorOf P (.ok response))
  | .error e => .error (errorOf P (.error e))

/-- The first attempt that is final, or the last one. -/
structure StopsAt (outcomes : Nat → Outcome) (attempts k : Nat) : Prop where
  one : 1 ≤ k
  within : k ≤ attempts
  before : ∀ i, 1 ≤ i → i < k → ¬ Final (outcomes i)
  ends : k = attempts ∨ Final (outcomes k)

/-- The requests of one attempt: the POST, and the pause if there is one. -/
def attemptOps (m : SignedConstraints) (outcomes : Nat → Outcome) (i : Nat) : List (Op P) :=
  .plain (.postConstraints m) :: ((pauseAfter i (outcomes i)).map (fun ms => .plain (.sleep ms))).toList

/-- What the relay has answered to the POSTs of a run, in order. -/
def postReplies : Trace P → List Outcome
  | [] => []
  | ⟨.plain (.postConstraints _), reply, _, _, _, _⟩ :: es => reply :: postReplies es
  | _ :: es => postReplies es

/-- The relay answers the attempts as the sequence says, from this attempt on. -/
def AnsweredFrom (first : Nat) (outcomes : Nat → Outcome) (es : Trace P) : Prop :=
  postReplies es = (List.range' first (postReplies es).length).map outcomes

theorem judge_final {attempt : Nat} {o : Outcome} (h : Final o) : pauseAfter attempt o = none ∧
    ((∃ response, Api.judge P attempt o = .accepted response ∧ resultOf P o = .ok response) ∨
      ∃ e, Api.judge P attempt o = .rejected e ∧ resultOf P o = .error e) := by
  cases o with
  | error e => exact h.elim
  | ok response =>
    unfold Final at h
    have calm : ¬ (response.status = 429 ∨ (500 ≤ response.status ∧ response.status < 600 ∧ response.status ≠ 504)) := by
      omega
    refine ⟨if_neg calm,?_⟩
    by_cases taken : response.status = 200 ∨ response.status = 202
    · refine .inl ⟨⟨response.status⟩,?_,if_pos taken⟩
      exact if_pos (by simpa only [HttpResponse.success,Bool.or_eq_true,decide_eq_true_eq] using taken)
    · refine .inr ⟨Api.statusError P response,?_,?_⟩
      · unfold Api.judge
        dsimp only
        rw [if_neg (by simpa only [HttpResponse.success,Bool.or_eq_true,decide_eq_true_eq] using taken),
          if_neg (by omega),if_neg (by omega),if_pos (by omega)]
      · unfold resultOf errorOf
        dsimp only
        rw [if_neg taken,if_neg (by omega),if_neg (by omega)]

theorem judge_retry {attempt : Nat} {o : Outcome} (h : ¬ Final o) :
    Api.judge P attempt o = .retry (pauseAfter attempt o) (errorOf P o) ∧ resultOf P o = .error (errorOf P o) := by
  cases o with
  | error e => exact ⟨rfl,rfl⟩
  | ok response =>
    unfold Final at h
    have untaken : ¬ (response.status = 200 ∨ response.status = 202) := by omega
    refine ⟨?_,if_neg untaken⟩
    unfold Api.judge
    dsimp only [errorOf,pauseAfter]
    rw [if_neg (by simpa only [HttpResponse.success,Bool.or_eq_true,decide_eq_true_eq] using untaken)]
    by_cases limited : response.status = 429
    · rw [if_pos limited,if_pos (.inl limited),if_pos limited]
      rfl
    · rw [if_neg limited,if_neg limited]
      by_cases late : response.status = 408 ∨ response.status = 504
      · rw [if_pos late,if_pos late,if_neg (by omega)]
      · rw [if_neg late,if_neg late,if_neg (by omega)]
        by_cases broken : 500 ≤ response.status ∧ response.status < 600
        · rw [if_pos broken,if_pos (by omega)]
          rfl
        · rw [if_neg broken,if_neg (by omega)]

section Loop
variable {limits : Limits} {relay : ConstraintsApiConfig} {between : World P → World P → Prop}
  {m : SignedConstraints} {outcomes : Nat → Outcome} {w w' : World P} {t t' : Nat} {es : Trace P}

theorem postReplies_append (es es' : Trace P) : postReplies (es ++ es') = postReplies es ++ postReplies es' := by
  induction es using postReplies.induct with
  | case1 => rfl
  | case2 m reply t u w w' es ih => exact congrArg (reply :: ·) ih
  | case3 e es other ih =>
    rw [List.cons_append,postReplies,postReplies,ih]
    · exact other
    · exact other

/-- One attempt: it is the last one when its outcome is final, and else the loop goes on. -/
theorem attempt_run {left attempt : Nat} {last : Option Chain} {r : Result Api.ConstraintSubmissionResponse}
    (h : Run (world P limits relay) between (Api.submitLoop P m (left + 1) attempt last) w t es r w' t') :
    ∃ (reply : Outcome) (first es₂ : Trace P), es = first ++ es₂ ∧ postReplies first = [reply] ∧
      first.map Event.op = attemptOps m (fun _ => reply) (attempt + 1) ∧
      ((Final reply ∧ es₂ = [] ∧ r = resultOf P reply) ∨
        (¬ Final reply ∧ resultOf P reply = .error (errorOf P reply) ∧ ∃ w₁ t₁,
          Run (world P limits relay) between (Api.submitLoop P m left (attempt + 1) (some (errorOf P reply)))
            w₁ t₁ es₂ r w' t')) := by
  obtain ⟨w₁,u,reply,w₂,rest,rfl,_,_,_,_,next⟩ := run_ask h
  refine ⟨reply,?_⟩
  unfold attemptOps
  by_cases final : Final reply
  · obtain ⟨calm,⟨response,verdict,result⟩ | ⟨e,verdict,result⟩⟩ := @judge_final P (attempt + 1) _ final
    all_goals
      rw [verdict] at next
      obtain ⟨rfl,rfl,_,_⟩ := next.ret_inv
      rw [calm]
      exact ⟨[_],[],rfl,rfl,rfl,.inl ⟨final,rfl,result.symm⟩⟩
  · obtain ⟨verdict,result⟩ := @judge_retry P (attempt + 1) _ final
    rw [verdict] at next
    cases pause : pauseAfter (attempt + 1) reply with
    | none =>
      rw [pause] at next
      exact ⟨[_],rest,rfl,rfl,rfl,.inr ⟨final,result,w₂,u,next⟩⟩
    | some ms =>
      rw [pause] at next
      obtain ⟨w₃,v,done,w₄,es₂,rfl,_,_,_,_,next⟩ := run_ask next
      exact ⟨[_,_],es₂,rfl,rfl,rfl,.inr ⟨final,result,w₄,v,next⟩⟩

/-- What is left of the sequence when the first attempt is over. -/
theorem AnsweredFrom.tail {first : Nat} {reply : Outcome} {es₂ : Trace P} (h : AnsweredFrom first outcomes es)
    (split : postReplies es = reply :: postReplies es₂) :
    reply = outcomes first ∧ AnsweredFrom (first + 1) outcomes es₂ := by
  unfold AnsweredFrom at h
  rw [split,List.length_cons,List.range'_succ,List.map_cons,List.cons.injEq] at h
  exact h

/-- The loop after some attempts: how many more there are, what they ask, and the result of the last. -/
theorem loop_run {left attempt : Nat} {last : Option Chain} {r : Result Api.ConstraintSubmissionResponse}
    (h : Run (world P limits relay) between (Api.submitLoop P m (left + 1) attempt last) w t es r w' t')
    (answered : AnsweredFrom (attempt + 1) outcomes es) : ∃ n, n ≤ left ∧
      (∀ i, attempt < i → i < attempt + n + 1 → ¬ Final (outcomes i)) ∧
      (n = left ∨ Final (outcomes (attempt + n + 1))) ∧
      postReplies es = (List.range' (attempt + 1) (n + 1)).map outcomes ∧
      es.map Event.op = (List.range' (attempt + 1) (n + 1)).flatMap (attemptOps m outcomes) ∧
      r = resultOf P (outcomes (attempt + n + 1)) := by
  induction left generalizing attempt last w t es with
  | zero =>
    obtain ⟨reply,first,es₂,rfl,replies,ops,outcome⟩ := attempt_run h
    have split : postReplies (first ++ es₂) = reply :: postReplies es₂ := by rw [postReplies_append,replies]; rfl
    obtain ⟨rfl,_⟩ := answered.tail split
    have ended : es₂ = [] ∧ r = resultOf P (outcomes (attempt + 1)) := by
      rcases outcome with ⟨_,ended,result⟩ | ⟨_,result,w₁,t₁,next⟩
      · exact ⟨ended,result⟩
      · obtain ⟨ended,rfl,_,_⟩ := next.ret_inv
        exact ⟨ended,result.symm⟩
    obtain ⟨rfl,rfl⟩ := ended
    refine ⟨0,Nat.le_refl 0,fun i hi hj => by omega,.inl rfl,split,?_,rfl⟩
    rw [List.append_nil,ops]
    exact (List.append_nil _).symm
  | succ left ih =>
    obtain ⟨reply,first,es₂,rfl,replies,ops,outcome⟩ := attempt_run h
    have split : postReplies (first ++ es₂) = reply :: postReplies es₂ := by rw [postReplies_append,replies]; rfl
    obtain ⟨rfl,others⟩ := answered.tail split
    rcases outcome with ⟨final,rfl,rfl⟩ | ⟨retried,_,w₁,t₁,next⟩
    · refine ⟨0,Nat.zero_le _,fun i hi hj => by omega,.inr final,split,?_,rfl⟩
      rw [List.append_nil,ops]
      exact (List.append_nil _).symm
    · obtain ⟨n,le,before,ends,replies₂,ops₂,result⟩ := ih next others
      have shift : attempt + 1 + n + 1 = attempt + (n + 1) + 1 := by omega
      rw [shift] at before ends result
      refine ⟨n + 1,Nat.succ_le_succ le,?_,?_,?_,?_,result⟩
      · intro i hi hj
        rcases Nat.eq_or_lt_of_le hi with rfl | later
        · exact retried
        · exact before i later hj
      · exact ends.imp_left (congrArg (· + 1))
      · rw [split,replies₂]
        rfl
      · rw [List.map_append,ops,ops₂]
        rfl

/-- The relay can answer the loop by any sequence. -/
theorem loop_meets (outcomes : Nat → Outcome) (left attempt : Nat) (last : Option Chain) :
    ∃ es r w', Run (world P limits relay) Eq (Api.submitLoop P m left attempt last) w t es r w' t ∧
      AnsweredFrom (attempt + 1) outcomes es := by
  induction left generalizing attempt last w with
  | zero => exact ⟨[],_,w,.ret _ _ _,rfl⟩
  | succ left ih =>
    have answers : ∃ v, (world P limits relay).Answers t w (.plain (.postConstraints m)) (outcomes (attempt + 1)) v :=
      ⟨_,.posted _ false,rfl⟩
    obtain ⟨v,answers⟩ := answers
    by_cases final : Final (outcomes (attempt + 1))
    · have ending : Run (world P limits relay) Eq (Api.submitLoop P m (left + 1) attempt last) w t
          [⟨.plain (.postConstraints m), outcomes (attempt + 1), t, t, w, v⟩] (resultOf P (outcomes (attempt + 1))) v t := by
        refine ask_step answers ?_
        obtain ⟨_,⟨response,verdict,result⟩ | ⟨e,verdict,result⟩⟩ := @judge_final P (attempt + 1) _ final
        all_goals
          rw [verdict,result]
          exact .ret _ _ _
      exact ⟨_,_,v,ending,rfl⟩
    · obtain ⟨verdict,_⟩ := @judge_retry P (attempt + 1) _ final
      obtain ⟨es,r,w',others,answered⟩ := @ih v (attempt + 1) (some (errorOf P (outcomes (attempt + 1))))
      have next : ∃ es', Run (world P limits relay) Eq (Api.submitLoop P m (left + 1) attempt last) w t es' r w' t ∧
          postReplies es' = outcomes (attempt + 1) :: postReplies es := by
        cases pause : pauseAfter (attempt + 1) (outcomes (attempt + 1)) with
        | none =>
          refine ⟨⟨.plain (.postConstraints m), outcomes (attempt + 1), t, t, w, v⟩ :: es,ask_step answers ?_,rfl⟩
          rw [verdict,pause]
          exact others
        | some ms =>
          refine ⟨⟨.plain (.postConstraints m), outcomes (attempt + 1), t, t, w, v⟩ ::
            ⟨.plain (.sleep ms), (), t, t, v, v⟩ :: es,ask_step answers ?_,rfl⟩
          rw [verdict,pause]
          exact ask_step ⟨.done,rfl⟩ others
      obtain ⟨es',run,replies⟩ := next
      refine ⟨es',r,w',run,?_⟩
      unfold AnsweredFrom at answered ⊢
      rw [replies,List.length_cons,List.range'_succ,List.map_cons,← answered]

/-- Whatever the relay answers, the message is posted once for each attempt up to the first final
outcome, or as often as the configuration says, and the last of these outcomes is the result. -/
theorem submit_retries (config : ConstraintsApiConfig) (m : SignedConstraints) (outcomes : Nat → Outcome)
    (w : World P) (t : Nat) :
    (∃ es r w', Run (world P limits relay) Eq (Api.submitConstraints P config m) w t es r w' t ∧
      AnsweredFrom 1 outcomes es) ∧
    ∀ (between : World P → World P → Prop) (es : Trace P) (r : Result Api.ConstraintSubmissionResponse) (w' : World P)
      (t' : Nat), Run (world P limits relay) between (Api.submitConstraints P config m) w t es r w' t' →
      AnsweredFrom 1 outcomes es → ∃ k, StopsAt outcomes (max 1 config.maxRetries) k ∧ (postReplies es).length = k ∧
        es.map Event.op = (List.range' 1 k).flatMap (attemptOps m outcomes) ∧ r = resultOf P (outcomes k) := by
  refine ⟨loop_meets outcomes _ 0 none,?_⟩
  intro between es r w' t' h answered
  obtain ⟨left,enough⟩ := Nat.exists_eq_add_of_le' (Nat.le_max_left 1 config.maxRetries)
  have attempts : Api.maxAttempts config = left + 1 := enough
  rw [Api.submitConstraints,attempts] at h
  obtain ⟨n,le,before,ends,replies,ops,result⟩ := loop_run h answered
  rw [Nat.zero_add] at before ends replies ops result
  refine ⟨n + 1,⟨Nat.succ_pos n,by omega,before,?_⟩,?_,ops,result⟩
  · rw [enough]
    exact ends.imp_left (congrArg (· + 1))
  · rw [replies,List.length_map,List.length_range']

end Loop

/-- Too many requests at first, then accepted. -/
def busyOnce (attempt : Nat) : Outcome := if attempt = 1 then .ok ⟨429, none⟩ else .ok ⟨202, none⟩

/-- A message without constraints. -/
def idle : SignedConstraints := ⟨⟨key 2, key 1, 5, [], []⟩, ⟨List.replicate 96 0, List.length_replicate⟩⟩

theorem submit_retries_busy : ∃ es w', Run small.machine Eq
      (Api.submitConstraints (platform offer) small.config.constraintsApi idle) (.empty _) 0 es (.ok ⟨202⟩) w' 0 ∧
    es.map Event.op = [.plain (.postConstraints idle),.plain (.sleep 200),.plain (.postConstraints idle)] := by
  obtain ⟨⟨es,r,w',run,answered⟩,all⟩ := @submit_retries _ small.limits small.config.constraintsApi
    small.config.constraintsApi idle busyOnce (.empty _) 0
  obtain ⟨k,stops,_,ops,rfl⟩ := all Eq es r w' 0 run answered
  have retried : ¬ Final (busyOnce 1) := by simp [busyOnce,Final]
  have second : k = 2 := by
    have within_ : k ≤ 2 := stops.within
    have one := stops.one
    rcases stops.ends with last | final
    · exact last
    · by_contra other
      have first : k = 1 := by omega
      rw [first] at final
      exact retried final
  subst second
  exact ⟨es,w',run,ops⟩

end PreconfGateway.Properties.ConstraintRetries
