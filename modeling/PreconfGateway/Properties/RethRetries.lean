import PreconfGateway.Api.Reth

/-! One call to the execution node, whose replies come in any sequence: how often the client posts,
and what it returns. -/
namespace PreconfGateway.Properties.RethRetries
open Encoding Types Interleaving Api.Reth

abbrev Reply := Except String HttpResponse

/-- The node gives its replies in order; the state counts them. -/
def node (replies : Nat → Reply) : Handler requests Nat
  | n, .post _ => (replies (n + 1), n + 1)
  | n, .sleep _ => ((), n)

/-- The payloads that were posted, in order. -/
def posts : List Request → List Json
  | [] => []
  | .post payload :: ops => payload :: posts ops
  | .sleep _ :: ops => posts ops

section Call
variable (J : JsonLibrary) (maxRetries : UInt32) (payload : Json) (replies : Nat → Reply)

/-- A success status with a JSON body that has no error member. -/
def Answers (v : Json) : Reply → Prop
  | .ok response => isSuccess response ∧ json J response = .ok v ∧ get v "error" = none
  | .error _ => False

/-- A success status with a JSON body that has an error member. -/
def Refuses : Reply → Prop
  | .ok response => isSuccess response ∧ ∃ v e, json J response = .ok v ∧ get v "error" = some e
  | .error _ => False

/-- A transport error, another status, or a body that is not JSON. -/
def Retryable : Reply → Prop
  | .ok response => ¬ isSuccess response ∨ ∃ e, json J response = .error e
  | .error _ => True

/-- The first answer within the attempts is returned, a refusal ends the call at once, and there is
at least one attempt and no more than allowed. -/
structure Meets : Prop where
  answers : ∀ v, ((makeRpcCall J maxRetries payload).handled (node replies) 0).2.1 = .ok v ↔
    ∃ i, 1 ≤ i ∧ i ≤ max 1 maxRetries.toNat ∧ Answers J v (replies i) ∧ ∀ j, 1 ≤ j → j < i → Retryable J (replies j)
  stops : ∀ i, 1 ≤ i → i ≤ max 1 maxRetries.toNat → Refuses J (replies i) → (∀ j, 1 ≤ j → j < i → Retryable J (replies j)) →
    posts ((makeRpcCall J maxRetries payload).handled (node replies) 0).1 = List.replicate i payload ∧
      ∃ e, ((makeRpcCall J maxRetries payload).handled (node replies) 0).2.1 = .error e
  least : 1 ≤ (posts ((makeRpcCall J maxRetries payload).handled (node replies) 0).1).length
  most : (posts ((makeRpcCall J maxRetries payload).handled (node replies) 0).1).length ≤ max 1 maxRetries.toNat

variable {J}

theorem answers_iff {v : Json} {reply : Reply} : Answers J v reply ↔ outcome J reply = some (.ok v) := by
  cases reply with
  | error e => exact ⟨False.elim,nofun⟩
  | ok response =>
    by_cases success : isSuccess response
    · cases parsed : json J response with
      | error e => simp [Answers,outcome,success,parsed]
      | ok value =>
        cases member : get value "error" with
        | none =>
          simp only [Answers,outcome,success,parsed,member,if_true,true_and,Option.some.injEq,Except.ok.injEq]
          exact ⟨And.left,fun h => ⟨h,h ▸ member⟩⟩
        | some e =>
          simp only [Answers,outcome,success,parsed,member,if_true,true_and,Except.ok.injEq]
          exact ⟨fun h => (Option.some_ne_none e (member.symm.trans (h.1 ▸ h.2))).elim,nofun⟩
    · simp [Answers,outcome,success]

theorem refuses_iff {reply : Reply} : Refuses J reply ↔ ∃ e, outcome J reply = some (.error e) := by
  cases reply with
  | error e => exact ⟨False.elim,nofun⟩
  | ok response =>
    by_cases success : isSuccess response
    · cases parsed : json J response with
      | error e => simp [Refuses,outcome,success,parsed]
      | ok value => cases member : get value "error" <;> simp [Refuses,outcome,success,parsed,member,bail]
    · simp [Refuses,outcome,success]

theorem retryable_iff {reply : Reply} : Retryable J reply ↔ outcome J reply = none := by
  cases reply with
  | error e => exact ⟨fun _ => rfl,fun _ => trivial⟩
  | ok response =>
    by_cases success : isSuccess response
    · cases parsed : json J response with
      | error e => simp [Retryable,outcome,success,parsed]
      | ok value => cases member : get value "error" <;> simp [Retryable,outcome,success,parsed,member]
    · simp [Retryable,outcome,success]

section Loop
variable {J : JsonLibrary} {maxRetries : UInt32} {payload : Json} {replies : Nat → Reply}

theorem loop_decided {left attempts : Nat} {result : Result Json} (h : outcome J (replies (attempts + 1)) = some result) :
    (retryLoop J payload maxRetries (left + 1) attempts).handled (node replies) attempts =
      ([.post payload],result,attempts + 1) := by
  apply (Program.handled_request (node replies) attempts (.post payload) _).trans
  dsimp only [node]
  rw [h]
  rfl

/-- A pause changes neither the posts nor the result. -/
theorem loop_undecided {left attempts : Nat} (h : outcome J (replies (attempts + 1)) = none) :
    posts ((retryLoop J payload maxRetries (left + 1) attempts).handled (node replies) attempts).1 =
        payload :: posts ((retryLoop J payload maxRetries left (attempts + 1)).handled (node replies) (attempts + 1)).1 ∧
      ((retryLoop J payload maxRetries (left + 1) attempts).handled (node replies) attempts).2 =
        ((retryLoop J payload maxRetries left (attempts + 1)).handled (node replies) (attempts + 1)).2 := by
  generalize next : (retryLoop J payload maxRetries (left + 1) attempts).handled (node replies) attempts = out
  have step := next.symm.trans (Program.handled_request (node replies) attempts (.post payload) _)
  dsimp only [node] at step
  rw [h] at step
  dsimp only at step
  rw [step]
  by_cases pause : attempts + 1 < maxRetries.toNat
  · rw [if_pos pause]
    exact ⟨rfl,rfl⟩
  · rw [if_neg pause]
    exact ⟨rfl,rfl⟩

/-- The loop posts up to the first reply that decides the call, or until no attempt is left. -/
theorem loop_handled (left attempts : Nat) : ∃ k, k ≤ left ∧
    (∀ j, attempts < j → j ≤ attempts + k → outcome J (replies j) = none) ∧
    ((k = left ∧ posts ((retryLoop J payload maxRetries left attempts).handled (node replies) attempts).1 = List.replicate k payload ∧
        ∃ e, ((retryLoop J payload maxRetries left attempts).handled (node replies) attempts).2.1 = .error e) ∨
      (k < left ∧ posts ((retryLoop J payload maxRetries left attempts).handled (node replies) attempts).1 = List.replicate (k + 1) payload ∧
        outcome J (replies (attempts + k + 1)) = some ((retryLoop J payload maxRetries left attempts).handled (node replies) attempts).2.1)) := by
  induction left generalizing attempts with
  | zero => exact ⟨0,Nat.le_refl 0,fun j hj hk => by omega,.inl ⟨rfl,rfl,_,rfl⟩⟩
  | succ left ih =>
    cases decided : outcome J (replies (attempts + 1)) with
    | some result =>
      refine ⟨0,Nat.zero_le _,fun j hj hk => by omega,.inr ⟨Nat.succ_pos left,?_,?_⟩⟩
      · rw [loop_decided decided]
        rfl
      · rw [loop_decided decided]
        exact decided
    | none =>
      obtain ⟨k,le,before,ends⟩ := ih (attempts + 1)
      obtain ⟨posted,result⟩ := @loop_undecided J maxRetries payload replies left attempts decided
      rw [posted,result]
      have shift : attempts + 1 + k + 1 = attempts + (k + 1) + 1 := by omega
      refine ⟨k + 1,Nat.succ_le_succ le,?_,?_⟩
      · intro j hj hk
        rcases Nat.eq_or_lt_of_le hj with rfl | later
        · exact decided
        · exact before j later (by omega)
      · rcases ends with ⟨rfl,others,failed⟩ | ⟨lt,others,last⟩
        · exact .inl ⟨rfl,by rw [others]; rfl,failed⟩
        · refine .inr ⟨Nat.succ_lt_succ lt,by rw [others]; rfl,?_⟩
          rw [← shift]
          exact last

/-- A reply that decides the call, after retryable ones only, is the one at which the loop has stopped. -/
theorem stopped {k : Nat} {result r : Result Json} (le : k ≤ maxRetries.toNat) (before : ∀ j, 0 < j → j ≤ k → outcome J (replies j) = none)
    (ends : k = maxRetries.toNat ∨ outcome J (replies (k + 1)) = some r) {i : Nat} (hi : 1 ≤ i) (hn : i ≤ maxRetries.toNat)
    (decided : outcome J (replies i) = some result) (earlier : ∀ j, 1 ≤ j → j < i → Retryable J (replies j)) :
    i = k + 1 ∧ k < maxRetries.toNat := by
  have after : k < i := by
    apply Nat.lt_of_not_le
    intro within_
    rw [before i hi within_] at decided
    cases decided
  refine ⟨?_,by omega⟩
  rcases ends with rfl | last
  · omega
  · by_contra other
    rw [retryable_iff.mp (earlier (k + 1) (by omega) (by omega))] at last
    cases last

end Loop

/-- The call does what it promises, whatever the node replies, exactly when the configuration allows an attempt. -/
theorem rpc_call_iff : Meets J maxRetries payload replies ↔ maxRetries ≠ 0 := by
  constructor
  · rintro h rfl
    exact Nat.not_succ_le_zero 0 h.least
  · intro allowed
    have positive : maxRetries.toNat ≠ 0 := fun none => allowed (UInt32.toNat_inj.mp none)
    have attempts : max 1 maxRetries.toNat = maxRetries.toNat := by omega
    obtain ⟨k,le,before,ends⟩ := @loop_handled J maxRetries payload replies maxRetries.toNat 0
    rw [Nat.zero_add] at before ends
    have made : ∃ n, posts ((makeRpcCall J maxRetries payload).handled (node replies) 0).1 = List.replicate n payload ∧
        1 ≤ n ∧ n ≤ maxRetries.toNat := by
      rcases ends with ⟨_,posted,_⟩ | ⟨lt,posted,_⟩
      · exact ⟨k,posted,by omega,le⟩
      · exact ⟨k + 1,posted,by omega,lt⟩
    obtain ⟨n,posted,one,most⟩ := made
    refine ⟨?_,?_,?_,?_⟩
    · intro v
      rw [attempts]
      constructor
      · intro result
        rw [makeRpcCall] at result
        rcases ends with ⟨_,_,e,failed⟩ | ⟨lt,_,last⟩
        · exact absurd (failed.symm.trans result) nofun
        · rw [result] at last
          exact ⟨k + 1,by omega,by omega,answers_iff.mpr last,fun j hj hk => retryable_iff.mpr (before j hj (by omega))⟩
      · rintro ⟨i,hi,hn,answer,earlier⟩
        obtain ⟨rfl,lt⟩ := stopped le before (ends.imp And.left (fun h => h.2.2)) hi hn (answers_iff.mp answer) earlier
        rcases ends with ⟨rfl,_⟩ | ⟨_,_,last⟩
        · omega
        · exact (Option.some.inj ((answers_iff.mp answer).symm.trans last)).symm
    · intro i hi hn refusal earlier
      rw [attempts] at hn
      obtain ⟨e,decided⟩ := refuses_iff.mp refusal
      obtain ⟨rfl,lt⟩ := stopped le before (ends.imp And.left (fun h => h.2.2)) hi hn decided earlier
      rcases ends with ⟨rfl,_⟩ | ⟨_,posted,last⟩
      · omega
      · exact ⟨posted,e,(Option.some.inj (decided.symm.trans last)).symm⟩
    · rw [posted,List.length_replicate]
      exact one
    · rw [posted,List.length_replicate,attempts]
      exact most

end Call

/-- What the node would answer. -/
def answer : Json := .object [("result", .string "0x1")]

/-- With no retries configured the node is never asked, though it would answer. -/
theorem unasked_node : ¬ Meets ⟨Json.readerOf [answer],fun _ => ""⟩ 0 .null
    (fun _ => .ok ⟨200, some answer.printed⟩) :=
  fun h => absurd h.least (by decide)

end PreconfGateway.Properties.RethRetries
