import PreconfGateway.Records

/-! The request handler in two halves: before the first write, and from the insert on. -/
namespace PreconfGateway.Rpc
open Encoding Types Db Crypto Interleaving Services
variable {P : Platform}

/-- The signature check passes exactly for what its proposer has signed. -/
theorem checkDelegationSignature_ok (g : Gateway P) (slot : UInt64) (committer : String) {d : SignedDelegation} :
    checkDelegationSignature g.config slot committer d = .ok () ↔ Verifies P d := by
  unfold checkDelegationSignature Verifies
  rw [g.started]
  dsimp only [Except.mapError,bind,Except.bind]
  split <;> simp_all

/-- The beacon client named this proposer. -/
def Names (duty : Except String (Option ValidatorDuty)) (proposer : BlsPublicKey) : Prop :=
  ∃ found, duty = .ok (some found) ∧ found.parsePubkey = .ok proposer

theorem checkProposer_ok (slot : UInt64) {d : SignedDelegation} {duty : Except String (Option ValidatorDuty)} :
    checkProposer slot d duty = .ok () ↔ Names duty d.message.proposer := by
  unfold checkProposer Names
  split
  · rename_i found
    split
    · rename_i e he
      simp [he]
    · rename_i key hk
      split
      · rename_i same
        simp [hk,same]
      · rename_i other
        simp [hk,other]
  · simp
  · simp

/-- The lookup once the delegations have been read. -/
def checkDelegations (context : Config P) (slot : UInt64) (committerAddress : String)
    (delegations : List SignedDelegation) : Async P (Except String String) :=
  match findDelegation slot committerAddress delegations with
  | none => pure (.error ("No valid delegation found for slot " ++ toString slot ++ " and committer " ++
      committerAddress ++ ". Cannot sign commitment without delegation authority."))
  | some delegation =>
    match checkDelegationSignature context slot committerAddress delegation with
    | .error e => pure (.error e)
    | .ok _ => do
      let duty ← ask (.proposerForSlot slot)
      pure ((checkProposer slot delegation duty).map (fun _ => delegation.message.committer))

theorem verifyDelegationAuthority_split (context : Config P) (slot : UInt64) (committerAddress : String) :
    verifyDelegationAuthority context slot committerAddress = (do
      match ← getDelegationsForSlot P slot with
      | .error e => pure (.error ("Failed to query delegations for slot " ++ toString slot ++ ": " ++ e.display))
      | .ok delegations => checkDelegations context slot committerAddress delegations) := rfl

theorem signRequest_ok {config : Config P} {request : CommitmentRequest} {hash committer : String}
    {sc : SignedCommitment} (h : signRequest config request hash committer = .ok sc) :
    normalizeAddress committer = normalizeAddress config.signing.committerAddress ∧
      sc.commitment = ⟨request.commitmentType, request.payload, hash, request.slasher⟩ ∧
      signCommitment P sc.commitment config.signing.ecdsaPrivateKey = .ok sc.signature := by
  unfold signRequest at h
  obtain ⟨key,hk,h⟩ := bind_ok.mp h
  obtain ⟨signature,hs,h⟩ := bind_ok.mp h
  cases h
  have hf := mapError_ok.mp hk
  unfold findSigningKeyForCommitter at hf
  split at hf
  · rename_i same
    cases hf
    exact ⟨same,rfl,mapError_ok.mp hs⟩
  · cases hf

/-- The handler up to the signature, with the slot and the signed commitment as its result. -/
def authoriseRequest (context : Config P) (request : CommitmentRequest) :
    Async P (RpcResult (UInt64 × SignedCommitment)) :=
  match admitRequest context request with
  | .error e => pure (.error e)
  | .ok (slot, requestHash) => do
    match ← commitmentExists P requestHash with
    | .error _ => pure (.error .internalError)
    | .ok true => pure (.error .invalidRequest)
    | .ok false =>
      match ← verifyDelegationAuthority context slot request.slasher with
      | .error _ => pure (.error .invalidRequest)
      | .ok committerAddress =>
        pure ((signRequest context request requestHash committerAddress).map (fun sc => (slot, sc)))

/-- Nothing is written before the commitment is signed. -/
theorem commitmentRequestHandler_split (context : Config P) (request : CommitmentRequest) :
    commitmentRequestHandler context (some request) = (do
      match ← authoriseRequest context request with
      | .error e => pure (.error e)
      | .ok (slot, signedCommitment) => storeCommitment context request slot signedCommitment) := by
  unfold commitmentRequestHandler authoriseRequest
  dsimp only
  rcases admitRequest context request with e | ⟨slot,hash⟩
  · rfl
  · simp only [bind_assoc]
    refine bind_congr fun r => ?_
    rcases r with e | found
    · rfl
    · cases found
      · simp only [bind_assoc]
        refine bind_congr fun r => ?_
        rcases r with e | committer
        · rfl
        · dsimp only
          rw [pure_bind]
          cases signRequest context request hash committer <;> rfl
      · rfl

/-- What a signed commitment has to do with its request. -/
structure Signed (config : Config P) (request : CommitmentRequest) (slot : UInt64)
    (sc : SignedCommitment) : Prop where
  commitmentType : request.commitmentType = 1
  slot_eq : PayloadParser.extractSlot P 1 request.payload = .ok slot
  requestHash : generateRequestHash P request = .ok sc.commitment.requestHash
  commitment : sc.commitment = ⟨1, request.payload, sc.commitment.requestHash, request.slasher⟩
  signature : signCommitment P sc.commitment config.signing.ecdsaPrivateKey = .ok sc.signature

theorem authoriseRequest_obeys {ok : Op P → Prop} {config : Config P} {request : CommitmentRequest}
    (exist : ∀ hash, ok (.plain (.sql (.commitmentExists hash))))
    (read : ∀ slot, ok (.plain (.sql (.selectDelegations slot))))
    (duty : ∀ slot, PayloadParser.extractSlot P 1 request.payload = .ok slot →
      ok (.plain (.proposerForSlot slot))) :
    (authoriseRequest config request).Obeys ok
      (fun r => ∀ slot sc, r = .ok (slot, sc) → Signed config request slot sc) := by
  have failed (e : RpcError) : Program.Obeys (S := requests P) ok
      (fun r : RpcResult (UInt64 × SignedCommitment) => ∀ slot sc, r = .ok (slot, sc) → Signed config request slot sc) (pure (.error e)) := by
    intro slot sc h
    cases h
  unfold authoriseRequest
  split
  · exact failed _
  · rename_i slot hash hadmit
    obtain ⟨type,_,hslot,hhash⟩ := admitRequest_ok hadmit
    refine obeys_asked (exist _) fun r => ?_
    rcases r with e | found
    · exact failed _
    · cases found
      · have authority : (verifyDelegationAuthority config slot request.slasher).Obeys ok (fun _ => True) := by
          refine (getDelegationsForSlot_obeys (read _)).bind fun r _ => ?_
          rcases r with e | delegations
          · exact trivial
          · dsimp only
            split
            · exact trivial
            · split
              · exact trivial
              · exact obeys_asked (duty _ hslot) fun _ => trivial
        refine authority.bind fun r _ => ?_
        rcases r with e | committer
        · exact failed _
        · intro slot' sc h
          cases hs : signRequest config request hash committer with
          | error e =>
            simp only [hs] at h
            cases h
          | ok sc' =>
            simp only [hs] at h
            cases h
            obtain ⟨_,hc,hsig⟩ := signRequest_ok hs
            rw [type] at hc
            refine ⟨type,hslot,?_,?_,hsig⟩ <;> rw [hc]
            exact hhash
      · exact failed _

/-- A request that passes every check is authorised, whatever the time. -/
theorem authoriseRequest_run {config : Config P} {request : CommitmentRequest} {slot : UInt64} {hash : String}
    {rows : List DelegationRow} {ds : List SignedDelegation} {d : SignedDelegation} {duty : ValidatorDuty}
    {sc : SignedCommitment} {w : World P} {limits : Limits} {relay : ConstraintsApiConfig}
    (admitted : admitRequest config request = .ok (slot, hash)) (fresh : w.commitments.withHash hash = none)
    (order : rows.Perm (w.delegations.activeForSlot slot.toInt64)) (read : rows.mapM signedDelegationOf = .ok ds)
    (found : findDelegation slot request.slasher ds = some d)
    (signature : checkDelegationSignature config slot request.slasher d = .ok ())
    (scheduled : checkProposer slot d (.ok (some duty)) = .ok ())
    (signed : signRequest config request hash d.message.committer = .ok sc) (t : Nat) :
    Run (world P limits relay) Eq (authoriseRequest config request) w t
      [⟨.plain (.sql (.commitmentExists hash)), .ok false, t, t, w, w⟩,
        ⟨.plain (.sql (.selectDelegations slot.toInt64)), .ok rows, t, t, w, w⟩,
        ⟨.plain (.proposerForSlot slot), .ok (some duty), t, t, w, w⟩] (.ok (slot, sc)) w t := by
  have authority : Run (world P limits relay) Eq (verifyDelegationAuthority config slot request.slasher) w t
      [⟨.plain (.sql (.selectDelegations slot.toInt64)), .ok rows, t, t, w, w⟩,
        ⟨.plain (.proposerForSlot slot), .ok (some duty), t, t, w, w⟩] (.ok d.message.committer) w t := by
    refine ask_step (q := .sql (.selectDelegations slot.toInt64))
      (r := .ok rows) (v := w)
      ⟨.delegations rows,?_⟩ ?_
    · simp [world,Op.respond,Query.respond,Statement.execute,List.isPerm_iff,order]
    · change Run _ _ (match rows.mapM signedDelegationOf with
        | .error _ => _ | .ok ds => _) _ _ _ _ _ _
      rw [read]
      dsimp only
      rw [found]
      dsimp only
      rw [signature]
      refine ask_step (q := .proposerForSlot slot) (r := .ok (some duty)) (v := w) ⟨.duty _,rfl⟩ ?_
      rw [scheduled]
      exact .ret _ _ _
  unfold authoriseRequest
  rw [admitted]
  refine ask_step (q := .sql (.commitmentExists hash)) (r := .ok false) (v := w) ⟨.done,?_⟩ ?_
  · simp [world,Op.respond,Query.respond,Statement.execute,fresh]
  · refine Run.bind authority ?_
    dsimp only
    rw [signed]
    exact .ret _ _ _

end PreconfGateway.Rpc
