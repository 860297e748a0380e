import PreconfGateway.FixtureClients
import PreconfGateway.Interface
import PreconfGateway.Properties.SignatureRoundTrip

/-! What a client is told, it can check without the gateway. -/
namespace PreconfGateway.Properties.VerifiableReplies
open Encoding Types Db Crypto Interleaving Rpc Services Fixture Durability
variable {P : Platform} {d : Deployment P} {w₀ : World P} {s : State (Deployment.Both P) (Deployment.Whole P) Entry Ending}

/-- The hash is that of the request which the commitment repeats, and the signature is good under the key. -/
structure Checks (S : Secp256k1 P) (publicKey : S.PublicKey) (sc : SignedCommitment) : Prop where
  hash : generateRequestHash P ⟨sc.commitment.commitmentType, sc.commitment.payload, sc.commitment.slasher⟩ =
    .ok sc.commitment.requestHash
  signature : verifyCommitmentSignature S sc.commitment sc.signature publicKey = .ok true

theorem verify_signed {S : Secp256k1 P} (lawful : S.Lawful) {commitment : Commitment} {key : P.SecretKey} {signature : String}
    (h : signCommitment P commitment key = .ok signature) :
    verifyCommitmentSignature S commitment signature (S.fromSecretKey key) = .ok true := by
  have signs := h
  unfold signCommitment at signs
  obtain ⟨encoded,encodes,_⟩ := bind_ok.mp signs
  have encodes : abiEncodeCommitment commitment = .ok encoded := mapError_ok.mp encodes
  have digest := P.keccak256_length encoded
  have signer := lawful.signer (P.keccak256 encoded) key digest
  rw [SignatureRoundTrip.signCommitment_ok encodes,signer] at h
  rw [← Except.ok.inj h,SignatureRoundTrip.verify_layout (S.fromSecretKey key) encodes (lawful.compact_length _)
    (lawful.compact_inverse _),lawful.genuine _ key digest]
  rfl

/-- What was signed for a request can be checked. -/
theorem signed_checks {S : Secp256k1 P} (lawful : S.Lawful) {config : Config P} {request : CommitmentRequest} {slot : UInt64}
    {sc : SignedCommitment} (signed : Signed config request slot sc) :
    Checks S (S.fromSecretKey config.signing.ecdsaPrivateKey) sc := by
  refine ⟨?_,verify_signed lawful signed.signature⟩
  have hash := signed.requestHash
  obtain ⟨type,payload,slasher⟩ := request
  have one : type = 1 := signed.commitmentType
  subst one
  rw [signed.commitment]
  exact hash

/-- Every stored commitment had been signed for its request. -/
theorem stored_signed {g : Gateway P} {u : State (requests P) (World P) Entry Ending} (hr : Reachable g.server w₀ u)
    (empty : w₀.commitments.rows = []) {row : CommitmentRow} (hrow : row ∈ u.world.commitments.rows) :
    ∃ request slot sc, Signed g.config request slot sc ∧ signedCommitmentOf row = .ok sc := by
  have absent : ∀ r ∈ w₀.commitments.rows, r.requestHash ≠ row.requestHash := by
    rw [empty]
    exact fun _ h => by cases h
  obtain ⟨_,_,e,new,rowId,createdAt,saw,insert,_,later⟩ := server_added hr hrow absent
  obtain ⟨request,slot,sc,_,signed,rfl⟩ := (hr.obeys server_signs saw).1 new insert
  have one : sc.commitment.commitmentType = 1 := by
    rw [signed.commitment]
  exact ⟨request,slot,sc,signed,signedCommitmentOf_new one later⟩

theorem signedCommitmentOf_hash {row : CommitmentRow} {sc : SignedCommitment} (h : signedCommitmentOf row = .ok sc) :
    sc.commitment.requestHash = row.requestHash := by
  unfold signedCommitmentOf at h
  split at h
  · cases h
  · cases h
    rfl

/-- A client that reads a commitment off a reply can check it under the public key of the gateway: it is the one
for the request that was made, or the one under the hash that was asked for. -/
theorem reply_verifies (d : Deployment P) {S : Secp256k1 P} (lawful : S.Lawful) (hr : Reachable d.system (w₀, .empty) s)
    (empty : w₀.commitments.rows = []) {id : Nat} {params : Option Json} {v : Json} :
    (Replied s id "commitmentRequest" params (.result v) → ∃ request sc, one CommitmentRequest.ofJson params = some request ∧
      SignedCommitment.ofJson v = some sc ∧
      sc.commitment = ⟨request.commitmentType, request.payload, sc.commitment.requestHash, request.slasher⟩ ∧
      Checks S (S.fromSecretKey d.config.signing.ecdsaPrivateKey) sc) ∧
    (Replied s id "commitmentResult" params (.result v) → ∃ sc, SignedCommitment.ofJson v = some sc ∧
      params = some (.array [.string sc.commitment.requestHash]) ∧
      Checks S (S.fromSecretKey d.config.signing.ecdsaPrivateKey) sc) := by
  obtain ⟨s',reached,simulates⟩ := Deployment.simulated hr
  constructor
  · intro replied
    obtain ⟨request,slot,sc,_,_,_,_,_,asked,rfl,signed,_⟩ := committed_reply reached (replied.simulated simulates)
    refine ⟨request,sc,asked,SignedCommitment.ofJson_toJson sc,?_,signed_checks lawful signed⟩
    rw [signed.commitmentType]
    exact signed.commitment
  · intro replied
    obtain ⟨hash,sc,row,_,_,_,_,asked,rfl,read,saw⟩ := found_reply reached (replied.simulated simulates)
    have found := (Answers.selectCommitment (server_event reached saw).2.1).1
    obtain ⟨listed,same⟩ := Commitments.withHash_some found.symm
    obtain ⟨v,hv,world,_,_⟩ := reached.at_event saw
    rw [← world] at listed
    obtain ⟨request,slot,own,signed,read'⟩ := stored_signed hv empty listed
    cases read.symm.trans read'
    have hash_eq : sc.commitment.requestHash = hash := by
      rw [← same]
      exact signedCommitmentOf_hash read
    refine ⟨sc,SignedCommitment.ofJson_toJson sc,?_,signed_checks lawful signed⟩
    rw [hash_eq]
    exact one_string asked

section Cases
open SignatureRoundTrip

/-- The toy signer of the deployed gateway, as one half of a library. -/
def curve : Secp256k1 (platform offer) where
  PublicKey := Bytes
  RecoverableSignature := Compact × Fin 4
  Signature := Compact
  fromSecretKey key := key
  signEcdsaRecoverable message key := (toySign message key, ((platform offer).signEcdsaRecoverable message key).2)
  serializeCompact signature := (signature.1.val, signature.2)
  fromCompact bytes id := if h : bytes.length = 64 then .ok (⟨bytes, h⟩, id) else .error "malformed signature"
  toStandard signature := signature.1
  verifyEcdsa message signature key :=
    if signature.val = message ++ digest (key ++ message) then .ok () else .error "signature failed verification"

theorem curve_lawful : curve.Lawful where
  signer _ key short := Prod.ext (toySign_val key short).symm rfl
  compact_length signature := signature.1.property
  compact_inverse signature := dif_pos signature.1.property
  genuine _ key short := if_pos (toySign_val key short)

/-- The commitment that was served is asked for. -/
def deployedResult (time : Nat) : DeployedScene where
  job := .inl <| .commitmentResult (some signed.commitment.requestHash)
  time := time
  choices := [(.inl .done, time)]

/-- The tasks of a script have ended with the commitments that the script has found. -/
theorem reach_of_replies {C : DeployedState → Prop} (closed : ∀ {s s'}, C s → Step deployed.system s s' → C s')
    {s₀ : DeployedState} (hr : C s₀) (hi : s₀.Idle) {n : Nat} (free : ∀ i, n ≤ i → s₀.tasks i = none)
    {scenes : List DeployedScene} {found : List (Option SignedCommitment)} {p : Deployment.Whole (platform offer) → Nat → Bool}
    (h : (deployed.system.script scenes s₀.world s₀.clock).any (fun out =>
      out.1.map (fun o => Ending.commitment? o.2) = found && p out.2.1 out.2.2) = true) :
    ∃ s, C s ∧ s.Idle ∧ p s.world s.clock = true ∧ (∀ i, n + scenes.length ≤ i → s.tasks i = none) ∧
      ∀ i scene sc, scenes[i]? = some scene → found[i]? = some (some sc) →
        ∃ task, s.tasks (n + i) = some task ∧ task.job = scene.job ∧ task.program = .ret (.inl (.commitment (.ok sc))) := by
  obtain ⟨⟨outs,w,t⟩,played,hp⟩ := (Option.any_eq_true _ _).mp h
  simp only [Bool.and_eq_true,decide_eq_true_eq] at hp
  obtain ⟨rfl,hp⟩ := hp
  obtain ⟨s,hs,idle,rfl,rfl,done,_,rest⟩ := System.script_leads closed hr hi free played (fun _ _ _ => trivial)
    (fun _ _ _ _ _ _ => trivial)
  refine ⟨s,hs,idle,hp,rest,fun i scene sc listed commitment => ?_⟩
  rw [List.getElem?_map] at commitment
  obtain ⟨out,has,commitment⟩ := Option.map_eq_some_iff.mp commitment
  obtain ⟨since,ht⟩ := done i scene out listed has
  refine ⟨_,ht,rfl,?_⟩
  rw [Ending.commitment_some commitment]

/-- From here on a lookup finds the commitment. -/
def findsSigned (w : Deployment.Whole (platform offer)) (t : Nat) : Bool :=
  (deployed.system.script [deployedResult 63000] w t).any (fun out =>
    out.1.map (fun o => Ending.commitment? o.2) = [some signed] && true)

theorem replied_request {s : DeployedState} {id : Nat} {sc : SignedCommitment} (h : ∃ task, s.tasks id = some task ∧
    task.job = .inl (.commitmentRequest (some (request 5 7 own))) ∧ task.program = .ret (.inl (.commitment (.ok sc)))) :
    Replied s id "commitmentRequest" (some (.array [(request 5 7 own).toJson])) (.result sc.toJson) := by
  obtain ⟨task,ht,job,ended⟩ := h
  have params : one CommitmentRequest.ofJson (some (.array [(request 5 7 own).toJson])) = some (request 5 7 own) :=
    CommitmentRequest.ofJson_toJson _
  refine ⟨task,_,_,ht,rfl,?_,ended,rfl⟩
  rw [params]
  exact job

theorem replied_result {s : DeployedState} {id : Nat} {sc : SignedCommitment} (h : ∃ task, s.tasks id = some task ∧
    task.job = .inl (.commitmentResult (some signed.commitment.requestHash)) ∧
      task.program = .ret (.inl (.commitment (.ok sc)))) :
    Replied s id "commitmentResult" (some (.array [.string signed.commitment.requestHash])) (.result sc.toJson) := by
  obtain ⟨task,ht,job,ended⟩ := h
  exact ⟨task,_,_,ht,rfl,job,ended,rfl⟩

theorem deployed_answered : ∃ s : DeployedState, Reachable deployed.system (.empty _, .empty) s ∧
    Replied s 1 "commitmentRequest" (some (.array [(request 5 7 own).toJson])) (.result signed.toJson) ∧
    Replied s 2 "commitmentResult" (some (.array [.string signed.commitment.requestHash])) (.result signed.toJson) := by
  have plays : (deployed.system.script [deployedPoll, deployedCall, deployedResult 62000] (.empty _, .empty) 0).any (fun out =>
      out.1.map (fun o => Ending.commitment? o.2) = [none, some signed, some signed] && true) = true := by
    decide +kernel
  obtain ⟨s,hr,_,_,_,done⟩ := @reach_of_replies (Reachable deployed.system (.empty _, .empty)) (fun h step => h.step step) _
    (.initial 0) (fun _ _ h => by cases h) 0 (fun _ _ => rfl) _ _ (fun _ _ => true) plays
  exact ⟨s,hr,replied_request (done 1 _ _ rfl rfl),replied_result (done 2 _ _ rfl rfl)⟩

/-- Both replies about the served commitment. -/
theorem reply_verifies_served : ∃ s : DeployedState,
    (∃ request sc, one CommitmentRequest.ofJson (some (.array [(Fixture.request 5 7 own).toJson])) = some request ∧
      SignedCommitment.ofJson signed.toJson = some sc ∧
      sc.commitment = ⟨request.commitmentType, request.payload, sc.commitment.requestHash, request.slasher⟩ ∧
      Checks curve (curve.fromSecretKey deployed.config.signing.ecdsaPrivateKey) sc) ∧
    Replied s 2 "commitmentResult" (some (.array [.string signed.commitment.requestHash])) (.result signed.toJson) ∧
    ∃ sc, SignedCommitment.ofJson signed.toJson = some sc ∧
      some (Json.array [.string signed.commitment.requestHash]) = some (.array [.string sc.commitment.requestHash]) ∧
      Checks curve (curve.fromSecretKey deployed.config.signing.ecdsaPrivateKey) sc := by
  obtain ⟨s,hr,committed,found⟩ := deployed_answered
  exact ⟨s,(reply_verifies deployed curve_lawful hr rfl).1 committed,found,(reply_verifies deployed curve_lawful hr rfl).2 found⟩

end Cases

end PreconfGateway.Properties.VerifiableReplies
