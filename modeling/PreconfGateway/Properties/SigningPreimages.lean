import PreconfGateway.Crypto.Bls
import PreconfGateway.Encoding.AbiUnique
import PreconfGateway.Fixture

/-! What is hashed for a signature tells the message: its kind by the layout of the
encoding, and its fields by the encoding of lists of known types. -/
namespace PreconfGateway.Properties.SigningPreimages
open Encoding Abi Types Crypto BlsManager
variable {P : Platform}

/-- What the gateway and the proposers sign. -/
inductive Signable
  | delegation (message : DelegationMessage)
  | constraints (message : ConstraintsMessage)

/-- The bytes that are hashed for a signature. -/
def preimage (manager : BlsManager) : Signable → Result Bytes
  | .delegation message => (abiEncodeDelegationMessage message).map (DELEGATION_DOMAIN_SEPARATOR ++ ·)
  | .constraints message => .ok (manager.applicationGatewayDomain ++ abiEncodeConstraintsMessage message)

/-- The lengths of all vectors fit the words of the machine. -/
def Held : Signable → Prop
  | .delegation _ => True
  | .constraints message => message.constraints.length < 2 ^ 64 ∧ message.receivers.length < 2 ^ 64 ∧
      ∀ c ∈ message.constraints, c.payload.length < 2 ^ 64

/-- Two messages of one kind with the same contents; the committer may be spelt in two ways. -/
def Same : Signable → Signable → Prop
  | .delegation m, .delegation n => m.proposer = n.proposer ∧ m.delegate = n.delegate ∧ m.slot = n.slot ∧
      ∃ committer, BlsManager.parseEthereumAddress m.committer = .ok committer ∧
        BlsManager.parseEthereumAddress n.committer = .ok committer
  | .constraints m, .constraints n => m.proposer = n.proposer ∧ m.delegate = n.delegate ∧ m.slot = n.slot ∧
      m.constraints = n.constraints ∧ m.receivers = n.receivers
  | _, _ => False

theorem parse_length {s : String} {a : Bytes} (h : BlsManager.parseEthereumAddress s = .ok a) : a.length = 20 := by
  unfold BlsManager.parseEthereumAddress at h
  obtain ⟨bytes,_,h⟩ := bind_ok.mp h
  by_cases sized : bytes.length = 20
  · simp only [sized,ne_eq,not_true_eq_false,if_false] at h
    cases h
    exact sized
  · simp [sized,bail,bind,Except.bind] at h

private theorem small {n : Nat} (h : n < 2 ^ 64) : n < 2 ^ 256 := by omega

private theorem key_small (k : BlsPublicKey) : k.bytes.length < 2 ^ 256 := by
  rw [k.length_eq]
  norm_num

private theorem slot_small (n : UInt64) : n.toNat < 2 ^ 256 := small n.toNat_lt

def delegationTokens (m : DelegationMessage) (committer : Bytes) : List Token :=
  [.bytes m.proposer.bytes, .bytes m.delegate.bytes, .address committer, .uint m.slot.toNat]

def constraintToken (c : Constraint) : Token := .tuple [.uint c.constraintType.toNat, .bytes c.payload]

def constraintsTokens (m : ConstraintsMessage) : List Token :=
  [.bytes m.proposer.bytes, .bytes m.delegate.bytes, .uint m.slot.toNat,
    .array (m.constraints.map constraintToken), .array (m.receivers.map (fun r => .bytes r.bytes))]

theorem delegation_alike (m n : DelegationMessage) {a b : Bytes} (ha : a.length = 20) (hb : b.length = 20) :
    AllAlike (delegationTokens m a) (delegationTokens n b) := by
  simp only [delegationTokens,AllAlike,Token.Alike,key_small,slot_small,ha,hb,and_self]

theorem constraintTokens_alike {cs ds : List Constraint} (length : cs.length = ds.length)
    (hc : ∀ c ∈ cs, c.payload.length < 2 ^ 64) (hd : ∀ d ∈ ds, d.payload.length < 2 ^ 64) :
    AllAlike (cs.map constraintToken) (ds.map constraintToken) := by
  induction cs generalizing ds with
  | nil =>
    rw [List.length_eq_zero_iff.mp length.symm]
    simp [AllAlike]
  | cons c cs ih =>
    obtain ⟨d,ds,rfl⟩ := List.exists_cons_of_length_eq_add_one length.symm
    simp only [List.map_cons,AllAlike]
    constructor
    · simp only [constraintToken,Token.Alike,AllAlike,slot_small,small (hc c List.mem_cons_self),
        small (hd d List.mem_cons_self),and_self]
    · exact ih (by simpa using length) (fun c h => hc c (List.mem_cons_of_mem _ h))
        (fun d h => hd d (List.mem_cons_of_mem _ h))

theorem receiverTokens_alike {rs ss : List BlsPublicKey} (length : rs.length = ss.length) :
    AllAlike (rs.map (fun r => .bytes r.bytes)) (ss.map (fun r => .bytes r.bytes)) := by
  induction rs generalizing ss with
  | nil =>
    rw [List.length_eq_zero_iff.mp length.symm]
    simp [AllAlike]
  | cons r rs ih =>
    obtain ⟨s,ss,rfl⟩ := List.exists_cons_of_length_eq_add_one length.symm
    simp only [List.map_cons,AllAlike,Token.Alike,key_small,and_self,true_and]
    exact ih (by simpa using length)

theorem constraints_alike {m n : ConstraintsMessage} (hm : Held (.constraints m)) (hn : Held (.constraints n)) :
    AllAlike (constraintsTokens m) (constraintsTokens n) := by
  obtain ⟨mc,mr,mp⟩ := hm
  obtain ⟨nc,nr,np⟩ := hn
  simp only [constraintsTokens,AllAlike,Token.Alike,key_small,slot_small,List.length_map,small mc,small mr,
    small nc,small nr,and_self,true_and,and_true]
  exact ⟨fun length => constraintTokens_alike length mp np,receiverTokens_alike⟩

theorem constraintToken_inj : Function.Injective constraintToken := by
  rintro ⟨type,payload⟩ ⟨type',payload'⟩ h
  simp only [constraintToken,Token.tuple.injEq,List.cons.injEq,Token.uint.injEq,Token.bytes.injEq,and_true] at h
  rw [UInt64.toNat_inj.mp h.1,h.2]

theorem key_inj : Function.Injective (fun r : BlsPublicKey => Token.bytes r.bytes) := by
  rintro ⟨a,_⟩ ⟨b,_⟩ h
  simpa using h

/-- The first word of an encoding that starts with a dynamic argument is the length of its head. -/
theorem encode_bytes (b : Bytes) (ts : List Token) :
    ∃ rest, encode (.bytes b :: ts) = word (headsLength (.bytes b :: ts)) ++ rest := by
  simp only [encode,parts,Token.dynamic,if_true,List.append_assoc]
  exact ⟨_,rfl⟩

theorem kinds_differ (m : DelegationMessage) (a : Bytes) (n : ConstraintsMessage) :
    encode (delegationTokens m a) ≠ encode (constraintsTokens n) := by
  intro h
  obtain ⟨rest,he⟩ := encode_bytes m.proposer.bytes
    [.bytes m.delegate.bytes, .address a, .uint m.slot.toNat]
  obtain ⟨rest',he'⟩ := encode_bytes n.proposer.bytes [.bytes n.delegate.bytes, .uint n.slot.toNat,
    .array (n.constraints.map constraintToken), .array (n.receivers.map (fun r => .bytes r.bytes))]
  rw [delegationTokens,constraintsTokens,he,he'] at h
  have words := List.append_inj_left h (by rw [word_length,word_length])
  have heads := word_inj words (by simp [headsLength,Token.headLength]) (by simp [headsLength,Token.headLength])
  simp [headsLength,Token.headLength] at heads

private theorem delegation_preimage {manager : BlsManager} {m : DelegationMessage} {bytes : Bytes}
    (h : preimage manager (.delegation m) = .ok bytes) :
    ∃ committer, BlsManager.parseEthereumAddress m.committer = .ok committer ∧
      bytes = DELEGATION_DOMAIN_SEPARATOR ++ encode (delegationTokens m committer) := by
  simp only [preimage,abiEncodeDelegationMessage] at h
  cases hp : BlsManager.parseEthereumAddress m.committer with
  | error e =>
    rw [hp] at h
    cases h
  | ok committer =>
    rw [hp] at h
    cases h
    exact ⟨committer,rfl,rfl⟩

theorem same_of_preimage {manager : BlsManager} {a b : Signable} {bytes : Bytes} (held : Held a) (held' : Held b)
    (ha : preimage manager a = .ok bytes) (hb : preimage manager b = .ok bytes) : Same a b := by
  have domains : DELEGATION_DOMAIN_SEPARATOR.length = manager.applicationGatewayDomain.length :=
    manager.length_eq.symm
  cases a with
  | delegation m =>
    obtain ⟨c,hc,rfl⟩ := delegation_preimage ha
    cases b with
    | delegation n =>
      obtain ⟨d,hd,h⟩ := delegation_preimage hb
      have tokens := encode_inj (delegation_alike m n (parse_length hc) (parse_length hd))
        (List.append_cancel_left h)
      simp only [delegationTokens,List.cons.injEq,Token.bytes.injEq,Token.address.injEq,Token.uint.injEq,
        and_true] at tokens
      obtain ⟨proposer,delegate,rfl,slot⟩ := tokens
      exact ⟨key_inj (congrArg Token.bytes proposer),key_inj (congrArg Token.bytes delegate),
        UInt64.toNat_inj.mp slot,c,hc,hd⟩
    | constraints n =>
      have h := (Except.ok.inj hb).symm
      exact absurd (List.append_inj_right h domains) (kinds_differ m c n)
  | constraints m =>
    cases Except.ok.inj ha
    cases b with
    | delegation n =>
      obtain ⟨d,hd,h⟩ := delegation_preimage hb
      exact absurd (List.append_inj_right h domains.symm).symm (kinds_differ n d m)
    | constraints n =>
      have tokens := encode_inj (constraints_alike held held') (List.append_cancel_left (Except.ok.inj hb).symm)
      simp only [constraintsTokens,List.cons.injEq,Token.bytes.injEq,Token.uint.injEq,Token.array.injEq,
        and_true] at tokens
      obtain ⟨proposer,delegate,slot,constraints,receivers⟩ := tokens
      exact ⟨key_inj (congrArg Token.bytes proposer),key_inj (congrArg Token.bytes delegate),
        UInt64.toNat_inj.mp slot,constraintToken_inj.list_map constraints,key_inj.list_map receivers⟩

theorem preimage_of_same {manager : BlsManager} {a b : Signable} (h : Same a b) :
    preimage manager a = preimage manager b := by
  cases a with
  | delegation m =>
    cases b with
    | delegation n =>
      obtain ⟨proposer,delegate,slot,c,hc,hd⟩ := h
      simp only [preimage,abiEncodeDelegationMessage,hc,hd,proposer,delegate,slot]
    | constraints n => exact absurd h id
  | constraints m =>
    cases b with
    | delegation n => exact absurd h id
    | constraints n =>
      obtain ⟨proposer,delegate,slot,constraints,receivers⟩ := h
      simp only [preimage,abiEncodeConstraintsMessage,proposer,delegate,slot,constraints,receivers]

/-- The signature verifies under the key for the root of the message. -/
def Accepts (P : Platform) (manager : BlsManager) (signature : P.BlsSignaturePoint) (key : P.BlsPoint)
    (a : Signable) : Prop :=
  ∃ bytes, preimage manager a = .ok bytes ∧ P.blsVerify signature (P.keccak256 bytes) BLS_POP_DST key = true

/-- What a delegation is verified against is the root of its message. -/
theorem accepts_of_verifies {manager : BlsManager} {d : SignedDelegation} (h : Verifies P d) :
    ∃ signature key, P.blsSignatureFromBytes d.signature.bytes = .ok signature ∧
      P.blsPublicKeyFromBytes d.message.proposer.bytes = .ok key ∧
        Accepts P manager signature key (.delegation d.message) := by
  unfold Verifies verifyDelegationSignature at h
  obtain ⟨encoded,he,h⟩ := bind_ok.mp h
  obtain ⟨key,hk,h⟩ := bind_ok.mp h
  obtain ⟨signature,hs,h⟩ := bind_ok.mp h
  refine ⟨signature,key,mapError_ok.mp hs,mapError_ok.mp hk,DELEGATION_DOMAIN_SEPARATOR ++ encoded,?_,?_⟩
  · simp only [preimage,he]
    rfl
  · exact Except.ok.inj h

/-- What the gateway signs is the root of its message. -/
theorem signed_root {manager : BlsManager} {m : ConstraintsMessage} {key : P.BlsSecretKey}
    {signature : BlsSignature} (h : signConstraintsMessage P manager m key = .ok signature) :
    ∃ bytes, preimage manager (.constraints m) = .ok bytes ∧
      signature = P.blsSign key (P.keccak256 bytes) BLS_POP_DST :=
  ⟨_,rfl,(Except.ok.inj h).symm⟩

/-- The hashed bytes of two messages are the same only if the messages are. Without a collision
so are the roots, and a signature that is good for one root only is good for one message only.
These roots are what a delegation's signature is verified against and what the gateway signs. -/
theorem preimages_unambiguous (P : Platform) (manager : BlsManager) {a b : Signable} (held : Held a)
    (held' : Held b) :
    (∀ x y, preimage manager a = .ok x → preimage manager b = .ok y → (x = y ↔ Same a b)) ∧
      (∀ x y, preimage manager a = .ok x → preimage manager b = .ok y →
        (P.keccak256 x = P.keccak256 y → x = y) → (P.keccak256 x = P.keccak256 y ↔ Same a b)) ∧
      (∀ signature key, (∀ x y, preimage manager a = .ok x → preimage manager b = .ok y →
          P.keccak256 x = P.keccak256 y → x = y) →
        (∀ root root', P.blsVerify signature root BLS_POP_DST key = true →
          P.blsVerify signature root' BLS_POP_DST key = true → root = root') →
        Accepts P manager signature key a → Accepts P manager signature key b → Same a b) ∧
      (∀ d, a = .delegation d.message → Verifies P d →
        ∃ signature key, P.blsSignatureFromBytes d.signature.bytes = .ok signature ∧
          P.blsPublicKeyFromBytes d.message.proposer.bytes = .ok key ∧ Accepts P manager signature key a) ∧
      ∀ m key signature, a = .constraints m → signConstraintsMessage P manager m key = .ok signature →
        ∃ bytes, preimage manager a = .ok bytes ∧ signature = P.blsSign key (P.keccak256 bytes) BLS_POP_DST := by
  have unique : ∀ x y, preimage manager a = .ok x → preimage manager b = .ok y → (x = y ↔ Same a b) := by
    intro x y hx hy
    constructor
    · rintro rfl
      exact same_of_preimage held held' hx hy
    · intro same
      exact Except.ok.inj (hx.symm.trans ((preimage_of_same same).trans hy))
  refine ⟨unique,?_,?_,?_,?_⟩
  · intro x y hx hy collisionFree
    rw [← unique x y hx hy]
    exact ⟨collisionFree,congrArg P.keccak256⟩
  · rintro signature key collisionFree binding ⟨x,hx,vx⟩ ⟨y,hy,vy⟩
    exact (unique x y hx hy).mp (collisionFree x y hx hy (binding _ _ vx vy))
  · rintro d rfl verifies
    exact accepts_of_verifies verifies
  · rintro m key signature rfl signed
    exact signed_root signed

/-- A delegation for the fifth slot and a message for it. -/
theorem preimages_unambiguous_small :
    ∃ x y, preimage Fixture.manager (.delegation (Fixture.delegation 2 Fixture.own 5).message) = .ok x ∧
      preimage Fixture.manager (.constraints ⟨Fixture.key 2, Fixture.key 1, 5, [⟨1, [7]⟩], []⟩) = .ok y ∧
        x ≠ y := by
  have parses : (preimage Fixture.manager
      (.delegation (Fixture.delegation 2 Fixture.own 5).message)).toOption.isSome = true := by
    decide +kernel
  obtain ⟨x,hx⟩ : ∃ x, preimage Fixture.manager (.delegation (Fixture.delegation 2 Fixture.own 5).message) = .ok x := by
    cases h : preimage Fixture.manager (.delegation (Fixture.delegation 2 Fixture.own 5).message) with
    | error e =>
      rw [h] at parses
      cases parses
    | ok x => exact ⟨x,rfl⟩
  refine ⟨x,_,hx,rfl,fun same => ?_⟩
  exact ((preimages_unambiguous (Fixture.platform []) Fixture.manager
    (a := .delegation (Fixture.delegation 2 Fixture.own 5).message)
    (b := .constraints ⟨Fixture.key 2, Fixture.key 1, 5, [⟨1, [7]⟩], []⟩) trivial (by simp [Held])).1 _ _ hx rfl).mp same

end PreconfGateway.Properties.SigningPreimages
