import PreconfGateway.Interleaving.Sequential
import PreconfGateway.Rpc.Stages
import PreconfGateway.Types.RelayEncoding

/-! A small gateway to run: exact fractions for numbers, a short digest, and a signature
scheme in which the signature is the signer's key next to what was signed. -/
namespace PreconfGateway.Fixture
open Encoding Types Db Crypto Interleaving Rpc Services

def floating : Floating where
  F64 := Rat
  literal n := n
  ofU64 n := n.toNat
  toU64 q := .ofNat (min q.floor.toNat (2 ^ 64 - 1))
  sub := (· - ·)
  mul := (· * ·)
  div := (· / ·)
  powf x k := x ^ k.floor.toNat
  max a b := if a ≤ b then b else a
  min a b := if a ≤ b then a else b
  ceil q := q.ceil
  lt a b := a < b
  le a b := a ≤ b
  isFinite _ := true

/-- The items of a list of short strings. -/
def rlpItems : Nat → Bytes → Option (List Bytes)
  | _, [] => some []
  | 0, _ => none
  | fuel + 1, b :: rest =>
    if b < 0x80 then (rlpItems fuel rest).map ([b] :: ·)
    else if b < 0xb8 ∧ (b - 0x80).toNat ≤ rest.length then
      (rlpItems fuel (rest.drop (b - 0x80).toNat)).map (rest.take (b - 0x80).toNat :: ·)
    else none

/-- The items of a list shorter than 56 bytes. -/
def rlpList (payload : Bytes) : Option (List Bytes) :=
  match payload with
  | b :: rest =>
    if 0xc0 ≤ b ∧ b < 0xf8 ∧ (b - 0xc0).toNat ≤ rest.length then
      rlpItems rest.length (rest.take (b - 0xc0).toNat)
    else none
  | [] => none

def bigEndianValue (b : Bytes) : Nat := b.foldl (fun n d => 256 * n + d.toNat) 0

def rlp : RlpReader where
  isList payload := (rlpList payload).isSome
  itemCount payload := .ok ((rlpList payload).getD []).length
  u64At payload i :=
    match ((rlpList payload).getD [])[i]? with
    | some item => if item.length ≤ 8 then .ok (.ofNat (bigEndianValue item)) else .error "RlpIsTooBig"
    | none => .error "RlpIsTooShort"
  bytesAt payload i :=
    match ((rlpList payload).getD [])[i]? with
    | some item => .ok item
    | none => .error "RlpIsTooShort"

def digest (input : Bytes) : Bytes :=
  Abi.word (input.foldl (fun n d => (257 * n + d.toNat + 1) % 2 ^ 256) 7)

theorem bigEndian_length (k n : Nat) : (Abi.bigEndian k n).length = k := by
  induction k generalizing n with
  | zero => rfl
  | succ k ih => simp [Abi.bigEndian,ih]

/-- A key of 48 bytes, what was signed, and a filling. -/
def stamp (key message : Bytes) : Bytes := (key ++ message ++ List.replicate 96 0).take 96

theorem stamp_length (key message : Bytes) : (stamp key message).length = 96 := by
  simp only [stamp,List.length_take,List.length_append,List.length_replicate]
  omega

/-- The relay's reply with these delegations. -/
def listing (offered : List SignedDelegation) : Json :=
  .object [("delegations", .array (offered.map SignedDelegation.toJson))]

/-- Of the relay's replies the one with these delegations is read. -/
def platform (offered : List SignedDelegation) : Platform where
  float := floating
  rlp := rlp
  keccak256 := digest
  keccak256_length _ := bigEndian_length 32 _
  SecretKey := Bytes
  signEcdsaRecoverable message key := (message ++ digest (key ++ message), 0)
  BlsSecretKey := Bytes
  BlsPoint := Bytes
  blsPublicKeyFromBytes b := .ok b
  BlsSignaturePoint := Bytes
  blsSignatureFromBytes b := .ok b
  blsVerify signature message _ key := signature = stamp key message
  blsSign key message _ := ⟨stamp key message, stamp_length key message⟩
  inclusionPayloadFromJson _ := .error "expected value at line 1 column 1"
  executionPayloadFromJson _ := .error "expected value at line 1 column 1"
  delegationsResponseFromJson body :=
    if body = Json.printed (listing offered) then .ok offered else .error "expected value at line 1 column 1"
  constraintsApiErrorFromJson _ := none
  responseText _ := ""
  statusText code := toString code
  timestampInRange t := 0 ≤ t && t ≤ 8210266876799

theorem listing_read (offered : List SignedDelegation) :
    (platform offered).delegationsResponseFromJson (Json.printed (listing offered)) = .ok offered := if_pos rfl

def key (n : UInt8) : BlsPublicKey := ⟨List.replicate 48 n, List.length_replicate⟩

/-- The own address, as it is derived from a key. -/
def own : String := "0xabcdabcdabcdabcdabcdabcdabcdabcdabcdabcd"

/-- The same address with a letter in upper case. -/
def respelled : String := "0xAbcdabcdabcdabcdabcdabcdabcdabcdabcdabcd"

/-- Another committer's address. -/
def stranger : String := "0x1212121212121212121212121212121212121212"

/-- A delegation that its proposer has signed. -/
def delegation (proposer : UInt8) (committer : String) (slot : UInt64) : SignedDelegation :=
  let message : DelegationMessage := ⟨key proposer, key 1, committer, slot⟩
  let encoded := (BlsManager.abiEncodeDelegationMessage message).toOption.getD []
  let root := digest (DELEGATION_DOMAIN_SEPARATOR ++ encoded)
  ⟨message, ⟨stamp (key proposer).bytes root, stamp_length _ _⟩⟩

def manager : BlsManager := ⟨[0, 0, 0, 2], rfl⟩

def gateway (offered : List SignedDelegation) (whitelist builders : List String) (maxRetries : Nat) :
    Gateway (platform offered) where
  config := {
    validation := ⟨whitelist⟩
    beaconApi := ⟨0⟩
    constraintsApi := ⟨5, maxRetries, builders⟩
    delegation := ⟨0, "0x00000002"⟩
    reth := ⟨⟨(2 : Rat), 30000000, (1 : Rat), (100 : Rat)⟩⟩
    signing := ⟨[9], (key 1).bytes, key 1, own⟩ }
  limits := ⟨1000, 1000, 1000, 1000⟩
  blsManager := manager
  started := by
    change BlsManager.new "0x00000002" = .ok manager
    decide +kernel

/-- The payload for a slot below 128 with a transaction of one byte below 128. -/
def payload (slot tx : UInt8) : Bytes := [0xc2, slot, tx]

def request (slot tx : UInt8) (slasher : String) : CommitmentRequest := ⟨1, payload slot tx, slasher⟩

def hexOf (b : Bytes) : String := "0x" ++ Hex.encode b

/-- What an eligible validator's status is. -/
def eligible : ValidatorInfo := ⟨true, false⟩

/-- A poll of the fifth slot that stores all the offered delegations. -/
def poll (offered : List SignedDelegation) : Scene Job Choice where
  job := .pollDelegations
  time := 60000
  choices := [(.done, 60000), (.response (.ok ⟨200, some (Json.printed (listing offered))⟩), 60000)] ++
    offered.map (fun _ => (.status (.ok eligible), 60000)) ++
    [(.ids (List.range offered.length), 60000), (.done, 60100)]

/-- The rows that such a poll leaves. -/
def polled (offered : List SignedDelegation) : List DelegationRow :=
  List.zipWith NewDelegation.row (offered.map newDelegationOf) (List.range offered.length)

/-- A script whose end passes a test leads to a state that passes it. -/
theorem reach_of_script {offered : List SignedDelegation} {g : Gateway (platform offered)}
    {scenes : List (Scene Job Choice)} {w₀ : World (platform offered)} {n : Nat}
    {p : List (Trace (platform offered) × Outcome) × World (platform offered) × Nat → Bool}
    {s₀ : State (requests (platform offered)) (World (platform offered)) Job Outcome}
    (hr : Reachable g.system w₀ s₀) (hi : s₀.Idle) (free : ∀ i, n ≤ i → s₀.tasks i = none)
    (h : (g.system.script scenes s₀.world s₀.clock).any p = true) :
    ∃ s outs, Reachable g.system w₀ s ∧ s.Idle ∧ p (outs, s.world, s.clock) = true ∧
      (∀ i < n, s.tasks i = s₀.tasks i) ∧ (∀ i, n + scenes.length ≤ i → s.tasks i = none) ∧
        ∀ i scene out, scenes[i]? = some scene → outs[i]? = some out →
          ∃ since, s.tasks (n + i) = some ⟨scene.job, .ret out.2, since, out.1.reverse, false⟩ := by
  obtain ⟨⟨outs,w',t'⟩,hs,hp⟩ := (Option.any_eq_true _ _).mp h
  obtain ⟨s,hr',hi',rfl,rfl,done,kept,rest⟩ := System.script_reachable hr hi free hs (fun _ _ _ => trivial)
    (fun _ _ _ _ _ _ => trivial)
  exact ⟨s,outs,hr',hi',hp,kept,rest,done⟩

instance (offered : List SignedDelegation) : DecidableEq (platform offered).float.F64 :=
  inferInstanceAs (DecidableEq Rat)

/-- The gateway most runs are about, with one delegation on offer. -/
def offer : List SignedDelegation := [delegation 2 own 5]

abbrev small : Gateway (platform offer) := gateway offer [own] [] 2

def signed : SignedCommitment where
  commitment := ⟨1, payload 5 7, "0x65eac7cd59a4911af8ce1b9f9b3cbef91e86ddb4a82a25c7ba9a589e1c9bbd89", own⟩
  signature := "0x5e4a0c685ada968cf18f6dd91f3b3cbfc6c69570401b4ef43cbd26828f83f09cc958b49c1ac89f38daeec89285d809ee3a327d52376f37b8ef08ed0880de742b1b"

/-- What is left of a poll and a request: one delegation, one commitment and its gas. -/
def served : World (platform offer) where
  commitments := ⟨[(newCommitmentOf (platform offer) signed 1).row 0 0], by decide, by decide, by decide +kernel⟩
  delegations := ⟨polled offer, by decide +kernel, by decide +kernel, by decide +kernel⟩
  congestion := ⟨[⟨5, 31016, 30000000, (3877 / 3750000 : Rat), 10, (14062500000000 / 14062484968871 : Rat), 11, 60⟩],
    by decide⟩
  accepted := []

/-- What is left of the poll alone. -/
def stored : World (platform offer) := { served with commitments := .empty, congestion := .empty }

/-- The beacon client names the second proposer. -/
def scheduled : ValidatorDuty := ⟨hexOf (key 2).bytes, "5"⟩

/-- The row of the served commitment. -/
def servedRow : CommitmentRow := (newCommitmentOf (platform offer) signed 1).row 0 0

/-- What a tick finds for the slots after the fifth. -/
def idleSlots (time : Nat) : List (Choice × Nat) :=
  (List.range 3).flatMap (fun _ => [(.done, time),(.delegations [], time)])

/-- A tick whose message is taken at once. -/
def tick (time : Nat) : Scene Job Choice where
  job := .processPendingConstraints
  time := time
  choices := [(.done, time),(.done, time),(.delegations (polled offer), time),(.commitments [servedRow], time),
    (.posted (.ok ⟨200, some []⟩) true, time),(.done, time)] ++ idleSlots time

/-- A tick near the end of the window. The relay takes the message and its answer times out;
it takes the second attempt as well. -/
def retry : Scene Job Choice where
  job := .processPendingConstraints
  time := 64000
  choices := [(.done, 64000),(.done, 64000),(.delegations (polled offer), 64000),(.commitments [servedRow], 64000),
    (.posted (.error "operation timed out") true, 69000),(.done, 69200),
    (.posted (.ok ⟨200, some []⟩) true, 69200),(.done, 69200)] ++ idleSlots 69200

/-- Two proposers have delegated the fifth slot; the one that is scheduled comes second. -/
def rivals : List SignedDelegation := [delegation 3 own 5,delegation 2 own 5]

abbrev contest : Gateway (platform rivals) := gateway rivals [own] [] 2

/-- What is left of a poll of both. -/
def contested : World (platform rivals) where
  commitments := .empty
  delegations := ⟨polled rivals, by decide +kernel, by decide +kernel, by decide +kernel⟩
  congestion := .empty
  accepted := []

/-- A table in the fifth slot: of its delegations one has another committer, one is switched off and one is too old. -/
def several : Delegations where
  rows := [(newDelegationOf (delegation 3 stranger 5)).row 0, (newDelegationOf (delegation 2 own 5)).row 1,
    { (newDelegationOf (delegation 4 own 5)).row 2 with isActive := false }, (newDelegationOf (delegation 2 own 6)).row 3,
    (newDelegationOf (delegation 5 own 4)).row 4, (newDelegationOf (delegation 6 own 6)).row 5]
  ids := by decide +kernel
  keys := by decide +kernel
  checked := by decide +kernel

end PreconfGateway.Fixture
