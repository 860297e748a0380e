import Mathlib.Tactic.Linarith
import PreconfGateway.Encoding.AbiUnique
import PreconfGateway.Properties.Authorisation

/-! The encoding of a request tells its type, its payload and its slasher, and so does its
hash when no two encodings collide. The encoding of a commitment tells its request hash too. -/
namespace PreconfGateway.Properties.RequestHash
open Encoding Abi Types Db Crypto Interleaving Fixture Authorisation
variable {P : Platform}

/-- Contents of any length tell the bytes: lengths that differ by less than a word have
different length words. -/
theorem bytes_contents_inj {a b : Bytes} (h : (Token.bytes a).contents = (Token.bytes b).contents) : a = b := by
  simp only [Token.contents,List.append_assoc] at h
  obtain ⟨words,rest⟩ := List.append_inj h (by rw [word_length,word_length])
  have total := congrArg List.length rest
  simp only [List.length_append,padding,List.length_replicate] at total
  have near : |(b.length : Int) - a.length| < 256 ^ 32 := by
    have close : |(b.length : Int) - a.length| < 32 := by
      rw [abs_lt]
      omega
    exact close.trans (by norm_num)
  have length : a.length = b.length := Nat.ModEq.eq_of_abs_lt (bigEndian_inj words) (by exact_mod_cast near)
  exact List.append_inj_left rest length

theorem parse_length {s : String} {a : Bytes} (h : Crypto.parseEthereumAddress s = .ok a) : a.length = 20 :=
  parseHexBytes_length h

/-- What stands before the only dynamic argument has a known length. -/
private theorem uint_cancel {n m : UInt64} {r r' : Bytes}
    (h : (Token.uint n.toNat).contents ++ r = (Token.uint m.toNat).contents ++ r') : n = m ∧ r = r' := by
  have small (k : UInt64) : k.toNat < 2 ^ 256 := lt_trans k.toNat_lt (by norm_num)
  obtain ⟨same,rest⟩ := contents_cancel (.uint n.toNat) (.uint m.toNat) ⟨small n,small m⟩ r r' h
  exact ⟨UInt64.toNat_inj.mp (Token.uint.inj same),rest⟩

private theorem address_cancel {a b r r' : Bytes} (ha : a.length = 20) (hb : b.length = 20)
    (h : (Token.address a).contents ++ r = (Token.address b).contents ++ r') : a = b ∧ r = r' := by
  obtain ⟨same,rest⟩ := contents_cancel (.address a) (.address b) ⟨ha,hb⟩ r r' h
  exact ⟨Token.address.inj same,rest⟩

private theorem hash_cancel {x y r r' : Bytes} (hx : x.length = 32) (hy : y.length = 32)
    (h : (Token.fixedBytes x).contents ++ r = (Token.fixedBytes y).contents ++ r') : x = y ∧ r = r' := by
  obtain ⟨same,rest⟩ := contents_cancel (.fixedBytes x) (.fixedBytes y) (hx.trans hy.symm) r r' h
  exact ⟨Token.fixedBytes.inj same,rest⟩

theorem request_encoding_inj {n m : UInt64} {p q a b : Bytes} (ha : a.length = 20) (hb : b.length = 20)
    (h : encode [.uint n.toNat, .bytes p, .address a] = encode [.uint m.toNat, .bytes q, .address b]) :
    n = m ∧ p = q ∧ a = b := by
  simp only [encode,parts,headsLength,Token.headLength,Token.dynamic,Bool.false_eq_true,if_true,if_false,
    List.append_nil,List.append_assoc] at h
  obtain ⟨type,h⟩ := uint_cancel h
  obtain ⟨slasher,h⟩ := address_cancel ha hb (List.append_cancel_left h)
  exact ⟨type,bytes_contents_inj h,slasher⟩

theorem commitment_encoding_inj {n m : UInt64} {p q x y a b : Bytes} (hx : x.length = 32) (hy : y.length = 32)
    (ha : a.length = 20) (hb : b.length = 20)
    (h : encode [.uint n.toNat, .bytes p, .fixedBytes x, .address a] =
      encode [.uint m.toNat, .bytes q, .fixedBytes y, .address b]) : n = m ∧ p = q ∧ x = y ∧ a = b := by
  simp only [encode,parts,headsLength,Token.headLength,Token.dynamic,Bool.false_eq_true,if_true,if_false,
    List.append_nil,List.append_assoc,hx,hy] at h
  obtain ⟨type,h⟩ := uint_cancel h
  obtain ⟨hash,h⟩ := hash_cancel hx hy (List.append_cancel_left h)
  obtain ⟨slasher,h⟩ := address_cancel ha hb h
  exact ⟨type,bytes_contents_inj h,hash,slasher⟩

/-- Two requests for the same commitment: the slasher may be spelt in two ways. -/
structure Repeats (r r' : CommitmentRequest) : Prop where
  commitmentType : r.commitmentType = r'.commitmentType
  payload : r.payload = r'.payload
  slasher : Crypto.parseEthereumAddress r.slasher = Crypto.parseEthereumAddress r'.slasher

theorem request_encoding {r : CommitmentRequest} {e : Bytes} (h : abiEncodeCommitmentRequest r = .ok e) :
    ∃ a, Crypto.parseEthereumAddress r.slasher = .ok a ∧
      e = encode [.uint r.commitmentType.toNat, .bytes r.payload, .address a] := by
  unfold abiEncodeCommitmentRequest at h
  obtain ⟨a,ha,h⟩ := bind_ok.mp h
  simp only [Except.ok.injEq] at h
  refine ⟨a,ha,?_⟩
  rw [← h]

theorem encoding_repeats {r r' : CommitmentRequest} {e e' : Bytes} (he : abiEncodeCommitmentRequest r = .ok e)
    (he' : abiEncodeCommitmentRequest r' = .ok e') : e = e' ↔ Repeats r r' := by
  obtain ⟨a,ha,h⟩ := request_encoding he
  obtain ⟨b,hb,h'⟩ := request_encoding he'
  rw [h,h']
  constructor
  · intro same
    obtain ⟨type,payload,slasher⟩ := request_encoding_inj (parse_length ha) (parse_length hb) same
    exact ⟨type,payload,by rw [ha,hb,slasher]⟩
  · rintro ⟨type,payload,slasher⟩
    rw [ha,hb] at slasher
    rw [type,payload,Except.ok.inj slasher]

/-- The hash of a request is written from the digest of its encoding. -/
theorem hash_of_encoding {r : CommitmentRequest} {hash : String} (h : generateRequestHash P r = .ok hash) :
    ∃ e, abiEncodeCommitmentRequest r = .ok e ∧ hash = "0x" ++ Hex.encode (P.keccak256 e) := by
  unfold generateRequestHash at h
  obtain ⟨e,he,h⟩ := bind_ok.mp h
  simp only [Except.ok.injEq] at h
  exact ⟨e,he,h.symm⟩

/-- No two different encodings of these requests have the same digest. -/
def Apart (P : Platform) (r r' : CommitmentRequest) : Prop :=
  ∀ e e', abiEncodeCommitmentRequest r = .ok e → abiEncodeCommitmentRequest r' = .ok e' →
    P.keccak256 e = P.keccak256 e' → e = e'

theorem hash_repeats {r r' : CommitmentRequest} {hash hash' : String} (apart : Apart P r r')
    (h : generateRequestHash P r = .ok hash) (h' : generateRequestHash P r' = .ok hash') :
    hash = hash' ↔ Repeats r r' := by
  obtain ⟨e,he,hash_eq⟩ := hash_of_encoding h
  obtain ⟨e',he',hash_eq'⟩ := hash_of_encoding h'
  rw [← encoding_repeats he he',hash_eq,hash_eq']
  constructor
  · intro same
    have digits : Hex.encode (P.keccak256 e) = Hex.encode (P.keccak256 e') := by
      have texts := congrArg String.toList same
      rw [String.toList_append,String.toList_append] at texts
      exact String.toList_inj.mp (List.append_cancel_left texts)
    exact apart e e' he he' (Hex.encode_inj digits)
  · intro same
    rw [same]

/-- The request that a row was stored for. -/
def requestOf (row : CommitmentRow) : CommitmentRequest :=
  ⟨row.commitmentType.toUInt64, row.payload, row.slasher⟩

/-- A row carries the hash of its request. -/
theorem stored_hash {g : Gateway P} {w₀ : World P} {s : State (requests P) (World P) Job Outcome}
    (delegations : w₀.delegations = .empty) (commitments : w₀.commitments = .empty)
    (hr : Reachable g.system w₀ s) {row : CommitmentRow} (hrow : row ∈ s.world.commitments.rows) :
    generateRequestHash P (requestOf row) = .ok row.requestHash := by
  have absent : ∀ r ∈ w₀.commitments.rows, r.requestHash ≠ row.requestHash := by
    rw [commitments]
    intro r h
    cases h
  obtain ⟨_,_,request,_,new,id,createdAt,_,authorised,_,later⟩ := stored_authorised delegations hr hrow absent
  have same : requestOf row = request := by
    obtain ⟨type,payload,slasher⟩ := authorised.columns
    rw [later.1]
    simp only [requestOf,NewCommitment.row,type,payload,slasher]
    have one : request.commitmentType = 1 := authorised.commitmentType
    obtain ⟨t,p,sl⟩ := request
    cases one
    rfl
  rw [same,authorised.requestHash,later.1]
  rfl

theorem parsed_encoding {r : CommitmentRequest} {a : Bytes} (h : Crypto.parseEthereumAddress r.slasher = .ok a) :
    ∃ e, abiEncodeCommitmentRequest r = .ok e := by
  unfold abiEncodeCommitmentRequest
  rw [h]
  exact ⟨_,rfl⟩

theorem commitment_encoding {c : Commitment} {x a : Bytes} (hx : parseHexBytes c.requestHash 32 = .ok x)
    (ha : Crypto.parseEthereumAddress c.slasher = .ok a) : abiEncodeCommitment c =
      .ok (encode [.uint c.commitmentType.toNat, .bytes c.payload, .fixedBytes x, .address a]) := by
  unfold abiEncodeCommitment
  rw [hx,ha]
  rfl

/-- Requests are told apart by what they ask for, however their slashers are spelt, and a
table that the gateway filled answers for exactly the requests that it has served. -/
theorem request_hash_identifies (g : Gateway P) {w₀ : World P} {s : State (requests P) (World P) Job Outcome}
    (delegations : w₀.delegations = .empty) (commitments : w₀.commitments = .empty)
    (hr : Reachable g.system w₀ s) :
    (∀ r r' a a', Crypto.parseEthereumAddress r.slasher = .ok a → Crypto.parseEthereumAddress r'.slasher = .ok a' →
      (abiEncodeCommitmentRequest r = abiEncodeCommitmentRequest r' ↔
        r.commitmentType = r'.commitmentType ∧ r.payload = r'.payload ∧ a = a')) ∧
    (∀ s s' a a', Crypto.parseEthereumAddress s = .ok a → Crypto.parseEthereumAddress s' = .ok a' →
      normalizeAddress s = normalizeAddress s' → a = a') ∧
    (∀ r hash, generateRequestHash P r = .ok hash →
      (∀ row ∈ s.world.commitments.rows, Apart P r (requestOf row)) →
        ((s.world.commitments.withHash hash).isSome = true ↔
          ∃ row ∈ s.world.commitments.rows, Repeats r (requestOf row))) ∧
    ∀ c c' x x' a a', parseHexBytes c.requestHash 32 = .ok x → parseHexBytes c'.requestHash 32 = .ok x' →
      Crypto.parseEthereumAddress c.slasher = .ok a → Crypto.parseEthereumAddress c'.slasher = .ok a' →
        (abiEncodeCommitment c = abiEncodeCommitment c' ↔
          c.commitmentType = c'.commitmentType ∧ c.payload = c'.payload ∧ x = x' ∧ a = a') := by
  refine ⟨?_,?_,?_,?_⟩
  · intro r r' a a' ha ha'
    obtain ⟨e,he⟩ := parsed_encoding ha
    obtain ⟨e',he'⟩ := parsed_encoding ha'
    rw [he,he',Except.ok.injEq,encoding_repeats he he']
    constructor
    · rintro ⟨type,payload,slasher⟩
      rw [ha,ha'] at slasher
      exact ⟨type,payload,Except.ok.inj slasher⟩
    · rintro ⟨type,payload,slasher⟩
      exact ⟨type,payload,by rw [ha,ha',slasher]⟩
  · exact fun _ _ _ _ ha ha' same => parseEthereumAddress_congr same ha ha'
  · intro r hash hr' apart
    constructor
    · intro found
      obtain ⟨row,hrow⟩ := Option.isSome_iff_exists.mp found
      obtain ⟨hm,same⟩ := Commitments.withHash_some hrow
      have stored := stored_hash delegations commitments hr hm
      exact ⟨row,hm,(hash_repeats (apart row hm) hr' stored).mp same.symm⟩
    · rintro ⟨row,hm,repeats⟩
      have stored := stored_hash delegations commitments hr hm
      rw [(hash_repeats (apart row hm) hr' stored).mpr repeats,Commitments.withHash_mem hm]
      rfl
  · intro c c' x x' a a' hx hx' ha ha'
    rw [commitment_encoding hx ha,commitment_encoding hx' ha',Except.ok.injEq]
    constructor
    · exact commitment_encoding_inj (parseHexBytes_length hx) (parseHexBytes_length hx') (parse_length ha)
        (parse_length ha')
    · rintro ⟨type,payload,hash,slasher⟩
      rw [type,payload,hash,slasher]

/-- The served request, spelt in another way, is found in the table. -/
theorem request_hash_identifies_served :
    ∃ (s : State (requests (platform offer)) (World (platform offer)) Job Outcome) (hash : String),
      Reachable small.system (.empty _) s ∧
        generateRequestHash (platform offer) (request 5 7 respelled) = .ok hash ∧
          (s.world.commitments.withHash hash).isSome = true := by
  obtain ⟨s,hr,_,hw,_⟩ := Authorisation.served_reachable
  have rows : s.world.commitments.rows = [servedRow] := by
    rw [hw]
    rfl
  have hashed : generateRequestHash (platform offer) (request 5 7 respelled) =
      .ok signed.commitment.requestHash := by decide +kernel
  have stored : requestOf servedRow = request 5 7 own := by decide +kernel
  have spelt : Crypto.parseEthereumAddress respelled = Crypto.parseEthereumAddress own := by decide +kernel
  have repeats : Repeats (request 5 7 respelled) (request 5 7 own) := ⟨rfl,rfl,spelt⟩
  refine ⟨s,_,hr,hashed,((request_hash_identifies small rfl rfl hr).2.2.1 _ _ hashed ?_).mpr ?_⟩
  · intro row hrow e e' he he' _
    rw [rows,List.mem_singleton] at hrow
    rw [hrow,stored] at he'
    exact (encoding_repeats he he').mpr repeats
  · exact ⟨servedRow,by rw [rows]; exact List.mem_cons_self,by rw [stored]; exact repeats⟩

end PreconfGateway.Properties.RequestHash
