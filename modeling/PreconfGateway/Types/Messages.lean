import PreconfGateway.Encoding.Hex

/-! The records that the handlers, the services, the relay and the beacon chain exchange. -/
namespace PreconfGateway
open Encoding

/-- An error is its chain of contexts, the outermost first. -/
abbrev Chain := List String

abbrev Result (α : Type) := Except Chain α

/-- Printing an error shows its outermost context only. -/
def Chain.display (e : Chain) : String := e.headD ""

def Result.context {α : Type} (r : Result α) (text : String) : Result α := r.mapError (text :: ·)

def bail {α : Type} (text : String) : Result α := .error [text]

/-- What an asynchronous call can end with besides a value. -/
inductive Fault
  | error (chain : Chain)
  | panic (message : String)
  deriving DecidableEq

theorem bind_ok {ε α β : Type} {x : Except ε α} {f : α → Except ε β} {b : β} :
    (x >>= f) = .ok b ↔ ∃ a, x = .ok a ∧ f a = .ok b := by
  cases x with
  | error e => simp [bind,Except.bind]
  | ok a => simp [bind,Except.bind]

theorem mapError_ok {ε δ α : Type} {x : Except ε α} {f : ε → δ} {a : α} :
    x.mapError f = .ok a ↔ x = .ok a := by
  cases x <;> simp [Except.mapError]

/-- The results of a list whose elements all succeed are those of its elements. -/
theorem mem_mapM_ok {ε α β : Type} {f : α → Except ε β} {as : List α} {bs : List β}
    (h : as.mapM f = .ok bs) (b : β) : b ∈ bs ↔ ∃ a ∈ as, f a = .ok b := by
  induction as generalizing bs with
  | nil =>
    cases h
    simp
  | cons a as ih =>
    rw [List.mapM_cons] at h
    obtain ⟨b',hb,h⟩ := bind_ok.mp h
    obtain ⟨bs',hbs,h⟩ := bind_ok.mp h
    cases h
    rw [List.mem_cons,ih hbs]
    constructor
    · rintro (rfl | ⟨x,hx,he⟩)
      · exact ⟨a,List.mem_cons_self,hb⟩
      · exact ⟨x,List.mem_cons_of_mem _ hx,he⟩
    · rintro ⟨x,hx,he⟩
      rcases List.mem_cons.mp hx with rfl | hx
      · exact .inl (Except.ok.inj (he.symm.trans hb))
      · exact .inr ⟨x,hx,he⟩

/-- A list succeeds exactly if its elements do. -/
theorem mapM_ok_iff {ε α β : Type} {f : α → Except ε β} {as : List α} :
    (∃ bs, as.mapM f = .ok bs) ↔ ∀ a ∈ as, ∃ b, f a = .ok b := by
  induction as with
  | nil => exact ⟨nofun,fun _ => ⟨[],rfl⟩⟩
  | cons a as ih =>
    rw [List.forall_mem_cons,← ih]
    constructor
    · rintro ⟨bs,h⟩
      rw [List.mapM_cons] at h
      obtain ⟨b,hb,h⟩ := bind_ok.mp h
      obtain ⟨bs',hbs,_⟩ := bind_ok.mp h
      exact ⟨⟨b,hb⟩,bs',hbs⟩
    · rintro ⟨⟨b,hb⟩,bs,hbs⟩
      exact ⟨b :: bs,by rw [List.mapM_cons,hb,hbs]; rfl⟩

theorem mapM_total {ε α β : Type} {f : α → Except ε β} {as : List α} (h : ∀ a ∈ as, ∃ b, f a = .ok b) :
    ∃ bs, as.mapM f = .ok bs :=
  mapM_ok_iff.mpr h

namespace Types

structure BlsPublicKey where
  bytes : Bytes
  length_eq : bytes.length = 48
  deriving DecidableEq

structure BlsSignature where
  bytes : Bytes
  length_eq : bytes.length = 96
  deriving DecidableEq

structure DelegationMessage where
  proposer : BlsPublicKey
  delegate : BlsPublicKey
  committer : String
  slot : UInt64
  deriving DecidableEq

structure SignedDelegation where
  message : DelegationMessage
  signature : BlsSignature
  deriving DecidableEq

def SignedDelegation.isValidForSlot (d : SignedDelegation) (slot : UInt64) : Bool := d.message.slot = slot

structure Constraint where
  constraintType : UInt64
  payload : Bytes
  deriving DecidableEq

def Constraint.fromInclusionCommitment (payload : Bytes) : Constraint := ⟨1, payload⟩

structure ConstraintsMessage where
  proposer : BlsPublicKey
  delegate : BlsPublicKey
  slot : UInt64
  constraints : List Constraint
  receivers : List BlsPublicKey
  deriving DecidableEq

structure SignedConstraints where
  message : ConstraintsMessage
  signature : BlsSignature
  deriving DecidableEq

structure CommitmentRequest where
  commitmentType : UInt64
  payload : Bytes
  slasher : String
  deriving DecidableEq

structure Commitment where
  commitmentType : UInt64
  payload : Bytes
  requestHash : String
  slasher : String
  deriving DecidableEq

structure SignedCommitment where
  commitment : Commitment
  signature : String
  deriving DecidableEq

structure InclusionPayload where
  slot : UInt64
  signedTx : Bytes
  deriving DecidableEq

structure ExecutionPayload where
  slot : UInt64
  transaction : Bytes
  expectedStateRoot : Bytes
  deriving DecidableEq

/-- Who proposes a block, as the beacon chain answers it. -/
structure ValidatorDuty where
  pubkey : String
  slot : String
  deriving DecidableEq

structure ValidatorInfo where
  isActive : Bool
  isSlashed : Bool
  deriving DecidableEq

/-- A body that could not be read is missing. -/
structure HttpResponse where
  status : Nat
  body : Option Bytes
  deriving DecidableEq

def HttpResponse.success (r : HttpResponse) : Bool := r.status = 200 || r.status = 202

/-- The relay said that it has taken the message. -/
def succeeded : Except String HttpResponse → Bool
  | .ok response => response.success
  | .error _ => false

/-- The price is a 256-bit number on the wire. -/
structure GasPriceInfo where
  gasPrice : Nat
  deriving DecidableEq

def GasPriceInfo.gasPriceAsU64Clamped (info : GasPriceInfo) : UInt64 :=
  if info.gasPrice < 2 ^ 64 then .ofNat info.gasPrice else .ofNat (2 ^ 64 - 1)

/-- Removing a prefix that may be missing. -/
def stripPrefix (pre : List Char) (s : String) : Option String :=
  if pre <+: s.toList then some (String.ofList (s.toList.drop pre.length)) else none

def strip0x (s : String) : String := (stripPrefix ['0', 'x'] s).getD s

theorem strip0x_prefixed (s : String) : strip0x ("0x" ++ s) = s := by
  have chars : ("0x" ++ s).toList = ['0', 'x'] ++ s.toList := by
    rw [String.toList_append]
    rfl
  simp [strip0x,stripPrefix,chars]

def normalizeAddress (addr : String) : String :=
  let withoutPrefix := ((stripPrefix ['0', 'x'] addr).or (stripPrefix ['0', 'X'] addr)).getD addr
  String.ofList (withoutPrefix.toList.map Char.toLower)

def ValidatorDuty.parsePubkey (duty : ValidatorDuty) : Except Hex.FromHexError BlsPublicKey := do
  let bytes ← Hex.decode (strip0x duty.pubkey)
  if h : bytes.length = 48 then .ok ⟨bytes, h⟩ else .error .invalidStringLength

end Types
end PreconfGateway
