import PreconfGateway.Fixture
import PreconfGateway.Types.RelayEncoding

/-! The records on the wire, beside the format that the document of the relay gives them. -/
namespace PreconfGateway.Properties.RelayFormat
open Encoding Types Interleaving
variable {P : Platform}

section Schema

/-- The values of the named members of an object. -/
def record (names : List String) : Json → Option (List Json)
  | .object members => names.mapM (Json.member members)
  | _ => none

/-- Bytes are digits after the prefix. -/
def bytes? (v : Json) : Option Bytes := do
  let text ← v.string?
  let digits ← stripPrefix ['0', 'x'] text
  (Hex.decode digits).toOption

/-- A slot is a text of decimal digits. -/
def decimal? (v : Json) : Option UInt64 := do
  let text ← v.string?
  let n := Nat.ofDigitChars 10 text.toList 0
  if text ≠ "" ∧ text.toList.all Char.isDigit ∧ n < 2 ^ 64 then some (.ofNat n) else none

/-- A type is a number in hexadecimal. -/
def type? (v : Json) : Option UInt64 := do
  let n := Rlp.value (← bytes? v)
  if n < 2 ^ 64 then some (.ofNat n) else none

def key? (v : Json) : Option BlsPublicKey := do
  let bytes ← bytes? v
  if h : bytes.length = 48 then some ⟨bytes, h⟩ else none

def signature? (v : Json) : Option BlsSignature := do
  let bytes ← bytes? v
  if h : bytes.length = 96 then some ⟨bytes, h⟩ else none

def constraint? (v : Json) : Option Constraint := do
  match ← record ["constraintType", "payload"] v with
  | [constraintType, payload] => some ⟨← type? constraintType, ← bytes? payload⟩
  | _ => none

/-- A message, with its slot read in this way. -/
def message? (slot? : Json → Option UInt64) (v : Json) : Option ConstraintsMessage := do
  match ← record ["proposer", "delegate", "slot", "constraints", "receivers"] v with
  | [proposer, delegate, slot, constraints, receivers] =>
    some ⟨← key? proposer, ← key? delegate, ← slot? slot, ← (← constraints.array?).mapM constraint?,
      ← (← receivers.array?).mapM key?⟩
  | _ => none

def signedConstraints? (slot? : Json → Option UInt64) (v : Json) : Option SignedConstraints := do
  match ← record ["message", "signature"] v with
  | [message, signature] => some ⟨← message? slot? message, ← signature? signature⟩
  | _ => none

def hexText (bytes : Bytes) : Json := .string ("0x" ++ Hex.encode bytes)

/-- A delegation as the relay returns it, with its metadata. -/
def delegation (d : SignedDelegation) (metadata : Bytes) : Json :=
  .object [("message", .object [("proposer", hexText d.message.proposer.bytes),("delegate", hexText d.message.delegate.bytes),
      ("committer", .string d.message.committer),("slot", .string (toString d.message.slot)),
      ("metadata", hexText metadata)]),
    ("signature", hexText d.signature.bytes)]

/-- The reply is the array itself. -/
def delegations (listed : List (SignedDelegation × Bytes)) : Json :=
  .array (listed.map (fun d => delegation d.1 d.2))

end Schema

section Written

/-- A constraint as the document writes it. -/
def constraintText (c : Constraint) : Json :=
  .object [("constraintType", hexText (if c.constraintType = 0 then [0] else Rlp.minimal c.constraintType.toNat)),
    ("payload", hexText c.payload)]

def messageText (m : ConstraintsMessage) : Json :=
  .object [("proposer", hexText m.proposer.bytes),("delegate", hexText m.delegate.bytes),("slot", .string (toString m.slot)),
    ("constraints", .array (m.constraints.map constraintText)),
    ("receivers", .array (m.receivers.map (fun r => hexText r.bytes)))]

def signedConstraintsText (sc : SignedConstraints) : Json :=
  .object [("message", messageText sc.message),("signature", hexText sc.signature.bytes)]

theorem bytes_hexText (b : Bytes) : bytes? (hexText b) = some b := by
  have digits : stripPrefix ['0', 'x'] ("0x" ++ Hex.encode b) = some (Hex.encode b) := by
    simp [stripPrefix,String.toList_append]
  simp [bytes?,hexText,Json.string?,digits,Hex.decode_encode,Except.toOption]

theorem key_hexText (key : BlsPublicKey) : key? (hexText key.bytes) = some key := by
  simp [key?,bytes_hexText,key.length_eq]

theorem decimal_toString (n : UInt64) : decimal? (.string (toString n)) = some n := by
  have text : (toString n).toList = Nat.toDigits 10 n.toNat := Nat.toList_repr
  have nonempty : toString n ≠ "" := by
    intro empty
    rw [empty] at text
    exact Nat.toDigits_ne_nil text.symm
  have digits : ∀ c ∈ Nat.toDigits 10 n.toNat, c.isDigit = true :=
    fun c hc => Nat.isDigit_of_mem_toDigits (by decide) (by decide) hc
  have small : n.toNat < 18446744073709551616 := n.toNat_lt
  simpa [decimal?,Json.string?,text,nonempty,Nat.ofDigitChars_ten_toDigits,small] using digits

theorem constraint_constraintText (c : Constraint) : constraint? (constraintText c) = some c := by
  have type : type? (hexText (if c.constraintType = 0 then [0] else Rlp.minimal c.constraintType.toNat)) =
      some c.constraintType := by
    have small : c.constraintType.toNat < 18446744073709551616 := c.constraintType.toNat_lt
    split
    · rename_i zero
      rw [zero,type?,bytes_hexText]
      rfl
    · simp [type?,bytes_hexText,Rlp.value_minimal,small]
  simp [constraint?,record,constraintText,Json.member,type,bytes_hexText]

/-- What the document writes it reads. -/
theorem signedConstraints_text (sc : SignedConstraints) :
    signedConstraints? decimal? (signedConstraintsText sc) = some sc := by
  have constraints : (sc.message.constraints.map constraintText).mapM constraint? = some sc.message.constraints := by
    induction sc.message.constraints with
    | nil => rfl
    | cons c cs ih => simp [constraint_constraintText,ih]
  have receivers : (sc.message.receivers.map (fun r => hexText r.bytes)).mapM key? = some sc.message.receivers := by
    induction sc.message.receivers with
    | nil => rfl
    | cons r rs ih => simp [key_hexText,ih]
  simp [signedConstraints?,record,signedConstraintsText,Json.member,message?,messageText,key_hexText,decimal_toString,
    Json.array?,constraints,receivers,signature?,bytes_hexText,sc.signature.length_eq]

end Written

section Constraints
variable {sc : SignedConstraints} {m : ConstraintsMessage}

theorem constraint_unread (c : Constraint) : constraint? c.toJson = none := by
  simp [constraint?,record,Constraint.toJson,Json.member]

/-- A slot that is not read spoils the message. -/
theorem message_slot {slot? : Json → Option UInt64} (h : slot? (.natural m.slot.toNat) = none) :
    message? slot? m.toJson = none := by
  simp [message?,record,ConstraintsMessage.toJson,Json.member,h]

/-- And so does any constraint. -/
theorem message_constraints (slot? : Json → Option UInt64) (h : m.constraints ≠ []) : message? slot? m.toJson = none := by
  obtain ⟨c,cs,hc⟩ := List.exists_cons_of_ne_nil h
  have unread : (m.constraints.map Constraint.toJson).mapM constraint? = none := by
    simp [hc,constraint_unread]
  simp [message?,record,ConstraintsMessage.toJson,Json.member,Json.array?,unread]

theorem signed_unread {slot? : Json → Option UInt64} (h : message? slot? sc.message.toJson = none) :
    signedConstraints? slot? sc.toJson = none := by
  simp [signedConstraints?,record,SignedConstraints.toJson,Json.member,h]

end Constraints

section Delegations

/-- An array is one field only if it has one item, and delegations are no array. -/
theorem delegations_unread (listed : List (SignedDelegation × Bytes)) :
    DelegationsResponse.ofJson (delegations listed) = none := by
  match listed with
  | [] => rfl
  | [d] => rfl
  | _ :: _ :: _ => simp [DelegationsResponse.ofJson,delegations,Json.fields]

/-- What a good reply is read as is the result. -/
theorem fetch_told {M : Machine (requests P) (World P)} {between : World P → World P → Prop} {slot : UInt64}
    {w w' : World P} {t t' : Nat} {es : Trace P} {r : Result (List SignedDelegation)} {b : Bytes}
    (run : Run M between (Api.getDelegationsForSlot P slot) w t es r w' t')
    (told : Told es (.getDelegations slot) (.ok ⟨200, some b⟩)) :
    r = (P.delegationsResponseFromJson b).mapError (fun e => ["Failed to parse delegations response", e]) := by
  unfold Api.getDelegationsForSlot at run
  obtain ⟨_,_,reply,_,rest,rfl,_,_,_,_,hback⟩ := run_ask run
  have empty : rest = [] := by
    rcases reply with e | ⟨status,body⟩
    · exact hback.ret_inv.1
    · dsimp only at hback
      split at hback
      · cases body <;> exact hback.ret_inv.1
      · split at hback <;> exact hback.ret_inv.1
  subst empty
  obtain rfl := (told_here.mp told).resolve_right told_nil
  exact hback.ret_inv.2.1

end Delegations

/-- No posted body is read by the format of the document, since its slot is a number; and even with that taken it is
read only without constraints. No reply in the format is accepted. -/
theorem formats_never_agree {json : JsonText} (reads : P.ReadsDelegations json) :
    (∀ sc : SignedConstraints, signedConstraints? decimal? sc.toJson = none) ∧
    (∀ (slot? : Json → Option UInt64) (sc : SignedConstraints), sc.message.constraints ≠ [] →
      signedConstraints? slot? sc.toJson = none) ∧
    ∀ (listed : List (SignedDelegation × Bytes)) (b : Bytes), json.parse b = some (delegations listed) →
      ∀ (M : Machine (requests P) (World P)) between slot w t es r w' t',
        Run M between (Api.getDelegationsForSlot P slot) w t es r w' t' →
          Told es (.getDelegations slot) (.ok ⟨200, some b⟩) → ∃ e, r = .error e := by
  refine ⟨fun sc => signed_unread (message_slot rfl),fun slot? sc h => signed_unread (message_constraints slot? h),?_⟩
  intro listed b parsed M between slot w t es r w' t' run told
  have unread := reads b
  rw [parsed,Option.bind_some,delegations_unread] at unread
  rw [fetch_told run told]
  cases hr : P.delegationsResponseFromJson b with
  | error e => exact ⟨_,rfl⟩
  | ok ds =>
    rw [hr] at unread
    cases unread

/-- A delegation in the format of the document. -/
def reply : Json := delegations [(Fixture.delegation 2 Fixture.own 5, [7])]

/-- One text is read: that of the reply. -/
def replyText : JsonText where
  parse b := (Json.readerOf [reply] b).toOption
  print := Json.printed

def relayed : Platform :=
  { Fixture.platform [] with
    delegationsResponseFromJson := fun b => match (replyText.parse b).bind DelegationsResponse.ofJson with
      | some ds => .ok ds
      | none => .error "invalid type: map, expected a sequence" }

theorem relayed_reads : relayed.ReadsDelegations replyText := by
  intro b
  simp only [relayed]
  cases (replyText.parse b).bind DelegationsResponse.ofJson <;> rfl

/-- A message with one constraint. -/
def posted : SignedConstraints :=
  ⟨⟨Fixture.key 2, Fixture.key 1, 5, [⟨1, Fixture.payload 5 7⟩], []⟩, (Fixture.delegation 2 Fixture.own 5).signature⟩

def empty : World relayed := ⟨.empty, .empty, .empty, []⟩

/-- The reply with the delegation is an error. -/
theorem formats_never_agree_reply : ∃ es r e, Run (world relayed ⟨1000, 1000, 1000, 1000⟩ ⟨5, 2, []⟩) Eq
    (Api.getDelegationsForSlot relayed 5) empty 0 es r empty 0 ∧ r = .error e := by
  have told (body : Bytes) : (world relayed ⟨1000, 1000, 1000, 1000⟩ ⟨5, 2, []⟩).Answers 0 empty
      (.plain (.getDelegations 5)) (.ok ⟨200, some body⟩) empty := ⟨.response (.ok ⟨200, some body⟩),rfl⟩
  have run : Run (world relayed ⟨1000, 1000, 1000, 1000⟩ ⟨5, 2, []⟩) Eq (Api.getDelegationsForSlot relayed 5) empty 0
      [⟨.plain (.getDelegations 5), .ok ⟨200, some reply.printed⟩, 0, 0, empty, empty⟩] _ empty 0 :=
    ask_step (told reply.printed) (.ret _ _ _)
  have parsed : replyText.parse reply.printed = some reply := by
    simp only [replyText,Json.readerOf_printed]
    rfl
  obtain ⟨e,he⟩ := (formats_never_agree relayed_reads).2.2 _ _ parsed _ _ _ _ _ _ _ _ _ run (told_here.mpr (.inl rfl))
  exact ⟨_,_,e,run,he⟩

/-- The posted body is not what the document has for the message, nor is a list of one delegation
what the gateway reads. -/
theorem formats_differ : signedConstraints? decimal? (signedConstraintsText posted) = some posted ∧
    signedConstraints? decimal? posted.toJson = none ∧
      DelegationsResponse.ofJson (delegations [(Fixture.delegation 2 Fixture.own 5, [])]) = none :=
  ⟨signedConstraints_text posted,signed_unread (message_slot rfl),delegations_unread _⟩

end PreconfGateway.Properties.RelayFormat
