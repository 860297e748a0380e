import PreconfGateway.Interleaving.System
import PreconfGateway.Config
import PreconfGateway.Db.Tables

/-! What the gateway runs against: the database, the relay, the clients of the two
chains and the clock, each asked by one request at a time. -/
namespace PreconfGateway
open Encoding Types Db Interleaving

@[ext]
structure World (P : Platform) where
  commitments : Commitments
  delegations : Delegations
  congestion : Congestion P
  /-- The messages the relay has taken, oldest first. -/
  accepted : List SignedConstraints

structure NewCommitment where
  requestHash : String
  commitmentType : Int64
  payload : Bytes
  slasher : String
  signature : String
  slotNumber : Option Int64
  deriving DecidableEq

def NewCommitment.row (n : NewCommitment) (id createdAt : Nat) : CommitmentRow where
  id := id
  requestHash := n.requestHash
  commitmentType := n.commitmentType
  payload := n.payload
  slasher := n.slasher
  signature := n.signature
  createdAt := createdAt
  slotNumber := n.slotNumber
  constraintProcessed := false

structure NewDelegation where
  proposerPubkey : Bytes
  delegatePubkey : Bytes
  committerAddress : String
  slotNumber : Int64
  signature : Bytes
  deriving DecidableEq

def NewDelegation.row (n : NewDelegation) (id : Nat) : DelegationRow where
  id := id
  proposerPubkey := n.proposerPubkey
  delegatePubkey := n.delegatePubkey
  committerAddress := n.committerAddress
  slotNumber := n.slotNumber
  signature := n.signature
  isActive := true

/-- A statement, or a transaction of several, takes effect at one moment. -/
inductive Statement (P : Platform)
  | commitmentExists (requestHash : String)
  | insertCommitment (new : NewCommitment)
  | selectCommitment (requestHash : String)
  | selectUnprocessed (slot : Int64)
  | updateProcessed (hashes : List String)
  | selectDelegations (slot : Int64)
  | insertDelegations (news : List NewDelegation)
  | updateExpired (slot : Int64)
  | selectActive
  | updateInactive (id : Nat)
  | insertCongestion (row : CongestionRow P)
  | selectCongestion (slot : Int64)
  /-- The row is locked, changed and written back, or left when there is no change. -/
  | updateCongestion (slot : Int64) (change : CongestionRow P → Option (CongestionRow P))

@[reducible] def Statement.Value {P : Platform} : Statement P → Type
  | .commitmentExists _ => Bool
  | .insertCommitment _ => Option Nat
  | .selectCommitment _ => Option CommitmentRow
  | .selectUnprocessed _ => List CommitmentRow
  | .updateProcessed _ => Nat
  | .selectDelegations _ => List DelegationRow
  | .insertDelegations _ => List (Option Nat)
  | .updateExpired _ => Nat
  | .selectActive => List DelegationRow
  | .updateInactive _ => Unit
  | .insertCongestion _ => Bool
  | .selectCongestion _ => Option (CongestionRow P)
  | .updateCongestion _ _ => Option (CongestionRow P)

/-- Where a transaction broke off; a statement of its own is always written. -/
inductive Stage
  | begun
  | locked
  | written
  | committed
  deriving DecidableEq

structure DbError where
  stage : Stage
  message : String
  deriving DecidableEq

/-- The part of a statement after which its effect stays. -/
def Statement.last {P : Platform} : Statement P → Stage
  | .insertDelegations _ | .updateCongestion _ _ => .committed
  | _ => .written

inductive Query (P : Platform)
  | sql (s : Statement P)
  | proposerForSlot (slot : UInt64)
  | validatorStatus (pubkey : BlsPublicKey)
  | gasPrice
  | getDelegations (slot : UInt64)
  | postConstraints (constraints : SignedConstraints)
  | sleep (ms : Nat)
  | now
  | instant

@[reducible] def Query.Reply {P : Platform} : Query P → Type
  | .sql s => Except DbError s.Value
  | .proposerForSlot _ => Except String (Option ValidatorDuty)
  | .validatorStatus _ => Except String ValidatorInfo
  | .gasPrice => Except String GasPriceInfo
  | .getDelegations _ => Except String HttpResponse
  | .postConstraints _ => Except String HttpResponse
  | .sleep _ => Unit
  | .now => UInt64
  | .instant => Nat

/-- A request inside a timeout may go unanswered. -/
inductive Op (P : Platform)
  | plain (q : Query P)
  | within (deadline : Nat) (q : Query P)

def Op.query {P : Platform} : Op P → Query P
  | .plain q => q
  | .within _ q => q

@[reducible] def Op.Reply {P : Platform} : Op P → Type
  | .plain q => q.Reply
  | .within _ q => Option q.Reply

abbrev requests (P : Platform) : Signature := ⟨Op P, Op.Reply⟩

abbrev Async (P : Platform) (α : Type) := Program (requests P) α

section Requests
variable {P : Platform} {α : Type}

def ask (q : Query P) : Async P q.Reply := Program.request (S := requests P) (.plain q)

def sql (s : Statement P) : Async P (Except DbError s.Value) := ask (.sql s)

/-- Seconds since the epoch. -/
def now : Async P UInt64 := ask .now

/-- Milliseconds of the timers. -/
def instant : Async P Nat := ask .instant

def sleep (ms : Nat) : Async P Unit := ask (.sleep ms)

/-- Give up on whatever is pending when the deadline comes. -/
def timeoutAt (deadline : Nat) : Async P α → Async P (Option α)
  | .ret a => .ret (some a)
  | .call (.plain q) k => .call (.within deadline q) (fun
    | some r => timeoutAt deadline (k r)
    | none => .ret none)
  | .call (.within d q) k => .call (.within d q) (fun r => timeoutAt deadline (k r))

end Requests

/-- What is settled outside the gateway when a request is answered. -/
inductive Choice
  | done
  | row (id createdAt : Nat)
  | ids (ids : List Nat)
  | commitments (rows : List CommitmentRow)
  | delegations (rows : List DelegationRow)
  | failed (e : DbError)
  /-- The statement took effect and its answer got lost. -/
  | lost (settled : Choice) (e : DbError)
  | duty (reply : Except String (Option ValidatorDuty))
  | status (reply : Except String ValidatorInfo)
  | price (reply : Except String GasPriceInfo)
  | response (reply : Except String HttpResponse)
  /-- Without a success reply the relay may still have taken the message. -/
  | posted (reply : Except String HttpResponse) (taken : Bool)
  | expired (settled : Option Choice)

namespace Statement
variable {P : Platform}

def execute (w : World P) : (s : Statement P) → Choice → Option (s.Value × World P)
  | .commitmentExists hash, .done => some ((w.commitments.withHash hash).isSome, w)
  | .insertCommitment new, .row id createdAt =>
    (w.commitments.insert (new.row id createdAt)).map (fun (id, t) => (id, { w with commitments := t }))
  | .selectCommitment hash, .done => some (w.commitments.withHash hash, w)
  | .selectUnprocessed slot, .commitments rows =>
    if rows.isPerm (w.commitments.unprocessed slot) ∧ rows.Pairwise (fun r s => r.createdAt ≤ s.createdAt)
    then some (rows, w) else none
  | .updateProcessed hashes, .done =>
    some ((w.commitments.rows.filter (fun r => r.requestHash ∈ hashes)).length,
      { w with commitments := w.commitments.markProcessed hashes })
  | .selectDelegations slot, .delegations rows =>
    if rows.isPerm (w.delegations.activeForSlot slot) then some (rows, w) else none
  | .insertDelegations news, .ids ids =>
    if ids.length = news.length then
      (w.delegations.insertAll (news.zipWith NewDelegation.row ids)).map
        (fun (ids, t) => (ids, { w with delegations := t }))
    else none
  | .updateExpired slot, .done =>
    some ((w.delegations.active.filter (fun r => r.slotNumber < slot)).length,
      { w with delegations := w.delegations.switchOff (fun r => r.slotNumber < slot) })
  | .selectActive, .delegations rows =>
    if rows.isPerm w.delegations.active then some (rows, w) else none
  | .updateInactive id, .done =>
    some ((), { w with delegations := w.delegations.switchOff (fun r => r.id = id) })
  | .insertCongestion row, .done =>
    let (new, t) := w.congestion.insert row
    some (new, { w with congestion := t })
  | .selectCongestion slot, .done => some (w.congestion.forSlot slot, w)
  | .updateCongestion slot change, .done =>
    some (w.congestion.forSlot slot,
      match (w.congestion.forSlot slot).bind change with
      | some row => { w with congestion := w.congestion.update row }
      | none => w)
  | _, _ => none

end Statement

namespace Query
variable {P : Platform}

def respond (t : Nat) (w : World P) : (q : Query P) → Choice → Option (q.Reply × World P)
  | .sql _, .failed e => some (.error e, w)
  | .sql s, .lost settled e =>
    if e.stage = s.last then (s.execute w settled).map (fun (_, w) => (.error e, w)) else none
  | .sql s, settled => (s.execute w settled).map (fun (value, w) => (.ok value, w))
  | .proposerForSlot _, .duty reply => some (reply, w)
  | .validatorStatus _, .status reply => some (reply, w)
  | .gasPrice, .price reply => some (reply, w)
  | .getDelegations _, .response reply => some (reply, w)
  | .postConstraints constraints, .posted reply taken =>
    some (reply, if succeeded reply || taken then { w with accepted := w.accepted ++ [constraints] } else w)
  | .sleep _, .done => some ((), w)
  | .now, .done => if t / 1000 < 2 ^ 63 then some (.ofNat (t / 1000), w) else none
  | .instant, .done => some (t, w)
  | _, _ => none

end Query

/-- How long each party may take, in milliseconds. -/
structure Limits where
  db : Nat
  beacon : Nat
  status : Nat
  reth : Nat

/-- The relay client and the timers are bounded by what they were set to. -/
def Query.limit {P : Platform} (limits : Limits) (relay : ConstraintsApiConfig) : Query P → Nat
  | .sql _ => limits.db
  | .proposerForSlot _ => limits.beacon
  | .validatorStatus _ => limits.status
  | .gasPrice => limits.reth
  | .getDelegations _ | .postConstraints _ => relay.requestTimeoutSecs.toNat * 1000
  | .sleep ms => ms
  | .now | .instant => 0

def Op.respond {P : Platform} (t : Nat) (w : World P) : (op : Op P) → Choice → Option (op.Reply × World P)
  | .plain q, choice => q.respond t w choice
  | .within deadline _, .expired none => if deadline ≤ t then some (none, w) else none
  | .within deadline q, .expired (some settled) =>
    if deadline ≤ t then (q.respond t w settled).map (fun (_, w) => (none, w)) else none
  | .within _ q, choice => (q.respond t w choice).map (fun (reply, w) => (some reply, w))

def world (P : Platform) (limits : Limits) (relay : ConstraintsApiConfig) :
    Machine (requests P) (World P) where
  Choice := Choice
  respond := Op.respond
  latest since
    | .plain q => some (since + q.limit limits relay)
    | .within deadline q => some (max since (min deadline (since + q.limit limits relay)))

end PreconfGateway
