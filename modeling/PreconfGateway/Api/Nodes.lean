import PreconfGateway.Api.Beacon
import PreconfGateway.Api.Reth
import PreconfGateway.Interleaving.Expansion

/-! What the clients of the two chains run against: the endpoints of the beacon chain, the
execution node, the clock, and the cache in which the statuses of validators are kept. -/
namespace PreconfGateway.Api.Nodes
open Encoding Types Interleaving

inductive Request
  | get (url : String)
  | rpc (request : Reth.Request)
  | now
  | cached (pubkey : BlsPublicKey)
  | cache (pubkey : BlsPublicKey) (info : Beacon.ValidatorInfo)

@[reducible] def Request.Reply : Request → Type
  | .get _ => Result Beacon.HttpResponse
  | .rpc request => request.Reply
  | .now => UInt64
  | .cached _ => Option Beacon.ValidatorInfo
  | .cache _ _ => Unit

abbrev requests : Signature := ⟨Request, Request.Reply⟩

abbrev Client (α : Type) := Program requests α

section Requests
variable {α : Type}

def ask (request : Request) : Client request.Reply := Program.request (S := requests) request

/-- A program of the beacon client, its requests among the others. -/
def ofBeacon (p : Beacon.Client α) : Client α := p.expand (fun url => ask (.get url))

/-- A program of the client of the execution node, its requests among the others. -/
def ofReth (p : Reth.Client α) : Client α := p.expand (fun request => ask (.rpc request))

theorem makeRequest_bind {T : Type} {J : Beacon.JsonLibrary} {read : Json → Option T} {base endpoint : String}
    {f : Result T → Beacon.Client α} :
    ofBeacon (Beacon.makeRequest J read base endpoint >>= f) = ask (.get (Beacon.joinUrl base endpoint)) >>=
      fun reply => ofBeacon (f (Beacon.receive J read (Beacon.joinUrl base endpoint) reply)) := rfl

theorem retryLoop_bind {J : Reth.JsonLibrary} {payload : Json} {maxRetries : UInt32} {left attempts : Nat} :
    ofReth (Reth.retryLoop J payload maxRetries (left + 1) attempts) = ask (.rpc (.post payload)) >>= fun reply =>
      match Reth.outcome J reply with
      | some result => .ret result
      | none => if attempts + 1 < maxRetries.toNat then
          ask (.rpc (.sleep (100 * (attempts + 1)))) >>= fun _ => ofReth (Reth.retryLoop J payload maxRetries left (attempts + 1))
        else ofReth (Reth.retryLoop J payload maxRetries left (attempts + 1)) := by
  apply congrArg (Program.call _)
  funext reply
  simp only [Program.bind]
  cases Reth.outcome J reply with
  | some result => rfl
  | none =>
    dsimp only
    split <;> rfl

end Requests

/-- What a cache holds for a key, and when it was put there. -/
structure Entry where
  info : Beacon.ValidatorInfo
  inserted : Nat

/-- A reply of an endpoint, with the time when it arrived. -/
structure Page where
  time : Nat
  url : String
  reply : Result Beacon.HttpResponse

/-- A reply of the execution node, with the time when it arrived. -/
structure RpcReply where
  time : Nat
  payload : Json
  reply : Except String HttpResponse

structure Peers where
  statuses : BlsPublicKey → Option Entry
  /-- What the endpoints have replied, oldest first. -/
  pages : List Page
  /-- What the execution node has replied, oldest first. -/
  rpcReplies : List RpcReply

def Peers.empty : Peers := ⟨fun _ => none, [], []⟩

/-- How long each party may take and how long an entry lives, in milliseconds. -/
structure Limits where
  beacon : Nat
  reth : Nat
  memory : Nat
  timeToLive : Nat

/-- What is settled outside the clients when a request is answered. -/
inductive Choice
  | done
  | page (reply : Result Beacon.HttpResponse)
  | reply (reply : Except String HttpResponse)

/-- An entry that has reached its time to live is passed over. -/
def Peers.lookup (n : Peers) (timeToLive : Nat) (pubkey : BlsPublicKey) (t : Nat) : Option Beacon.ValidatorInfo :=
  match n.statuses pubkey with
  | some entry => if t < entry.inserted + timeToLive then some entry.info else none
  | none => none

def respond (limits : Limits) (t : Nat) (n : Peers) : (r : Request) → Choice → Option (r.Reply × Peers)
  | .get url, .page reply => some (reply, { n with pages := n.pages ++ [⟨t, url, reply⟩] })
  | .rpc (.post payload), .reply reply => some (reply, { n with rpcReplies := n.rpcReplies ++ [⟨t, payload, reply⟩] })
  | .rpc (.sleep _), .done => some ((), n)
  | .now, .done => if t / 1000 < 2 ^ 63 then some (.ofNat (t / 1000), n) else none
  | .cached pubkey, .done => some (n.lookup limits.timeToLive pubkey t, n)
  | .cache pubkey info, .done => some ((), { n with statuses := Function.update n.statuses pubkey (some ⟨info, t⟩) })
  | _, _ => none

def Request.limit (limits : Limits) : Request → Nat
  | .get _ => limits.beacon
  | .rpc (.post _) => limits.reth
  | .rpc (.sleep ms) => ms
  | .now => 0
  | .cached _ | .cache _ _ => limits.memory

def machine (limits : Limits) : Machine requests Peers where
  Choice := Choice
  respond := respond limits
  latest since r := some (since + r.limit limits)

end PreconfGateway.Api.Nodes
