import PreconfGateway.Clients
import PreconfGateway.Fixture

/-! The small gateway with clients, and what the nodes answer them. -/
namespace PreconfGateway.Fixture
open Encoding Types Db Interleaving Api

/-- An endpoint's page about a validator. -/
def statusPage (slashed : Bool) : Json := .object [("data", .object [("index", .string "7"),("status", .string "active_ongoing"),
  ("validator", .object [("pubkey", .string ""),("slashed", .bool slashed)])])]

/-- An endpoint's page with the duty of the fifth slot. -/
def dutiesPage : Json := .object [("execution_optimistic", .bool false),("finalized", .bool true),
  ("data", .array [.object [("validator_index", .string "7"),("pubkey", .string scheduled.pubkey),("slot", .string "5")]])]

/-- The execution node's reply to a call. -/
def rpcReply (result : String) : Json := .object [("jsonrpc", .string "2.0"),("id", .natural 1),("result", .string result)]

/-- The clients, with readers of these pages and replies. -/
def clients : Clients where
  beaconJson := ⟨Json.readerOf [statusPage false, statusPage true, dutiesPage], fun _ _ => ""⟩
  rethJson := ⟨Json.readerOf [rpcReply "0xa", rpcReply "0x14", rpcReply "0x1"], fun _ => ""⟩
  u256 := ⟨fun _ => ""⟩
  beaconApi := ⟨"http://beacon", []⟩
  maxRetries := 1
  limits := ⟨100, 100, 10, 300⟩

def deployed : Deployment (platform offer) where
  toGateway := small
  clients := clients
  beacon := by decide
  status := by decide
  reth := by decide

abbrev DeployedScene := Scene Entry deployed.system.Choice

/-- A reply of an endpoint. -/
def page (v : Json) (time : Nat) : deployed.system.Choice × Nat := (.inr (.page (.ok ⟨200, Json.printed v⟩)), time)

/-- A reply of the execution node. -/
def rpc (result : String) (time : Nat) : deployed.system.Choice × Nat :=
  (.inr (.reply (.ok ⟨200, some (Json.printed (rpcReply result))⟩)), time)

/-- The poll, with the proposer's status from an endpoint. -/
def deployedPoll : DeployedScene where
  job := .inl .pollDelegations
  time := 60000
  choices := [(.inl .done, 60000),(.inl (.response (.ok ⟨200, some (Json.printed (listing offer))⟩)), 60000),(.inr .done, 60000),
    page (statusPage false) 60000,(.inr .done, 60000),(.inl (.ids [0]), 60000),(.inl .done, 60100)]

/-- The call, with the duty from an endpoint and the price from the execution node. -/
def deployedCall : DeployedScene where
  job := .inl <| .commitmentRequest (some (request 5 7 own))
  time := 61000
  choices := [(.inl .done, 61000),(.inl (.delegations (polled offer)), 61000),page dutiesPage 61000,
    (.inl (.row 0 0), 61000),rpc "0xa" 61000,rpc "0x1" 61000,(.inr .done, 61000),(.inl .done, 61000),(.inl .done, 61000)]

abbrev DeployedState := State (Deployment.Both (platform offer)) (Deployment.Whole (platform offer)) Entry Ending

/-- A script whose end passes a test leads to a state that passes it. -/
theorem reach_of_deployed {scenes : List DeployedScene} {p : Deployment.Whole (platform offer) → Nat → Bool}
    (h : (deployed.system.script scenes (.empty _, .empty) 0).any (fun out => p out.2.1 out.2.2) = true) :
    ∃ s : DeployedState, Reachable deployed.system (.empty _, .empty) s ∧ p s.world s.clock = true := by
  obtain ⟨⟨outs,w,t⟩,played,hp⟩ := (Option.any_eq_true _ _).mp h
  obtain ⟨s,hr,_,rfl,rfl,_⟩ := System.script_reachable (.initial 0) (fun _ _ h => (by cases h))
    (fun i (_ : 0 ≤ i) => rfl) played (fun _ _ _ => trivial) (fun _ _ _ _ _ _ => trivial)
  exact ⟨s,hr,hp⟩

end PreconfGateway.Fixture
