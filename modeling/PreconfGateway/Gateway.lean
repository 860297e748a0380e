import PreconfGateway.Rpc.Handlers
import PreconfGateway.Services.ConstraintSubmission
import PreconfGateway.Services.DelegationPolling

/-! The running gateway: calls of clients and ticks of the schedulers over one world. -/
namespace PreconfGateway
open Encoding Types Crypto Interleaving Rpc Services

/-- A started gateway has a domain that parses. -/
structure Gateway (P : Platform) where
  config : Config P
  limits : Limits
  blsManager : BlsManager
  started : BlsManager.new config.delegation.domainApplicationGateway = .ok blsManager

inductive Job
  | commitmentRequest (params : Option CommitmentRequest)
  | commitmentResult (params : Option String)
  | pollDelegations
  | cleanupExpiredDelegations
  | processPendingConstraints
  | submitConstraintNow (slot : UInt64) (payload : Bytes) (committerAddress : String)
  deriving DecidableEq

inductive Outcome
  | commitment (r : RpcResult SignedCommitment)
  | finished (r : Result Unit)
  | submitted (r : Result String)

/-- The commitment that a call was answered with. -/
def Outcome.commitment? : Outcome → Option SignedCommitment
  | .commitment (.ok sc) => some sc
  | _ => none

namespace Gateway
variable {P : Platform} (g : Gateway P)

def code : Job → Async P Outcome
  | .commitmentRequest params => do
    let r ← commitmentRequestHandler g.config params
    pure (.commitment r)
  | .commitmentResult params => do
    let r ← commitmentResultHandler P params
    pure (.commitment r)
  | .pollDelegations => do
    let r ← DelegationPolling.pollDelegations g.config
    pure (.finished r)
  | .cleanupExpiredDelegations => do
    let r ← DelegationPolling.cleanupExpiredDelegations g.config
    pure (.finished r)
  | .processPendingConstraints => do
    let r ← ConstraintSubmission.processPendingConstraints g.blsManager g.config
    pure (.finished r)
  | .submitConstraintNow slot payload committerAddress => do
    let r ← ConstraintSubmission.submitConstraint g.blsManager g.config slot payload committerAddress
    pure (.submitted r)

def machine : Machine (requests P) (World P) := world P g.limits g.config.constraintsApi

/-- Anything may start at any time, run beside anything, meet any answer and break off anywhere. -/
def system : System (requests P) (World P) Job Outcome where
  toMachine := g.machine
  code := g.code
  admits _ _ _ := True
  together _ _ := True
  permits _ _ _ := True
  droppable _ _ := True

end Gateway

def World.empty (P : Platform) : World P := ⟨.empty, .empty, .empty, []⟩

end PreconfGateway
