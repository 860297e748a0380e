import PreconfGateway.Api.GasPrice
import PreconfGateway.Interleaving.Parties
import PreconfGateway.Server
import PreconfGateway.Services.ValidatorStatusCache

/-! The gateway with its clients: what it asks of the two chains is worked out by their programs, one
request after another, while everything else goes on. -/
namespace PreconfGateway
open Encoding Types Interleaving Api Services
variable {P : Platform}

/-- How the clients of the two chains are set up. -/
structure Clients where
  beaconJson : Beacon.JsonLibrary
  rethJson : Reth.JsonLibrary
  u256 : Reth.U256Library
  beaconApi : Beacon.BeaconApiConfig
  maxRetries : UInt32
  limits : Nodes.Limits

namespace Clients
variable (c : Clients)

/-- One endpoint after another. -/
def beaconMs : Nat := (1 + c.beaconApi.fallbackEndpoints.length) * c.limits.beacon

def statusMs : Nat := c.limits.memory + c.beaconMs + c.limits.memory

/-- Two calls, each with all its attempts and pauses. -/
def rethMs : Nat := 2 * (c.maxRetries.toNat * (c.limits.reth + 100 * c.maxRetries.toNat))

def proposerForSlot (slot : UInt64) : Nodes.Client (Result (Option Beacon.ValidatorDuty)) :=
  Nodes.ofBeacon (Beacon.getProposerForSlot c.beaconJson c.beaconApi slot)

def validatorStatus (pubkey : BlsPublicKey) : Nodes.Client (Result Beacon.ValidatorInfo) :=
  ValidatorStatusCache.getStatus c.beaconJson c.beaconApi pubkey

def gasPrice : Nodes.Client (Result Reth.GasPriceInfo) := Reth.getGasPrice c.rethJson c.u256 c.maxRetries

end Clients

/-- What the callers see of a result: the part they read, or the text of the error. -/
def seen {α β : Type} (part : α → β) (r : Result α) : Except String β := (r.map part).mapError Chain.display

/-- The clients do not take longer than the gateway counts with. -/
structure Deployment (P : Platform) extends Gateway P where
  clients : Clients
  beacon : clients.beaconMs ≤ limits.beacon
  status : clients.statusMs ≤ limits.status
  reth : clients.rethMs ≤ limits.reth

namespace Deployment
variable (d : Deployment P)

abbrev Both (P : Platform) : Signature := (requests P).sum Nodes.requests

/-- Questions to the two chains go to the clients, all others out of the gateway. -/
def carry : Implementation (requests P) (Both P)
  | .plain (.proposerForSlot slot) =>
    (d.clients.proposerForSlot slot).right >>= fun r => .ret (seen (Option.map Beacon.ValidatorDuty.toValidatorDuty) r)
  | .plain (.validatorStatus pubkey) =>
    (d.clients.validatorStatus pubkey).right >>= fun r => .ret (seen Beacon.ValidatorInfo.toValidatorInfo r)
  | .plain .gasPrice => d.clients.gasPrice.right >>= fun r => .ret (seen Reth.GasPriceInfo.toGasPriceInfo r)
  | op => Program.request (S := Both P) (.inl op)

abbrev Whole (P : Platform) := World P × Nodes.Peers

def system : System (Both P) (Whole P) Entry Ending where
  toMachine := d.machine.sum (Nodes.machine d.clients.limits)
  code entry := (d.server.code entry).expand d.carry
  admits _ _ _ := True
  together _ _ := True
  permits _ _ _ := True
  droppable _ _ := True

end Deployment

section Times
variable {α : Type} {c : Clients} {last t : Nat}

/-- Whenever it is made, a request is due. -/
def always (_ : Nodes.Request) (_ : Nat) : Prop := True

theorem timely_ask {request : Nodes.Request} {f : request.Reply → Nodes.Client α}
    (h : ∀ r, (f r).Timely (Nodes.machine c.limits) always last (t + request.limit c.limits)) :
    (Nodes.ask request >>= f).Timely (Nodes.machine c.limits) always last t := by
  refine ⟨fun _ _ => trivial,t + request.limit c.limits,fun since u early inTime => ?_,h⟩
  have bound := inTime _ rfl
  omega

theorem timely_done {a : α} (h : t ≤ last) : (Program.ret a).Timely (Nodes.machine c.limits) always last t := h

section Beacon
variable {T : Type} {J : Beacon.JsonLibrary} {read : Json → Option T} {finish : T → Result α} {endpoint : String}

theorem tryFallbacks_timely {bases : List String} {error : Option Chain} :
    (Nodes.ofBeacon (Beacon.tryFallbacks J read finish endpoint bases error)).Timely (Nodes.machine c.limits) always
      (t + bases.length * c.limits.beacon) t := by
  induction bases generalizing error t with
  | nil => exact timely_done (by omega)
  | cons base bases ih =>
    unfold Beacon.tryFallbacks
    rw [Nodes.makeRequest_bind]
    refine timely_ask fun r => ?_
    have bound : t + c.limits.beacon + bases.length * c.limits.beacon = t + (bases.length + 1) * c.limits.beacon := by
      rw [Nat.add_mul]
      omega
    cases Beacon.receive J read (Beacon.joinUrl base endpoint) r with
    | ok record => exact timely_done (by rw [List.length_cons,← bound]; exact Nat.le_add_right _ _)
    | error e =>
      rw [List.length_cons,← bound]
      exact ih

theorem tryEndpoints_timely :
    (Nodes.ofBeacon (Beacon.tryEndpoints J read finish c.beaconApi endpoint)).Timely (Nodes.machine c.limits) always
      (t + c.beaconMs) t := by
  unfold Beacon.tryEndpoints
  rw [Nodes.makeRequest_bind]
  refine timely_ask fun r => ?_
  have bound : t + c.limits.beacon + c.beaconApi.fallbackEndpoints.length * c.limits.beacon = t + c.beaconMs := by
    unfold Clients.beaconMs
    rw [Nat.add_mul]
    omega
  cases Beacon.receive J read (Beacon.joinUrl c.beaconApi.primaryEndpoint endpoint) r with
  | ok record => exact timely_done (by rw [← bound]; exact Nat.le_add_right _ _)
  | error e =>
    rw [← bound]
    exact tryFallbacks_timely

end Beacon

theorem proposerForSlot_timely {slot : UInt64} :
    (c.proposerForSlot slot).Timely (Nodes.machine c.limits) always (t + c.beaconMs) t := by
  unfold Clients.proposerForSlot Beacon.getProposerForSlot Nodes.ofBeacon
  rw [Program.expand_bind]
  refine Program.Timely.bind tryEndpoints_timely fun r => ?_
  cases r <;> exact timely_done (Nat.le_refl _)

theorem validatorStatus_timely {pubkey : BlsPublicKey} :
    (c.validatorStatus pubkey).Timely (Nodes.machine c.limits) always (t + c.statusMs) t := by
  have whole : t + c.statusMs = t + c.limits.memory + c.beaconMs + c.limits.memory := by
    unfold Clients.statusMs
    omega
  rw [whole]
  refine timely_ask fun found => ?_
  dsimp only [Nodes.Request.limit]
  cases found with
  | some info => exact timely_done (by omega)
  | none =>
    refine Program.Timely.bind tryEndpoints_timely fun r => ?_
    cases r with
    | error e => exact timely_done (by omega)
    | ok info => exact timely_ask fun _ => timely_done (Nat.le_refl _)

theorem retryLoop_timely {J : Reth.JsonLibrary} {payload : Json} {left attempts : Nat} :
    (Nodes.ofReth (Reth.retryLoop J payload c.maxRetries left attempts)).Timely (Nodes.machine c.limits) always
      (t + left * (c.limits.reth + 100 * c.maxRetries.toNat)) t := by
  induction left generalizing attempts t with
  | zero => exact timely_done (by omega)
  | succ left ih =>
    rw [Nodes.retryLoop_bind]
    refine timely_ask fun reply => ?_
    dsimp only [Nodes.Request.limit]
    have bound : t + (left + 1) * (c.limits.reth + 100 * c.maxRetries.toNat) =
        t + (c.limits.reth + 100 * c.maxRetries.toNat) + left * (c.limits.reth + 100 * c.maxRetries.toNat) := by
      rw [Nat.add_mul]
      omega
    rw [bound]
    cases Reth.outcome J reply with
    | some result => exact timely_done (by omega)
    | none =>
      dsimp only
      split
      · refine timely_ask fun _ => ?_
        exact ih.mono (by dsimp only [Nodes.Request.limit]; omega) (Nat.le_refl _)
      · exact ih.mono (by omega) (Nat.le_refl _)

theorem blockNumber_timely : (Nodes.ofReth (Reth.getBlockNumber c.rethJson c.maxRetries)).Timely (Nodes.machine c.limits)
    always (t + c.maxRetries.toNat * (c.limits.reth + 100 * c.maxRetries.toNat)) t := by
  unfold Reth.getBlockNumber Nodes.ofReth
  rw [Program.expand_bind]
  refine Program.Timely.bind retryLoop_timely fun r => ?_
  cases r <;> exact timely_done (Nat.le_refl _)

theorem gasPrice_timely : c.gasPrice.Timely (Nodes.machine c.limits) always (t + c.rethMs) t := by
  have call {payload : Json} {t : Nat} := @retryLoop_timely c t c.rethJson payload c.maxRetries.toNat 0
  have twice : t + c.rethMs = t + c.maxRetries.toNat * (c.limits.reth + 100 * c.maxRetries.toNat) +
      c.maxRetries.toNat * (c.limits.reth + 100 * c.maxRetries.toNat) := by
    unfold Clients.rethMs
    omega
  rw [twice]
  refine Program.Timely.bind call fun r => ?_
  rcases r with e | response
  · exact timely_done (Nat.le_add_right _ _)
  · dsimp only
    cases Reth.gasPriceOf c.u256 response with
    | error e => exact timely_done (Nat.le_add_right _ _)
    | ok gasPrice =>
      refine Program.Timely.bind blockNumber_timely fun _ => timely_ask fun _ => timely_done (Nat.le_refl _)

end Times

theorem Nodes.prompt (limits : Nodes.Limits) (request : Nodes.Request) (t : Nat) :
    (Nodes.machine limits).InTime t request t := by
  rintro _ ⟨⟩
  exact Nat.le_add_right _ _

theorem Nodes.answered (request : Nodes.Request) : Nonempty request.Reply := by
  cases request with
  | get url => exact ⟨.error []⟩
  | rpc request =>
    cases request with
    | post payload => exact ⟨.error ""⟩
    | sleep ms => exact ⟨()⟩
  | now => exact ⟨0⟩
  | cached pubkey => exact ⟨none⟩
  | cache pubkey info => exact ⟨()⟩

namespace Deployment
variable (d : Deployment P)

/-- A request that the gateway itself puts to the outside is answered in one step. -/
theorem carries_request (op : Op P) (t : Nat) :
    Carries (d.machine.sum (Nodes.machine d.clients.limits)) d.machine Prod.fst op t
      (Program.request (S := Both P) (.inl op)) t := by
  refine ⟨fun u inTime => inTime,fun v u r v' _ _ answers => ?_⟩
  exact .inl ⟨r,rfl,(Machine.sum_left.mp answers).1⟩

/-- With its clients the gateway does nothing that it may not do without them. -/
theorem refines : Refines d.system d.server d.carry Prod.fst where
  code _ := rfl
  carries op t := by
    have prompt := Nodes.prompt d.clients.limits
    cases op with
    | within deadline q => exact d.carries_request _ t
    | plain q =>
      cases q with
      | proposerForSlot slot =>
        refine Carries.right prompt Nodes.answered proposerForSlot_timely ?_ ?_
        · rintro u soon _ ⟨⟩
          exact Nat.le_trans soon (Nat.add_le_add_left d.beacon t)
        · exact fun w u a => ⟨.duty _,rfl⟩
      | validatorStatus pubkey =>
        refine Carries.right prompt Nodes.answered validatorStatus_timely ?_ ?_
        · rintro u soon _ ⟨⟩
          exact Nat.le_trans soon (Nat.add_le_add_left d.status t)
        · exact fun w u a => ⟨.status _,rfl⟩
      | gasPrice =>
        refine Carries.right prompt Nodes.answered gasPrice_timely ?_ ?_
        · rintro u soon _ ⟨⟩
          exact Nat.le_trans soon (Nat.add_le_add_left d.reth t)
        · exact fun w u a => ⟨.price _,rfl⟩
      | _ => exact d.carries_request _ t
  admits _ _ entry _ := by cases entry <;> exact trivial
  together i j _ := by cases i <;> cases j <;> exact trivial
  permits entry _ _ := by cases entry <;> exact trivial
  droppable entry _ := by cases entry <;> exact trivial

end Deployment
end PreconfGateway
