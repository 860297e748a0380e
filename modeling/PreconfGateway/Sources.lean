import PreconfGateway.Clients
import PreconfGateway.Grounds
import PreconfGateway.Reports

/-! Where the answers come from that the gateway acts on: in every run with the clients, each
status, duty and price was in a reply of one of the nodes, and the reply was recent. -/
namespace PreconfGateway
open Encoding Types Interleaving Api Services
variable {P : Platform} {w₀ : World P}

namespace Deployment
variable (d : Deployment P)

abbrev Fresh (n : Nodes.Peers) (pubkey : BlsPublicKey) (info : Beacon.ValidatorInfo) (t : Nat) : Prop :=
  Nodes.Fresh d.clients.beaconJson d.clients.beaconApi d.clients.limits n pubkey info t

abbrev Assigned (n : Nodes.Peers) (slot : UInt64) (duty : Beacon.ValidatorDuty) (t : Nat) : Prop :=
  Nodes.Assigned d.clients.beaconJson d.clients.beaconApi n slot duty t

abbrev Quoted (n : Nodes.Peers) (price t : Nat) : Prop := Nodes.Quoted d.clients.rethJson d.clients.u256 n price t

abbrev Vouched (n : Nodes.Peers) : Prop :=
  Nodes.Vouched d.clients.beaconJson d.clients.beaconApi d.clients.limits n

/-- An answer about the chains has its source on record. -/
def Sourced (n : Nodes.Peers) (start stop : Nat) : (op : Op P) → op.Reply → Prop
  | .plain (.validatorStatus pubkey), reply => ∀ status, reply = .ok status →
    ∃ info : Beacon.ValidatorInfo, info.toValidatorInfo = status ∧ d.Fresh n pubkey info stop
  | .plain (.proposerForSlot slot), reply => ∀ duty, reply = .ok (some duty) →
    ∃ full : Beacon.ValidatorDuty, full.toValidatorDuty = duty ∧ ∃ u, start ≤ u ∧ u ≤ stop ∧ d.Assigned n slot full u
  | .plain .gasPrice, reply => ∀ price, reply = .ok price →
    ∃ u, start ≤ u ∧ u ≤ stop ∧ d.Quoted n price.gasPrice u
  | _, _ => True

abbrev contract : Contract (Both P) (Whole P) :=
  (Nodes.reporting d.clients.beaconJson d.clients.beaconApi d.clients.limits).right

/-- The runs, with what is known of their events. -/
def watched : System (Both P) (Whole P) Entry Ending := { d.system with permits := fun _ _ e => e.pre.2.Past e.stop }

variable {d} {s : State (Both P) (Whole P) Entry Ending}

theorem seen_ok {α β : Type} {part : α → β} {r : Result α} {b : β} (h : seen part r = .ok b) :
    ∃ a, r = .ok a ∧ part a = b := by
  cases r with
  | error e => cases h
  | ok a =>
    cases h
    exact ⟨a,rfl,rfl⟩

/-- Whatever a client returns has its source on record. -/
theorem carry_safe {op : Op P} {tr : List (Event (Both P) (Whole P))} {w : Whole P} {t : Nat} :
    d.contract.Safe d.system.toMachine (fun _ r w t' => d.Sourced w.2 t t' op r) (d.carry op) tr w t := by
  have direct (free : ∀ n u r, d.Sourced n t u op r) : d.contract.Safe d.system.toMachine
      (fun _ r w t' => d.Sourced w.2 t t' op r) (Program.request (S := Both P) (.inl op)) tr w t := by
    refine Contract.Safe.call (fun _ h => by cases h) fun w₁ u r w₂ _ _ _ _ _ _ => ?_
    exact ⟨fun _ h => (by cases h),free w₂.2 u r⟩
  cases op with
  | within deadline q => exact direct fun _ _ _ => trivial
  | plain q =>
    cases q with
    | proposerForSlot slot =>
      refine (Nodes.getProposerForSlot_safe.later.right).bind fun tr r w u h => ?_
      refine Contract.Safe.ret fun duty he => ?_
      obtain ⟨full,rfl,some⟩ := seen_ok he
      obtain ⟨full,rfl,rfl⟩ := Option.map_eq_some_iff.mp some
      exact ⟨full,rfl,u,h.2,Nat.le_refl u,h.1 full rfl⟩
    | validatorStatus pubkey =>
      refine (Nodes.getStatus_safe.right).bind fun tr r w u fresh => ?_
      refine Contract.Safe.ret fun status he => ?_
      obtain ⟨info,rfl,rfl⟩ := seen_ok he
      exact ⟨info,rfl,fresh info rfl⟩
    | gasPrice =>
      refine (Nodes.getGasPrice_safe.right).bind fun tr r w u quoted => ?_
      refine Contract.Safe.ret fun price he => ?_
      obtain ⟨info,rfl,rfl⟩ := seen_ok he
      exact quoted info rfl
    | _ => exact direct fun _ _ _ => trivial

theorem watched_verified : Verified d.watched (fun _ => d.contract) (fun a b => a.2.Evolves b.2)
    (fun _ _ _ _ _ => True) := by
  refine Verified.of_right rfl ?_ ?_ Nodes.reporting_step
  · intro j tr e past o ho
    obtain ⟨op,r,start,stop,pre,post⟩ := e
    cases op with
    | inl op => cases ho
    | inr op =>
      cases ho
      exact past
  · intro j w t
    refine Contract.Safe.expand (Program.obeys_true _) fun op _ tr w t => ?_
    exact carry_safe.mono fun _ _ _ _ _ => trivial

/-- Nothing is on record before it has arrived. -/
theorem reachable_past (hr : Reachable d.system (w₀, .empty) s) {id : Nat} {entry : Entry} {e : Event (Both P) (Whole P)}
    (saw : s.Saw id entry e) : e.pre.2.Past e.stop := by
  refine (hr.clocked (fun w t => w.2.Past t) ?_ ?_ ?_).2 id entry e saw
  · exact fun t => ⟨nofun,nofun⟩
  · exact fun w t u past later => past.later later
  · intro t w op r w' past answers
    cases op with
    | inl op =>
      rw [(Machine.sum_left.mp answers).2]
      exact past
    | inr op => exact (Nodes.Serves.of_answers (Machine.sum_right.mp answers).1).past past

/-- What is known of the nodes' part of the world, whenever a client goes on. -/
def Settled (d : Deployment P) (a b : Whole P) : Prop := a.2.Evolves b.2 ∧ d.Vouched b.2

abbrev Simulated (d : Deployment P) (s : State (Both P) (Whole P) Entry Ending)
    (s' : State (requests P) (World P) Entry Ending) : Prop :=
  Simulates d.system.toMachine d.server.toMachine d.carry Prod.fst d.Settled s s'

theorem simulated (hr : Reachable d.system (w₀, .empty) s) :
    ∃ s', Reachable d.server w₀ s' ∧ d.Simulated s s' := by
  have narrows : Narrows d.watched d.system :=
    ⟨rfl,rfl,fun _ _ _ h => h,fun _ _ h => h,fun _ _ _ _ => trivial,fun _ _ h => h⟩
  have keeps (w : Whole P) : d.Vouched w.2 ↔ ∀ _ : Entry, d.Vouched w.2 := ⟨fun h _ => h,fun h => h (.inr .slots)⟩
  have begins : d.Vouched Nodes.Peers.empty := fun _ _ h => by cases h
  exact (d.refines.narrow narrows).verified (fun w => d.Vouched w.2) watched_verified keeps
    (begins : d.Vouched (w₀, Nodes.Peers.empty).2) (hr.permitted (fun _ e => e.pre.2.Past e.stop) fun _ _ _ => reachable_past hr)

theorem Fresh.later {n n' : Nodes.Peers} {pubkey : BlsPublicKey} {info : Beacon.ValidatorInfo} {t : Nat}
    (h : d.Fresh n pubkey info t) (later : n.Evolves n') : d.Fresh n' pubkey info t := by
  obtain ⟨u,before,reported,soon⟩ := h
  exact ⟨u,before,reported.later later,soon⟩

theorem Sourced.later {n n' : Nodes.Peers} {start stop : Nat} {op : Op P} {r : op.Reply}
    (h : d.Sourced n start stop op r) (later : n.Evolves n') : d.Sourced n' start stop op r := by
  cases op with
  | within deadline q => exact trivial
  | plain q =>
    cases q with
    | proposerForSlot slot =>
      intro duty he
      obtain ⟨full,same,u,begun,ended,assigned⟩ := h duty he
      exact ⟨full,same,u,begun,ended,assigned.later later⟩
    | validatorStatus pubkey =>
      intro status he
      obtain ⟨info,same,fresh⟩ := h status he
      exact ⟨info,same,Fresh.later fresh later⟩
    | gasPrice =>
      intro price he
      obtain ⟨u,begun,ended,quoted⟩ := h price he
      exact ⟨u,begun,ended,quoted.later later⟩
    | _ => exact trivial

/-- What the gateway is told about the chains in a run with its clients has its source on record. -/
theorem sourced {s' : State (requests P) (World P) Entry Ending} (hr : Reachable d.system (w₀, .empty) s)
    (h : d.Simulated s s') {id : Nat} {entry : Entry} {e : Event (requests P) (World P)} (saw : s'.Saw id entry e) :
    d.Sourced s.world.2 e.start e.stop e.op e.reply := by
  obtain ⟨part,v,v',mem,run,_,since⟩ := h.explained saw
  have found := (carry_safe : d.contract.Safe _ _ _ [] v e.start).established run (fun a b settled => ⟨settled.2,settled.1⟩) ?_
  · exact found.later since.1
  · intro tr o listed r own
    have past := reachable_past hr (mem o listed)
    obtain ⟨op,r',start,stop,pre,post⟩ := o
    cases op with
    | inl op => cases own
    | inr op =>
      cases own
      exact past

/-- At this time a status of the proposer was known, not much older, with this verdict. -/
def Known (d : Deployment P) (n : Nodes.Peers) (proposer : Bytes) (verdict : Bool) (t : Nat) : Prop :=
  ∃ (pubkey : BlsPublicKey) (info : Beacon.ValidatorInfo), proposer = pubkey.bytes ∧ d.Fresh n pubkey info t ∧
    DelegationPolling.eligible info.toValidatorInfo = verdict

/-- Whoever was judged had been reported so. -/
theorem judged_known {s' : State (requests P) (World P) Entry Ending} (hr : Reachable d.system (w₀, .empty) s)
    (h : d.Simulated s s') {id : Nat} {entry : Entry} {older : Trace P} {t : Nat} (seen : s'.Seen id entry older t)
    {proposer : Bytes} {verdict : Bool} (judged : Grounds.Judged older proposer verdict) :
    ∃ u ≤ t, d.Known s.world.2 proposer verdict u := by
  obtain ⟨pubkey,_,key,⟨start,stop,w,w',listed⟩,rfl⟩ := judged
  obtain ⟨saw,before⟩ := seen _ listed
  obtain ⟨info,rfl,fresh⟩ := sourced hr h saw _ rfl
  exact ⟨stop,before,pubkey,info,key,fresh,rfl⟩

/-- In this task the status of the proposer was looked up, with this answer and before this time: an endpoint
had reported it, no longer before the lookup's end than a status may be kept. -/
def LookedUp (d : Deployment P) (s : State (Both P) (Whole P) Entry Ending) (id : Nat) (entry : Entry)
    (pubkey : BlsPublicKey) (info : Beacon.ValidatorInfo) (t : Nat) : Prop :=
  ∃ (first : Event (Both P) (Whole P)) (rest : List (Event (Both P) (Whole P))) (v v' : Whole P) (u : Nat),
    first.op = .inr (.cached pubkey) ∧ (∀ o ∈ first :: rest, s.Saw id entry o) ∧
      Run d.system.toMachine (fun _ _ => True) (d.carry (.plain (.validatorStatus pubkey))) v first.start (first :: rest)
        (.ok info.toValidatorInfo) v' u ∧ first.stop ≤ u ∧ u ≤ t ∧ d.Fresh s.world.2 pubkey info u

/-- A lookup starts at the cache. -/
theorem lookup_first {between : Whole P → Whole P → Prop} {pubkey : BlsPublicKey} {v v' : Whole P} {t u : Nat}
    {part : List (Event (Both P) (Whole P))} {r : Except String ValidatorInfo}
    (run : Run d.system.toMachine between (d.carry (.plain (.validatorStatus pubkey))) v t part r v' u) :
    ∃ first rest, part = first :: rest ∧ first.op = .inr (.cached pubkey) ∧ first.start = t ∧ first.stop ≤ u := by
  cases run with
  | call other later inTime answers rest => exact ⟨_,_,rfl,rfl,rfl,rest.later⟩

/-- Whoever was judged had been looked up by the task that judged. -/
theorem judged_looked_up {s' : State (requests P) (World P) Entry Ending} (hr : Reachable d.system (w₀, .empty) s)
    (h : d.Simulated s s') {id : Nat} {entry : Entry} {older : Trace P} {t : Nat} (seen : s'.Seen id entry older t)
    {proposer : Bytes} {verdict : Bool} (judged : Grounds.Judged older proposer verdict) :
    ∃ pubkey info, proposer = pubkey.bytes ∧ DelegationPolling.eligible info.toValidatorInfo = verdict ∧
      d.LookedUp s id entry pubkey info t := by
  obtain ⟨pubkey,_,key,⟨start,stop,w,w',listed⟩,rfl⟩ := judged
  obtain ⟨saw,before⟩ := seen _ listed
  obtain ⟨info,rfl,fresh⟩ := sourced hr h saw _ rfl
  obtain ⟨part,v,v',mem,run,_⟩ := h.explained saw
  obtain ⟨first,rest,rfl,cached,rfl,early⟩ := lookup_first run
  exact ⟨pubkey,info,key,rfl,first,rest,v,v',stop,cached,mem,run.mono (fun _ _ _ => trivial),early,before,fresh⟩

/-- Whatever price was given had been quoted. -/
theorem priced_quoted {s' : State (requests P) (World P) Entry Ending} (hr : Reachable d.system (w₀, .empty) s)
    (h : d.Simulated s s') {id : Nat} {entry : Entry} {older : Trace P} {t : Nat} (seen : s'.Seen id entry older t)
    {base : Int64} (priced : Grounds.Priced older base) :
    ∃ price, base = (GasPriceInfo.gasPriceAsU64Clamped ⟨price⟩).toInt64 ∧ ∃ u ≤ t, d.Quoted s.world.2 price u := by
  obtain ⟨⟨price⟩,⟨start,stop,w,w',told⟩,base⟩ := priced
  obtain ⟨sees,early⟩ := seen _ told
  obtain ⟨u,_,ended,quoted⟩ := sourced hr h sees _ rfl
  exact ⟨price,base,u,Nat.le_trans ended early,quoted⟩

theorem carry_sql {op : Op P} {statement : Statement P} (h : op.query = .sql statement) :
    d.carry op = Program.request (S := Both P) (.inl op) := by
  cases op with
  | within deadline q => rfl
  | plain q =>
    cases h
    rfl

/-- A request that goes to no client is put as it is, in one event with the same reply, which is the one that
changes what it changes. -/
theorem direct_whole {s' : State (requests P) (World P) Entry Ending} (h : d.Simulated s s') {id : Nat} {entry : Entry}
    {e : Event (requests P) (World P)} (saw : s'.Saw id entry e)
    (direct : d.carry e.op = Program.request (S := Both P) (.inl e.op)) :
    ∃ pre post : Whole P, s.Saw id entry ⟨.inl e.op, e.reply, e.start, e.stop, pre, post⟩ ∧
      d.machine.Answers e.stop pre.1 e.op e.reply post.1 ∧ (e.pre ≠ e.post → pre.1 = e.pre ∧ post.1 = e.post) := by
  obtain ⟨part,v,v',mem,run,happens,_⟩ := h.explained saw
  rw [direct] at run
  cases run with
  | call other later inTime answers rest =>
    obtain ⟨rfl,rfl,_,rfl⟩ := rest.ret_inv
    refine ⟨_,_,mem _ List.mem_cons_self,(Machine.sum_left.mp answers).1,fun moved => ?_⟩
    obtain ⟨o,listed,pre,post,_⟩ := happens.resolve_left moved
    rw [← pre,← post,List.mem_singleton.mp listed]
    exact ⟨rfl,rfl⟩

theorem direct_event {s' : State (requests P) (World P) Entry Ending} (h : d.Simulated s s') {id : Nat} {entry : Entry}
    {e : Event (requests P) (World P)} (saw : s'.Saw id entry e)
    (direct : d.carry e.op = Program.request (S := Both P) (.inl e.op)) :
    ∃ o : Event (Both P) (Whole P), s.Saw id entry o ∧ o.op = .inl e.op ∧ o.stop = e.stop ∧
      d.machine.Answers o.stop o.pre.1 e.op e.reply o.post.1 := by
  obtain ⟨pre,post,saw,answers,_⟩ := direct_whole h saw direct
  exact ⟨_,saw,rfl,rfl,answers⟩

/-- What such a request changes is changed in an event of the same task. -/
theorem direct_moved {s' : State (requests P) (World P) Entry Ending} (h : d.Simulated s s') {id : Nat} {entry : Entry}
    {e : Event (requests P) (World P)} (saw : s'.Saw id entry e)
    (direct : d.carry e.op = Program.request (S := Both P) (.inl e.op)) (moved : e.pre ≠ e.post) :
    ∃ o : Event (Both P) (Whole P), s.Saw id entry o ∧ o.start = e.start ∧ o.pre.1 = e.pre ∧ o.post.1 = e.post := by
  obtain ⟨pre,post,saw,_,own⟩ := direct_whole h saw direct
  exact ⟨_,saw,rfl,own moved⟩

/-- What the server's code keeps to, it keeps to with its clients. -/
theorem system_obeys {ok : Entry → Query P → Prop}
    (h : ∀ entry, (d.server.code entry).Obeys (fun op : Op P => ok entry op.query) (fun _ => True)) (entry : Entry) :
    (d.system.code entry).Obeys (Sum.elim (fun op : Op P => ok entry op.query) (fun _ => True)) (fun _ => True) := by
  let own : (Both P).Op → Prop := Sum.elim (fun op : Op P => ok entry op.query) (fun _ => True)
  have outside {α : Type} (p : Nodes.Client α) : p.right.Obeys own (fun _ => True) :=
    (Program.obeys_true p).expand fun op _ => ⟨trivial,fun _ => trivial⟩
  refine (h entry).expand fun op asks => ?_
  have direct : (Program.request (S := Both P) (.inl op)).Obeys own (fun _ => True) := ⟨asks,fun _ => trivial⟩
  cases op with
  | within deadline q => exact direct
  | plain q =>
    cases q with
    | proposerForSlot | validatorStatus | gasPrice => exact (outside _).bind fun _ _ => trivial
    | _ => exact direct

/-- With its clients the server itself asks for what it asked for without them, and the world that it
keeps is changed by nothing else. -/
theorem asked {v₀ : Whole P} (hr : Reachable d.system v₀ s) {id : Nat} {entry : Entry} {o : Event (Both P) (Whole P)}
    (saw : s.Saw id entry o) : o.post.1 = o.pre.1 ∨
      ∃ op : Op P, o.op = .inl op ∧ d.Requests entry op.query ∧ Changes o.pre.1 op.query o.post.1 := by
  obtain ⟨within_,answers⟩ := hr.obeys (system_obeys d.server_obeys) saw
  obtain ⟨op,r,start,stop,pre,post⟩ := o
  cases op with
  | inl op => exact .inr ⟨op,rfl,within_,Changes.of_answers (Machine.sum_left.mp answers).1⟩
  | inr op => exact .inl (Machine.sum_right.mp answers).2

end Deployment
end PreconfGateway
