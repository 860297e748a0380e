import PreconfGateway.FixtureClients
import PreconfGateway.Sources

/-! The gateway with its clients does what the gateway may do, and what it is told about the chains
was said by one of the nodes. -/
namespace PreconfGateway.Properties.Deployed
open Encoding Types Interleaving Api Services Fixture
variable {P : Platform} {d : Deployment P} {w₀ : World P} {s : State (Deployment.Both P) (Deployment.Whole P) Entry Ending}
  {s' : State (requests P) (World P) Entry Ending}

/-- The states have the same tables, messages and time, and the same tasks with the same results. -/
structure Alike (s : State (Deployment.Both P) (Deployment.Whole P) Entry Ending)
    (s' : State (requests P) (World P) Entry Ending) : Prop where
  world : s'.world = s.world.1
  clock : s'.clock = s.clock
  fresh : ∀ id, s.tasks id = none ↔ s'.tasks id = none
  tasks : ∀ id task, s.tasks id = some task → ∃ task', s'.tasks id = some task' ∧ task'.job = task.job ∧
    task'.dropped = task.dropped ∧ ∀ a, task.program = .ret a ↔ task'.program = .ret a

theorem alike_of_simulates {between : Deployment.Whole P → Deployment.Whole P → Prop}
    (h : Simulates d.system.toMachine d.server.toMachine d.carry Prod.fst between s s') : Alike s s' :=
  ⟨h.world,h.clock,fun _ => h.fresh,fun _ _ => h.result⟩

/-- Every run with the clients is a run of the gateway, each answer in it worked out by a program of
its own whose requests the task has seen answered. -/
theorem deployed_refines (d : Deployment P) {n₀ : Nodes.Peers} (hr : Reachable d.system (w₀, n₀) s) :
    ∃ s', Reachable d.server w₀ s' ∧ Alike s s' ∧ ∀ id entry e, s'.Saw id entry e →
      ∃ part v v', (∀ o ∈ part, s.Saw id entry o) ∧
        Run d.system.toMachine (fun _ _ => True) (d.carry e.op) v e.start part e.reply v' e.stop := by
  obtain ⟨s',reached,simulates⟩ := d.refines.reachable (fun _ _ => True) hr (fun _ _ _ _ _ => trivial)
    (fun _ _ => trivial) (fun _ _ _ _ => trivial)
  refine ⟨s',reached,alike_of_simulates simulates,fun id job e saw => ?_⟩
  obtain ⟨part,v,v',mem,run,_⟩ := simulates.explained saw
  exact ⟨part,v,v',mem,run⟩

/-- The call is served with what the nodes say. -/
theorem deployed_served : ∃ s : DeployedState, Reachable deployed.system (.empty _, .empty) s ∧
    s.world.1.delegations.rows = polled offer ∧ s.world.1.commitments.rows = [servedRow] ∧
      s.world.1.congestion.rows = served.congestion.rows := by
  have plays : (deployed.system.script [deployedPoll, deployedCall] (.empty _, .empty) 0).any (fun out =>
      out.2.1.1.delegations.rows = polled offer && out.2.1.1.commitments.rows = [servedRow] &&
        out.2.1.1.congestion.rows = served.congestion.rows) = true := by
    decide +kernel
  obtain ⟨s,hr,hp⟩ := @reach_of_deployed _ (fun w _ => w.1.delegations.rows = polled offer &&
    w.1.commitments.rows = [servedRow] && w.1.congestion.rows = served.congestion.rows) plays
  simp only [Bool.and_eq_true,decide_eq_true_eq] at hp
  exact ⟨s,hr,hp.1.1,hp.1.2,hp.2⟩

/-- The call that was served with the nodes' answers, as a run of the gateway. -/
theorem deployed_refines_served : ∃ (s : DeployedState) (s' : State (requests (platform offer)) (World (platform offer)) Entry Ending),
    s.world.1.commitments.rows = [servedRow] ∧ Reachable small.server (.empty _) s' ∧ Alike s s' := by
  obtain ⟨s,hr,_,rows,_⟩ := deployed_served
  obtain ⟨s',reached,alike,_⟩ := deployed_refines deployed hr
  exact ⟨s,s',rows,reached,alike⟩

/-- In every run with the clients, each status, duty and price that the gateway acts on is the answer of a program of
its own whose requests the task has seen answered, and was said by a node: duties and prices during the question, a
status at most as long before as it may be kept. -/
theorem deployed_answers_sourced (d : Deployment P) (hr : Reachable d.system (w₀, .empty) s) :
    ∃ s', Reachable d.server w₀ s' ∧ Alike s s' ∧ ∀ id entry e, s'.Saw id entry e →
      (∃ part v v', (∀ o ∈ part, s.Saw id entry o) ∧
        Run d.system.toMachine (fun _ _ => True) (d.carry e.op) v e.start part e.reply v' e.stop) ∧
      d.Sourced s.world.2 e.start e.stop e.op e.reply := by
  obtain ⟨s',reached,simulates⟩ := Deployment.simulated hr
  refine ⟨s',reached,alike_of_simulates simulates,fun id entry e saw => ⟨?_,Deployment.sourced hr simulates saw⟩⟩
  obtain ⟨part,v,v',mem,run,_⟩ := simulates.explained saw
  exact ⟨part,v,v',mem,run.mono fun _ _ _ => trivial⟩

theorem deployed_answers_sourced_served : ∃ (s : DeployedState) (s' : State (requests (platform offer)) (World (platform offer)) Entry Ending),
    s.world.1.commitments.rows = [servedRow] ∧ Reachable small.server (.empty _) s' ∧ Alike s s' ∧
      ∀ id entry e, s'.Saw id entry e →
        (∃ part v v', (∀ o ∈ part, s.Saw id entry o) ∧
          Run deployed.system.toMachine (fun _ _ => True) (deployed.carry e.op) v e.start part e.reply v' e.stop) ∧
        deployed.Sourced s.world.2 e.start e.stop e.op e.reply := by
  obtain ⟨s,hr,_,rows,_⟩ := deployed_served
  obtain ⟨s',reached,alike,sourced⟩ := deployed_answers_sourced deployed hr
  exact ⟨s,s',rows,reached,alike,sourced⟩

end PreconfGateway.Properties.Deployed
