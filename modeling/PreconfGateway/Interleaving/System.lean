import Mathlib.Logic.Function.Basic
import Mathlib.Logic.Relation
import PreconfGateway.Interleaving.Program

/-! Tasks running programs over one shared world. A step starts a task, answers
one pending request atomically, lets time pass, or drops a task where it stands. -/
namespace PreconfGateway.Interleaving
variable {S : Signature} {W J R α : Type}

/-- How the world answers requests. The choice settles everything the asker does
not control; no answer means the choice does not fit the request. -/
structure Machine (S : Signature) (W : Type) where
  Choice : Type
  respond : Nat → W → (op : S.Op) → Choice → Option (S.Reply op × W)
  latest : Nat → S.Op → Option Nat

namespace Machine
variable (M : Machine S W)

def Answers (t : Nat) (w : W) (op : S.Op) (r : S.Reply op) (w' : W) : Prop :=
  ∃ c, M.respond t w op c = some (r, w')

/-- A request made at since may be answered at t. -/
def InTime (since : Nat) (op : S.Op) (t : Nat) : Prop :=
  ∀ b, M.latest since op = some b → t ≤ b

end Machine

/-- One answered request, with the worlds right before and right after it. -/
structure Event (S : Signature) (W : Type) where
  op : S.Op
  reply : S.Reply op
  start : Nat
  stop : Nat
  pre : W
  post : W

/-- A task keeps its own events, newest first. -/
structure Task (S : Signature) (W J R : Type) where
  job : J
  program : Program S R
  since : Nat
  trace : List (Event S W)
  dropped : Bool

def Task.Waits (task : Task S W J R) (op : S.Op) : Prop :=
  task.dropped = false ∧ task.program.pending = some op

def Task.Running (task : Task S W J R) : Prop := ∃ op, task.Waits op

/-- The last four fields delimit the runs considered: which jobs may start when,
which may be in flight together, which answers occur, and where a task may be dropped. -/
structure System (S : Signature) (W J R : Type) extends Machine S W where
  code : J → Program S R
  admits : Nat → W → J → Prop
  together : J → J → Prop
  permits : J → List (Event S W) → Event S W → Prop
  droppable : J → S.Op → Prop

structure State (S : Signature) (W J R : Type) where
  world : W
  clock : Nat
  tasks : Nat → Option (Task S W J R)

namespace State

def initial (w : W) (t : Nat) : State S W J R := ⟨w, t, fun _ => none⟩

def put (s : State S W J R) (id : Nat) (task : Task S W J R) : State S W J R :=
  { s with tasks := Function.update s.tasks id (some task) }

theorem put_same (s : State S W J R) (id : Nat) (task : Task S W J R) :
    (s.put id task).tasks id = some task := by simp [put]

theorem put_other (s : State S W J R) {id other : Nat} (task : Task S W J R) (h : other ≠ id) :
    (s.put id task).tasks other = s.tasks other := by simp [put,h]

end State

inductive Step (sys : System S W J R) : State S W J R → State S W J R → Prop
  | start (s : State S W J R) (id : Nat) (job : J) (fresh : s.tasks id = none)
      (admitted : sys.admits s.clock s.world job)
      (compatible : ∀ other task, s.tasks other = some task → task.Running → sys.together task.job job) :
      Step sys s (s.put id ⟨job, sys.code job, s.clock, [], false⟩)
  | answer (s : State S W J R) (id : Nat) (task : Task S W J R) (op : S.Op)
      (next : S.Reply op → Program S R) (reply : S.Reply op) (w : W)
      (known : s.tasks id = some task) (alive : task.dropped = false)
      (waits : task.program = .call op next)
      (inTime : sys.InTime task.since op s.clock)
      (answers : sys.Answers s.clock s.world op reply w)
      (permitted : sys.permits task.job task.trace ⟨op, reply, task.since, s.clock, s.world, w⟩) :
      Step sys s (State.put { s with world := w } id
        { task with
          program := next reply
          since := s.clock
          trace := ⟨op, reply, task.since, s.clock, s.world, w⟩ :: task.trace })
  | pass (s : State S W J R) (t : Nat) (later : s.clock ≤ t)
      (inTime : ∀ id task op, s.tasks id = some task → task.Waits op → sys.InTime task.since op t) :
      Step sys s { s with clock := t }
  | drop (s : State S W J R) (id : Nat) (task : Task S W J R) (op : S.Op)
      (known : s.tasks id = some task) (waits : task.Waits op)
      (droppable : sys.droppable task.job op) :
      Step sys s (s.put id { task with dropped := true })

/-- States met by some run that starts without tasks. -/
inductive Reachable (sys : System S W J R) (w₀ : W) : State S W J R → Prop
  | initial (t : Nat) : Reachable sys w₀ (.initial w₀ t)
  | step {s s' : State S W J R} : Reachable sys w₀ s → Step sys s s' → Reachable sys w₀ s'

/-- The runs of a system are among those of a second one that allows more. -/
structure Narrows (sys wide : System S W J R) : Prop where
  machine : sys.toMachine = wide.toMachine
  code : sys.code = wide.code
  admits : ∀ t w j, sys.admits t w j → wide.admits t w j
  together : ∀ i j, sys.together i j → wide.together i j
  permits : ∀ j tr e, sys.permits j tr e → wide.permits j tr e
  droppable : ∀ j op, sys.droppable j op → wide.droppable j op

theorem Narrows.step {sys wide : System S W J R} (h : Narrows sys wide) {s s' : State S W J R}
    (hs : Step sys s s') : Step wide s s' := by
  obtain ⟨machine, code, admits, together, permits, droppable⟩ := h
  obtain ⟨_, _, _, _, _, _⟩ := sys
  obtain ⟨_, _, _, _, _, _⟩ := wide
  cases machine
  cases code
  cases hs with
  | start id job fresh admitted compatible =>
    exact .start s id job fresh (admits _ _ _ admitted)
      (fun other task ho hr => together _ _ (compatible other task ho hr))
  | answer id task op next reply w known alive waits inTime answers permitted =>
    exact .answer s id task op next reply w known alive waits inTime answers (permits _ _ _ permitted)
  | pass t later inTime => exact .pass s t later inTime
  | drop id task op known waits hd => exact .drop s id task op known waits (droppable _ _ hd)

theorem Narrows.reachable {sys wide : System S W J R} (h : Narrows sys wide) {w₀ : W}
    {s : State S W J R} (hr : Reachable sys w₀ s) : Reachable wide w₀ s := by
  induction hr with
  | initial t => exact .initial t
  | step _ hs ih => exact ih.step (h.step hs)

end PreconfGateway.Interleaving
