import PreconfGateway.Interleaving.Counted
import PreconfGateway.Interleaving.Ledger

/-! Calls that take effect at one moment each. The moves that are read off the ledger of a run are a run of a
sequential object, with one move for a task at most, and a longer run only adds to them. -/
namespace PreconfGateway.Interleaving
variable {S : Signature} {W J R α β : Type}

/-- A sequential object: what a move makes of a state, if it fits. -/
structure Object where
  State : Type
  Move : Type
  move : State → Move → Option State

def Object.run (O : Object) (a : O.State) (moves : List O.Move) : Option O.State := moves.foldlM O.move a

/-- How worlds are states of an object and events its moves. -/
structure View (S : Signature) (W : Type) (O : Object) where
  state : W → O.State
  move : Event S W → Option O.Move

namespace View
variable {O : Object} (V : View S W O)

/-- The event makes its move, or leaves the state alone. -/
def Follows (e : Event S W) : Prop :=
  match V.move e with
  | some m => O.move (V.state e.pre) m = some (V.state e.post)
  | none => V.state e.post = V.state e.pre

variable {V} in
theorem Follows.of_some {e : Event S W} {m : O.Move} (made : V.move e = some m)
    (moved : O.move (V.state e.pre) m = some (V.state e.post)) : V.Follows e := by
  unfold Follows
  rw [made]
  exact moved

variable {V} in
theorem Follows.of_none {e : Event S W} (none : V.move e = none) (still : V.state e.post = V.state e.pre) : V.Follows e := by
  unfold Follows
  rw [none]
  exact still

/-- The moves of a ledger, the oldest first, each with the number of the task that made it. -/
def moves (log : List (Entry S W J)) : List (Nat × O.Move) :=
  log.reverse.filterMap fun entry => (V.move entry.event).map fun m => (entry.id, m)

theorem moves_append (more log : List (Entry S W J)) : V.moves (more ++ log) = V.moves log ++ V.moves more := by
  simp [moves]

theorem mem_moves {log : List (Entry S W J)} {id : Nat} {m : O.Move} :
    (id, m) ∈ V.moves log ↔ ∃ entry ∈ log, entry.id = id ∧ V.move entry.event = some m := by
  simp [moves,and_comm]

theorem run_moves {w₀ w : W} {log : List (Entry S W J)} (h : Linked w₀ log w)
    (follows : ∀ entry ∈ log, V.Follows entry.event) :
    O.run (V.state w₀) ((V.moves log).map Prod.snd) = some (V.state w) := by
  refine h.invariant (fun log w => O.run (V.state w₀) ((V.moves log).map Prod.snd) = some (V.state w)) rfl ?_
  intro entry he past before
  have split : V.moves (entry :: past) = V.moves past ++ V.moves [entry] := V.moves_append [entry] past
  have last := follows entry he
  unfold Follows at last
  unfold Object.run at before ⊢
  rw [split,List.map_append,List.foldlM_append,before]
  cases made : V.move entry.event with
  | none =>
    rw [made] at last
    simp [moves,made,last]
  | some m =>
    rw [made] at last
    simp [moves,made,last]

end View

variable {sys : System S W J R} {w₀ : W} {s s' : State S W J R} {marked : S.Op → Bool}

section Once
variable {O : Object} (V : View S W O)

/-- As often as a number stands in the moves, its task has made one. -/
theorem View.count_moves (log : List (Entry S W J)) (id : Nat) : ((V.moves log).map Prod.fst).count id =
    ((log.filter fun entry => entry.id = id).map Entry.event).countP fun e => (V.move e).isSome := by
  induction log with
  | nil => rfl
  | cons entry log ih =>
    have split : V.moves (entry :: log) = V.moves log ++ V.moves [entry] := V.moves_append [entry] log
    rw [split,List.map_append,List.count_append,ih]
    by_cases own : entry.id = id
    · rw [List.filter_cons_of_pos (by simpa using own),List.map_cons,List.countP_cons]
      cases made : V.move entry.event <;> simp [View.moves,made,own]
    · rw [List.filter_cons_of_neg (by simpa using own)]
      cases made : V.move entry.event <;> simp [View.moves,made,own]

end Once

/-- The calls of a state in the order of their moves: a run of the object from the first world to the present
one, in which every move is an event of its task and no task has more than one. -/
structure State.Ordered {O : Object} (s : State S W J R) (V : View S W O) (w₀ : W) (points : List (Nat × O.Move)) : Prop where
  run : O.run (V.state w₀) (points.map Prod.snd) = some (V.state s.world)
  once : (points.map Prod.fst).Nodup
  own : ∀ id m, (id, m) ∈ points ↔ ∃ job e, s.Saw id job e ∧ V.move e = some m

section Ordered
variable {O : Object} {V : View S W O} {log : List (Entry S W J)}

theorem State.Logged.ordered (h : s.Logged w₀ log) (follows : ∀ entry ∈ log, V.Follows entry.event)
    (marks : ∀ e m, V.move e = some m → marked e.op = true)
    (counted : ∀ id task, s.tasks id = some task → task.Counted marked 1) : s.Ordered V w₀ (V.moves log) := by
  refine ⟨V.run_moves h.linked follows,List.nodup_iff_count.mpr fun id => ?_,fun id m => ?_⟩
  · rw [V.count_moves,← h.traces]
    unfold State.traceOf
    cases ht : s.tasks id with
    | none => exact Nat.zero_le 1
    | some task =>
      obtain ⟨_,_,bound⟩ := counted id task ht
      refine Nat.le_trans (List.countP_mono_left fun e _ made => ?_) (Nat.le_of_add_right_le bound)
      obtain ⟨m,made⟩ := Option.isSome_iff_exists.mp made
      exact marks e m made
  · rw [View.mem_moves]
    constructor
    · rintro ⟨entry,he,rfl,made⟩
      exact ⟨entry.job,entry.event,h.saw he,made⟩
    · rintro ⟨job,e,saw,made⟩
      exact ⟨⟨id, job, e⟩,h.mem saw,rfl,made⟩

/-- Where every event follows the object and no code makes more than one marked request, the moves of a run are
in an order that a longer run goes on from. -/
theorem Reachable.ordered (hr : Reachable sys w₀ s) (steps : Relation.ReflTransGen (Step sys) s s')
    (follows : ∀ {u}, Reachable sys w₀ u → ∀ {id job e}, u.Saw id job e → V.Follows e)
    (marks : ∀ e m, V.move e = some m → marked e.op = true) (code : ∀ job, (sys.code job).AtMost marked 1) :
    ∃ past more, s.Ordered V w₀ past ∧ s'.Ordered V w₀ (past ++ more) := by
  obtain ⟨log,logged⟩ := hr.logged
  obtain ⟨new,logged'⟩ := logged.later steps
  have ordered {u : State S W J R} {log : List (Entry S W J)} (hu : Reachable sys w₀ u) (h : u.Logged w₀ log) :
      u.Ordered V w₀ (V.moves log) :=
    h.ordered (fun entry he => follows hu (h.saw he)) marks fun id task ht => hu.counted code ht
  refine ⟨V.moves log,V.moves new,ordered hr logged,?_⟩
  rw [← V.moves_append]
  exact ordered (hr.steps steps) logged'

end Ordered

end PreconfGateway.Interleaving
