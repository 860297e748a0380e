import Mathlib.Data.Option.Basic
import PreconfGateway.Interleaving.Expansion
import PreconfGateway.Interleaving.History

/-! One system over another: the low one carries out each request of the high one by a
program of its own. Every run of the low system is then one of the high system. -/
namespace PreconfGateway.Interleaving
variable {S T : Signature} {V W J R : Type}

section Carries
variable (low : Machine T V) (high : Machine S W) (abs : V → W) (op : S.Op) (start : Nat)

/-- From its state at this time a program answers a request that was made at start: its last
request does what the high machine may do, and those before leave the high world as it is. A result
that needs no request is an answer in any world. -/
def Carries : Program T (S.Reply op) → Nat → Prop
  | .ret a, t => high.InTime start op t ∧ ∀ v, high.Answers t (abs v) op a (abs v)
  | .call o k, t => (∀ u, low.InTime t o u → high.InTime start op u) ∧
      ∀ v u r v', t ≤ u → low.InTime t o u → low.Answers u v o r v' →
        (∃ a, k r = .ret a ∧ high.Answers u (abs v) op a (abs v')) ∨ (abs v' = abs v ∧ Carries (k r) u)

end Carries

/-- What happened in the high world happened at one of these low events. -/
def Happens (abs : V → W) (part : List (Event T V)) (e : Event S W) : Prop :=
  e.pre = e.post ∨ ∃ d ∈ part, abs d.pre = e.pre ∧ abs d.post = e.post ∧ d.stop = e.stop

/-- The low events of a task, with the runs among them that have worked out its high ones. Both
are listed newest first, and each run has left a world that became the present one. -/
inductive Explains (low : Machine T V) (f : Implementation S T) (abs : V → W) (between : V → V → Prop) (now : V) :
    List (Event S W) → List (Event T V) → Prop
  | nil : Explains low f abs between now [] []
  | cons {es : List (Event S W)} {ds part : List (Event T V)} {e : Event S W} {v v' : V}
      (rest : Explains low f abs between now es ds) (run : Run low between (f e.op) v e.start part.reverse e.reply v' e.stop)
      (happens : Happens abs part e) (since : between v' now) : Explains low f abs between now (e :: es) (part ++ ds)

section Explains
variable {low : Machine T V} {f : Implementation S T} {abs : V → W} {between : V → V → Prop} {now now' : V}
  {es : List (Event S W)} {ds : List (Event T V)}

theorem Explains.later (h : Explains low f abs between now es ds) (later : ∀ v, between v now → between v now') :
    Explains low f abs between now' es ds := by
  induction h with
  | nil => exact .nil
  | cons _ run happens since ih => exact .cons ih run happens (later _ since)

theorem Explains.mem (h : Explains low f abs between now es ds) {e : Event S W} (he : e ∈ es) :
    ∃ part v v', (∀ d ∈ part, d ∈ ds) ∧ Run low between (f e.op) v e.start part e.reply v' e.stop ∧ Happens abs part e ∧
      between v' now := by
  induction h with
  | nil => cases he
  | cons rest run happens since ih =>
    rcases List.mem_cons.mp he with rfl | he
    · refine ⟨_,_,_,fun d hd => List.mem_append_left _ (List.mem_reverse.mp hd),run,?_,since⟩
      simpa only [Happens,List.mem_reverse] using happens
    · obtain ⟨part,v,v',mem,run,happens,since⟩ := ih he
      exact ⟨part,v,v',fun d hd => List.mem_append_right _ (mem d hd),run,happens,since⟩

end Explains

/-- A low task that is the high one, perhaps in the middle of carrying out its request. -/
inductive Stands (low : Machine T V) (high : Machine S W) (f : Implementation S T) (abs : V → W)
    (between : V → V → Prop) (present : V) : Task T V J R → Task S W J R → Prop
  | ended {job : J} {a : R} {since : Nat} {ds : List (Event T V)} {es : List (Event S W)} {dropped : Bool}
      (explained : Explains low f abs between present es ds) :
      Stands low high f abs between present ⟨job, .ret a, since, ds, dropped⟩ ⟨job, .ret a, since, es, dropped⟩
  | waiting {job : J} {op : S.Op} {k : S.Reply op → Program S R} {o : T.Op} {q : T.Reply o → Program T (S.Reply op)}
      {since now : Nat} {w v : V} {part ds : List (Event T V)} {es : List (Event S W)} {dropped : Bool}
      (path : Path low between (f op) w since part (.call o q) v now) (other : between v present)
      (carries : Carries low high abs op since (.call o q) now) (explained : Explains low f abs between present es ds) :
      Stands low high f abs between present ⟨job, .call o (fun x => q x >>= fun r => (k r).expand f), now, part ++ ds, dropped⟩
        ⟨job, .call op k, since, es, dropped⟩

structure Simulates (low : Machine T V) (high : Machine S W) (f : Implementation S T) (abs : V → W)
    (between : V → V → Prop) (s : State T V J R) (s' : State S W J R) : Prop where
  world : s'.world = abs s.world
  clock : s'.clock = s.clock
  tasks : ∀ id, Option.Rel (Stands low high f abs between s.world) (s.tasks id) (s'.tasks id)
  since : ∀ id task, s.tasks id = some task → task.since ≤ s.clock

/-- The high system is at least as liberal in everything but the answers, which the programs
for its requests give as its machine may. -/
structure Refines (low : System T V J R) (high : System S W J R) (f : Implementation S T) (abs : V → W) : Prop where
  code : ∀ j, low.code j = (high.code j).expand f
  carries : ∀ op t, Carries low.toMachine high.toMachine abs op t (f op) t
  admits : ∀ t v j, low.admits t v j → high.admits t (abs v) j
  together : ∀ i j, low.together i j → high.together i j
  permits : ∀ j es e, high.permits j es e
  droppable : ∀ j op, high.droppable j op

theorem State.put_put (s : State S W J R) (id : Nat) (task task' : Task S W J R) :
    (s.put id task).put id task' = s.put id task' := by
  unfold State.put
  rw [Function.update_idem]

/-- Fewer runs of the low system are still runs of the high one. -/
theorem Refines.narrow {low low' : System T V J R} {high : System S W J R} {f : Implementation S T} {abs : V → W}
    (h : Refines low high f abs) (narrows : Narrows low' low) : Refines low' high f abs where
  code j := by rw [narrows.code,h.code]
  carries op t := by
    rw [narrows.machine]
    exact h.carries op t
  admits t v j admitted := h.admits t v j (narrows.admits t v j admitted)
  together i j both := h.together i j (narrows.together i j both)
  permits := h.permits
  droppable := h.droppable

section Steps
variable {low : System T V J R} {high : System S W J R} {f : Implementation S T} {abs : V → W}
  {between : V → V → Prop} {present : V} {s : State T V J R} {s' : State S W J R}

theorem Stands.parts {task : Task T V J R} {task' : Task S W J R}
    (h : Stands low.toMachine high.toMachine f abs between present task task') : task.job = task'.job ∧
      task.dropped = task'.dropped ∧ ((∃ op, task.program.pending = some op) ↔ ∃ op, task'.program.pending = some op) := by
  cases h with
  | ended => exact ⟨rfl,rfl,by simp [Program.pending]⟩
  | waiting => exact ⟨rfl,rfl,by simp [Program.pending]⟩

theorem Stands.running {task : Task T V J R} {task' : Task S W J R}
    (h : Stands low.toMachine high.toMachine f abs between present task task') : task'.Running ↔ task.Running := by
  obtain ⟨_,dropped,pending⟩ := h.parts
  unfold Task.Running Task.Waits
  simp only [dropped,exists_and_left,pending]

theorem Stands.later {task : Task T V J R} {task' : Task S W J R} {present' : V}
    (h : Stands low.toMachine high.toMachine f abs between present task task')
    (later : ∀ v, between v present → between v present') :
    Stands low.toMachine high.toMachine f abs between present' task task' := by
  cases h with
  | ended explained => exact .ended (explained.later later)
  | waiting path other carries explained => exact .waiting path (later _ other) carries (explained.later later)

theorem Simulates.put (h : Simulates low.toMachine high.toMachine f abs between s s') (id : Nat) {task : Task T V J R}
    {task' : Task S W J R} (stands : Stands low.toMachine high.toMachine f abs between s.world task task')
    (since : task.since ≤ s.clock) :
    Simulates low.toMachine high.toMachine f abs between (s.put id task) (s'.put id task') := by
  refine ⟨h.world,h.clock,?_,?_⟩
  · intro other
    by_cases same : other = id
    · subst same
      rw [State.put_same,State.put_same]
      exact .some stands
    · rw [State.put_other _ _ same,State.put_other _ _ same]
      exact h.tasks other
  · intro other found ht
    by_cases same : other = id
    · subst same
      rw [State.put_same] at ht
      cases ht
      exact since
    · rw [State.put_other _ _ same] at ht
      exact h.since other found ht

/-- The worlds move on. -/
theorem Simulates.moved (h : Simulates low.toMachine high.toMachine f abs between s s') {v : V}
    (later : ∀ u, between u s.world → between u v) :
    Simulates low.toMachine high.toMachine f abs between { s with world := v } { s' with world := abs v } := by
  refine ⟨rfl,h.clock,fun id => ?_,h.since⟩
  have related := h.tasks id
  change Option.Rel _ (s.tasks id) (s'.tasks id)
  generalize s.tasks id = o at related ⊢
  generalize s'.tasks id = o' at related ⊢
  cases related with
  | some stands => exact .some (stands.later later)
  | none => exact .none

theorem Simulates.task_high (h : Simulates low.toMachine high.toMachine f abs between s s') {id : Nat}
    {task : Task T V J R} (ht : s.tasks id = some task) :
    ∃ task', s'.tasks id = some task' ∧ Stands low.toMachine high.toMachine f abs between s.world task task' := by
  have related := h.tasks id
  rw [ht] at related
  generalize found : s'.tasks id = o at related
  cases related with
  | some stands => exact ⟨_,rfl,stands⟩

theorem Simulates.task_low (h : Simulates low.toMachine high.toMachine f abs between s s') {id : Nat}
    {task' : Task S W J R} (ht : s'.tasks id = some task') :
    ∃ task, s.tasks id = some task ∧ Stands low.toMachine high.toMachine f abs between s.world task task' := by
  have related := h.tasks id
  rw [ht] at related
  generalize found : s.tasks id = o at related
  cases related with
  | some stands => exact ⟨_,rfl,stands⟩

theorem Simulates.fresh (h : Simulates low.toMachine high.toMachine f abs between s s') {id : Nat} :
    s.tasks id = none ↔ s'.tasks id = none := by
  have related := h.tasks id
  generalize s.tasks id = o at related ⊢
  generalize s'.tasks id = o' at related ⊢
  cases related with
  | some => exact ⟨nofun,nofun⟩
  | none => exact ⟨fun _ => rfl,fun _ => rfl⟩

/-- What a high task was answered was worked out by its low one. -/
theorem Simulates.explained (h : Simulates low.toMachine high.toMachine f abs between s s') {id : Nat} {job : J}
    {e : Event S W} (saw : s'.Saw id job e) : ∃ part v v', (∀ d ∈ part, s.Saw id job d) ∧
      Run low.toMachine between (f e.op) v e.start part e.reply v' e.stop ∧ Happens abs part e ∧ between v' s.world := by
  obtain ⟨task',ht,rfl,he⟩ := saw
  obtain ⟨task,hlow,stands⟩ := h.task_low ht
  cases stands with
  | ended explained =>
    obtain ⟨part,v,v',mem,run⟩ := explained.mem he
    exact ⟨part,v,v',fun d hd => ⟨_,hlow,rfl,mem d hd⟩,run⟩
  | waiting path _ carries explained =>
    obtain ⟨part,v,v',mem,run⟩ := explained.mem he
    exact ⟨part,v,v',fun d hd => ⟨_,hlow,rfl,List.mem_append_right _ (mem d hd)⟩,run⟩

/-- The two tasks end with the same result. -/
theorem Simulates.result (h : Simulates low.toMachine high.toMachine f abs between s s') {id : Nat}
    {task : Task T V J R} (ht : s.tasks id = some task) : ∃ task', s'.tasks id = some task' ∧ task'.job = task.job ∧
      task'.dropped = task.dropped ∧ ∀ a, task.program = .ret a ↔ task'.program = .ret a := by
  obtain ⟨task',hhigh,stands⟩ := h.task_high ht
  refine ⟨task',hhigh,stands.parts.1.symm,stands.parts.2.1.symm,fun a => ?_⟩
  cases stands with
  | ended => exact ⟨fun same => by cases same; rfl,fun same => by cases same; rfl⟩
  | waiting => exact ⟨nofun,nofun⟩

/-- A high task goes on until it waits for an answer that its low task has yet to work out, or ends. -/
private theorem refines_ahead (h : Refines low high f abs) (here : between present present) (id : Nat) (job : J)
    (p : Program S R) (t : Nat) {es : List (Event S W)} {ds : List (Event T V)}
    (explained : Explains low.toMachine f abs between present es ds) {s' : State S W J R} (known : s'.tasks id = some ⟨job, p, t, es, false⟩)
    (world : s'.world = abs present) (clock : s'.clock = t) :
    ∃ task', Relation.ReflTransGen (Step high) s' (s'.put id task') ∧
      Stands low.toMachine high.toMachine f abs between present ⟨job, p.expand f, t, ds, false⟩ task' := by
  have stays {s' : State S W J R} {task' : Task S W J R} (known : s'.tasks id = some task') : s'.put id task' = s' := by
    unfold State.put
    rw [← known,Function.update_eq_self]
  induction p generalizing s' es with
  | ret a => exact ⟨_,by rw [stays known],.ended explained⟩
  | call op k ih =>
    have carries := h.carries op t
    rw [Program.expand_call]
    cases done : f op with
    | call o q =>
      rw [done] at carries
      have path : Path low.toMachine between (f op) present t [] (.call o q) present t := by
        rw [done]
        exact .start
      exact ⟨_,by rw [stays known],.waiting path here carries explained⟩
    | ret a =>
      rw [done] at carries
      obtain ⟨inTime,answers⟩ := carries
      cases clock
      have step : Step high s' _ := .answer s' id _ op k a (abs present) known rfl rfl inTime
        (by rw [world]; exact answers present) (h.permits _ _ _)
      rw [world] at step
      have run : Run low.toMachine between (f op) present s'.clock [].reverse a present s'.clock := by
        rw [done]
        exact .ret a present s'.clock
      have explained' := @Explains.cons _ _ _ _ _ _ _ _ _ _ _ [] ⟨op, a, s'.clock, s'.clock, abs present, abs present⟩ _ _ explained run (.inl rfl) here
      obtain ⟨task',steps,stands⟩ := ih a explained' (State.put_same { s' with world := abs present } id _) rfl rfl
      rw [State.put_put] at steps
      refine ⟨task',?_,stands⟩
      have unmoved : State.put { s' with world := abs present } id task' = s'.put id task' := by
        unfold State.put
        rw [← world]
      rw [← unmoved]
      exact .head step steps

private theorem refines_start (h : Refines low high f abs)
    (hs : Simulates low.toMachine high.toMachine f abs between s s') (here : between s.world s.world)
    (id : Nat) (job : J) (fresh : s.tasks id = none) (admitted : low.admits s.clock s.world job)
    (compatible : ∀ other task, s.tasks other = some task → task.Running → low.together task.job job) :
    ∃ t', Relation.ReflTransGen (Step high) s' t' ∧
      Simulates low.toMachine high.toMachine f abs between (s.put id ⟨job, low.code job, s.clock, [], false⟩) t' := by
  have step : Step high s' _ := .start s' id job (hs.fresh.mp fresh)
    (by rw [hs.clock,hs.world]; exact h.admits _ _ _ admitted)
    (by
      intro other task' ht running
      obtain ⟨task,hlow,stands⟩ := hs.task_low ht
      rw [← stands.parts.1]
      exact h.together _ _ (compatible other task hlow (stands.running.mp running)))
  obtain ⟨task',steps,stands⟩ := refines_ahead h here id job (high.code job) s'.clock .nil (State.put_same _ id _) hs.world rfl
  rw [State.put_put] at steps
  refine ⟨_,.head step steps,?_⟩
  rw [hs.clock] at stands
  rw [h.code]
  exact hs.put id stands (Nat.le_refl _)

/-- An answer to a low request is either the answer to the high one, or on the way to it. -/
private theorem refines_answer (h : Refines low high f abs)
    (hs : Simulates low.toMachine high.toMachine f abs between s s')
    (trans : ∀ a b c, between a b → between b c → between a c) (id : Nat) (task : Task T V J R) (op : T.Op)
    (next : T.Reply op → Program T R) (reply : T.Reply op) (v : V) (here : between v v) (moves : between s.world v)
    (known : s.tasks id = some task) (alive : task.dropped = false) (waits : task.program = .call op next)
    (inTime : low.InTime task.since op s.clock) (answers : low.Answers s.clock s.world op reply v) :
    ∃ t', Relation.ReflTransGen (Step high) s' t' ∧
      Simulates low.toMachine high.toMachine f abs between (State.put { s with world := v } id { task with
        program := next reply
        since := s.clock
        trace := ⟨op, reply, task.since, s.clock, s.world, v⟩ :: task.trace }) t' := by
  obtain ⟨task',known',stands⟩ := hs.task_high known
  have since := hs.since id task known
  have later (u : V) (hu : between u s.world) : between u v := trans _ _ _ hu moves
  have moved := hs.moved later
  cases stands with
  | ended => cases waits
  | @waiting job hop k o q start now w₀ v₀ part ds es dropped path other carries explained =>
    cases waits
    cases alive
    obtain ⟨due,carried⟩ := carries
    have path' := path.step other since inTime answers
    -- the high task has this answer, and goes on from there
    have complete {part : List (Event T V)} {a : S.Reply hop}
        (run : Run low.toMachine between (f hop) w₀ start part.reverse a v s.clock) (due : high.InTime start hop s.clock)
        (answers : high.Answers s.clock (abs s.world) hop a (abs v))
        (last : ∃ d ∈ part, d.pre = s.world ∧ d.post = v ∧ d.stop = s.clock) :
        ∃ t', Relation.ReflTransGen (Step high) s' t' ∧ Simulates low.toMachine high.toMachine f abs between
          (State.put { s with world := v } id ⟨job, (k a).expand f, s.clock, part ++ ds, false⟩) t' := by
      have step : Step high s' _ := .answer s' id _ hop k a (abs v) known' rfl rfl
        (by rw [hs.clock]; exact due) (by rw [hs.clock,hs.world]; exact answers) (h.permits _ _ _)
      rw [← hs.clock] at run
      have explained' : Explains low.toMachine f abs between v (⟨hop, a, start, s'.clock, s'.world, abs v⟩ :: es)
          (part ++ ds) := by
        obtain ⟨d,listed,pre,post,stop⟩ := last
        exact .cons (explained.later later) run (.inr ⟨d,listed,by rw [pre,hs.world],by rw [post],by rw [stop,hs.clock]⟩) here
      obtain ⟨task',steps,stands⟩ := refines_ahead h here id job (k a) s'.clock explained'
        (State.put_same { s' with world := abs v } id _) rfl rfl
      rw [hs.clock] at stands
      rw [State.put_put] at steps
      exact ⟨_,.head step steps,moved.put id stands (Nat.le_refl _)⟩
    rcases carried s.world s.clock reply v since inTime answers with ⟨a,last,high_answers⟩ | ⟨same,carries⟩
    · dsimp only
      rw [last]
      rw [last] at path'
      have run := path'.run (.ret a v s.clock)
      rw [List.append_nil] at run
      exact complete run (due _ inTime) high_answers ⟨_,List.mem_cons_self,rfl,rfl,rfl⟩
    · dsimp only
      cases next : q reply with
      | ret a =>
        rw [next] at carries path'
        have run := path'.run (.ret a v s.clock)
        rw [List.append_nil] at run
        refine complete run carries.1 ?_ ⟨_,List.mem_cons_self,rfl,rfl,rfl⟩
        rw [same]
        exact carries.2 s.world
      | call o' q' =>
        rw [next] at carries path'
        have waiting : Stands low.toMachine high.toMachine f abs between v
            ⟨job, .call o' (fun x => q' x >>= fun r => (k r).expand f), s.clock, _, false⟩ ⟨job, .call hop k, start, es, false⟩ :=
          .waiting path' here carries (explained.later later)
        have put := moved.put id waiting (Nat.le_refl _)
        have unchanged : State.put { s' with world := abs v } id ⟨job, .call hop k, start, es, false⟩ = s' := by
          unfold State.put
          rw [← known',same,← hs.world,Function.update_eq_self]
        rw [unchanged] at put
        exact ⟨s',.refl,put⟩

theorem Refines.step (h : Refines low high f abs) (hs : Simulates low.toMachine high.toMachine f abs between s s')
    (trans : ∀ a b c, between a b → between b c → between a c) {t : State T V J R} (step : Step low s t)
    (here : between s.world s.world) (here' : between t.world t.world) (moves : between s.world t.world) :
    ∃ t', Relation.ReflTransGen (Step high) s' t' ∧ Simulates low.toMachine high.toMachine f abs between t t' := by
  cases step with
  | start id job fresh admitted compatible =>
    exact refines_start h hs here id job fresh admitted compatible
  | answer id task op next reply v known alive waits inTime answers _ =>
    exact refines_answer h hs trans id task op next reply v here' moves known alive waits inTime answers
  | pass u later inTime =>
    refine ⟨{ s' with clock := u },.single (.pass s' u (by rw [hs.clock]; exact later) ?_),hs.world,rfl,hs.tasks,?_⟩
    · intro id task' op ht waits
      obtain ⟨task,hlow,stands⟩ := hs.task_low ht
      cases stands with
      | ended => cases waits.2
      | @waiting _ _ _ o _ _ _ _ _ _ _ _ _ _ _ carries _ =>
        cases waits.2
        exact carries.1 u (inTime id _ o hlow ⟨waits.1,rfl⟩)
    · intro id task ht
      exact Nat.le_trans (hs.since id task ht) later
  | drop id task op known waits _ =>
    obtain ⟨task',known',stands⟩ := hs.task_high known
    obtain ⟨high_op,high_waits⟩ := stands.running.mpr ⟨op,waits⟩
    refine ⟨_,.single (.drop s' id task' high_op known' high_waits (h.droppable _ _)),hs.put id ?_ (hs.since id task known)⟩
    cases stands with
    | ended explained => exact .ended explained
    | waiting path other carries explained => exact .waiting path other carries explained

/-- Every run of the low system is one of the high system, whose answers are what the programs for
them have returned in worlds that became each other. -/
theorem Refines.reachable (h : Refines low high f abs) (between : V → V → Prop) {v₀ : V} (hr : Reachable low v₀ s)
    (trans : ∀ a b c, between a b → between b c → between a c)
    (here : ∀ u, Reachable low v₀ u → between u.world u.world)
    (moves : ∀ u u', Reachable low v₀ u → Step low u u' → between u.world u'.world) :
    ∃ s', Reachable high (abs v₀) s' ∧ Simulates low.toMachine high.toMachine f abs between s s' := by
  induction hr with
  | initial t => exact ⟨_,.initial t,rfl,rfl,fun _ => .none,fun _ _ ht => by cases ht⟩
  | step hr step ih =>
    obtain ⟨u,reached,simulates⟩ := ih
    obtain ⟨t',steps,simulates'⟩ :=
      h.step simulates trans step (here _ hr) (here _ (hr.step step)) (moves _ _ hr step)
    exact ⟨t',reached.steps steps,simulates'⟩

/-- The worlds between which the answers of a verified system are worked out evolve, and keep its invariant. -/
theorem Refines.verified {C : J → Contract T V} {evolves : V → V → Prop} {Q : J → List (Event T V) → R → V → Nat → Prop}
    (inv : V → Prop) (h : Refines low high f abs) (hv : Verified low C evolves Q)
    (same : ∀ v, inv v ↔ ∀ i, (C i).inv v) {v₀ : V} (hw : inv v₀) (hr : Reachable low v₀ s) :
    ∃ s', Reachable high (abs v₀) s' ∧
      Simulates low.toMachine high.toMachine f abs (fun a b => evolves a b ∧ inv b) s s' := by
  have sound {u : State T V J R} (hu : Reachable low v₀ u) := hv.sound ((same _).mp hw) hu
  have kept {u : State T V J R} (hu : Reachable low v₀ u) : inv u.world := (same _).mpr (sound hu).inv
  refine h.reachable _ hr (fun a b c hab hbc => ⟨hv.trans hab.1 hbc.1,hbc.2⟩) (fun u hu => ⟨hv.refl _,kept hu⟩) ?_
  intro u u' hu step
  refine ⟨?_,kept (hu.step step)⟩
  rcases step.world with still | ⟨id,job,e,⟨task,ht,_,he⟩,pre,post⟩
  · rw [still]
    exact hv.refl _
  · obtain ⟨newer,older,_,_,permits,answers,_,guarantee⟩ :=
      ((sound (hu.step step)).tasks id task ht).kept.mem he
    rw [← pre,← post]
    exact (hv.step task.job older e (by rw [pre]; exact (sound hu).inv) answers permits guarantee).2.1

end Steps
end PreconfGateway.Interleaving
