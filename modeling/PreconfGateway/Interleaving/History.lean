import PreconfGateway.Interleaving.Discipline

/-! Where the facts of a reached world come from: each was made true by one event of
one task, and the events of all tasks follow each other. -/
namespace PreconfGateway.Interleaving
variable {S : Signature} {W J R : Type} {sys : System S W J R} {w₀ : W} {s : State S W J R}

/-- The events that tasks have seen so far. -/
def State.Saw (s : State S W J R) (id : Nat) (job : J) (e : Event S W) : Prop :=
  ∃ task, s.tasks id = some task ∧ task.job = job ∧ e ∈ task.trace

private theorem saw_put {id : Nat} {task : Task S W J R} (hk : ∀ old, s.tasks id = some old →
      old.job = task.job ∧ ∀ e ∈ old.trace, e ∈ task.trace)
    {i : Nat} {job : J} {e : Event S W} (h : s.Saw i job e) : (s.put id task).Saw i job e := by
  obtain ⟨old,ho,rfl,he⟩ := h
  by_cases hi : i = id
  · subst hi
    obtain ⟨hj,ht⟩ := hk old ho
    exact ⟨task,State.put_same _ _ _,hj.symm,ht e he⟩
  · exact ⟨old,by rw [State.put_other _ _ hi]; exact ho,rfl,he⟩

/-- Tasks never forget: what was seen stays seen. -/
theorem Step.saw {s' : State S W J R} (h : Step sys s s') {i : Nat} {job : J} {e : Event S W}
    (hs : s.Saw i job e) : s'.Saw i job e := by
  cases h with
  | start id j fresh _ _ =>
    refine saw_put ?_ hs
    intro old ho
    rw [fresh] at ho
    cases ho
  | answer id task op next reply w known _ _ _ _ _ =>
    refine saw_put (s := { s with world := w }) ?_ hs
    intro old ho
    cases known.symm.trans ho
    exact ⟨rfl,fun e he => List.mem_cons_of_mem _ he⟩
  | pass t _ _ => exact hs
  | drop id task op known _ _ =>
    refine saw_put ?_ hs
    intro old ho
    cases known.symm.trans ho
    exact ⟨rfl,fun e he => he⟩

private theorem put_saw {id : Nat} {task : Task S W J R} {i : Nat} {job : J} {e : Event S W}
    (h : (s.put id task).Saw i job e) : (i = id ∧ task.job = job ∧ e ∈ task.trace) ∨ s.Saw i job e := by
  obtain ⟨t,ht,hj,he⟩ := h
  by_cases hi : i = id
  · subst hi
    rw [State.put_same] at ht
    cases ht
    exact .inl ⟨rfl,hj,he⟩
  · rw [State.put_other _ _ hi] at ht
    exact .inr ⟨t,ht,hj,he⟩

/-- A step sees at most one new event, and that event is the step. -/
theorem Step.saw_inv {s' : State S W J R} (h : Step sys s s') {i : Nat} {job : J} {e : Event S W}
    (hs : s'.Saw i job e) :
    s.Saw i job e ∨ (e.pre = s.world ∧ e.post = s'.world ∧ e.stop = s'.clock) := by
  cases h with
  | start id j fresh _ _ =>
    rcases put_saw hs with ⟨_,_,he⟩ | hs
    · cases he
    · exact .inl hs
  | answer id task op next reply w known _ _ _ _ _ =>
    rcases put_saw hs with ⟨rfl,rfl,he⟩ | hs
    · rcases List.mem_cons.mp he with rfl | he
      · exact .inr ⟨rfl,rfl,rfl⟩
      · exact .inl ⟨task,known,rfl,he⟩
    · exact .inl hs
  | pass t _ _ => exact .inl hs
  | drop id task op known _ _ =>
    rcases put_saw hs with ⟨rfl,rfl,he⟩ | hs
    · exact .inl ⟨task,known,rfl,he⟩
    · exact .inl hs

/-- The world changes only by an event that its task remembers. -/
theorem Step.world {s' : State S W J R} (h : Step sys s s') :
    s'.world = s.world ∨ ∃ id job e, s'.Saw id job e ∧ e.pre = s.world ∧ e.post = s'.world := by
  cases h with
  | start => exact .inl rfl
  | answer id task op next reply w known _ _ _ _ _ =>
    exact .inr ⟨id,task.job,_,⟨_,State.put_same _ _ _,rfl,List.mem_cons_self⟩,rfl,rfl⟩
  | pass => exact .inl rfl
  | drop => exact .inl rfl

/-- What was seen is over. -/
theorem Reachable.stop_le (hr : Reachable sys w₀ s) {id : Nat} {job : J} {e : Event S W}
    (hs : s.Saw id job e) : e.stop ≤ s.clock := by
  induction hr with
  | initial t =>
    obtain ⟨_,ht,_⟩ := hs
    cases ht
  | @step s s' _ h ih =>
    have forward : s.clock ≤ s'.clock := by
      cases h with
      | pass t later _ => exact later
      | _ => exact Nat.le_refl _
    rcases h.saw_inv hs with hs | ⟨_,_,now⟩
    · exact Nat.le_trans (ih hs) forward
    · exact Nat.le_of_eq now

/-- A task keeps its job. -/
theorem Step.job {s' : State S W J R} (h : Step sys s s') {id : Nat} {task : Task S W J R}
    (ht : s.tasks id = some task) : ∃ task', s'.tasks id = some task' ∧ task'.job = task.job := by
  have put {i : Nat} {old next : Task S W J R} (known : s.tasks i = some old) (same : next.job = old.job)
      (u : State S W J R) (tasks : u.tasks = s.tasks) :
      ∃ task', (u.put i next).tasks id = some task' ∧ task'.job = task.job := by
    by_cases hi : id = i
    · subst hi
      cases known.symm.trans ht
      exact ⟨next,State.put_same _ _ _,same⟩
    · exact ⟨task,by rw [State.put_other _ _ hi,tasks]; exact ht,rfl⟩
  cases h with
  | start i job fresh _ _ =>
    refine ⟨task,?_,rfl⟩
    rw [State.put_other]
    · exact ht
    · rintro rfl
      cases fresh.symm.trans ht
  | answer i old op next reply w known _ _ _ _ _ =>
    refine put known ?_ { s with world := w } rfl
    rfl
  | pass => exact ⟨task,ht,rfl⟩
  | drop i old op known _ _ =>
    refine put known ?_ s rfl
    rfl

/-- A run that has started only certain jobs is one of any system that lets those jobs do what was seen. -/
theorem Reachable.within {narrow : System S W J R} {ok : J → Prop} (hr : Reachable sys w₀ s)
    (machine : narrow.toMachine = sys.toMachine) (code : narrow.code = sys.code)
    (all : ∀ id task, s.tasks id = some task → ok task.job)
    (admits : ∀ t w j, ok j → sys.admits t w j → narrow.admits t w j)
    (together : ∀ i j, ok i → ok j → sys.together i j → narrow.together i j)
    (permits : ∀ id job e, s.Saw id job e → ∀ tr, sys.permits job tr e → narrow.permits job tr e)
    (droppable : ∀ j op, ok j → sys.droppable j op → narrow.droppable j op) : Reachable narrow w₀ s := by
  obtain ⟨_,_,_,_,_,_⟩ := sys
  obtain ⟨_,_,_,_,_,_⟩ := narrow
  cases machine
  cases code
  induction hr with
  | initial t => exact .initial t
  | @step s s' _ h ih =>
    have before : ∀ id task, s.tasks id = some task → ok task.job := by
      intro id task ht
      obtain ⟨task',ht',same⟩ := h.job ht
      rw [← same]
      exact all id task' ht'
    refine (ih before fun id job e hs => permits id job e (h.saw hs)).step ?_
    cases h with
    | start id job fresh admitted compatible =>
      have mine : ok job := all id _ (State.put_same _ _ _)
      exact .start s id job fresh (admits _ _ _ mine admitted)
        fun other task ho running => together _ _ (before other task ho) mine (compatible other task ho running)
    | answer id task op next reply w known alive waits inTime answers permitted =>
      exact .answer s id task op next reply w known alive waits inTime answers
        (permits id task.job _ ⟨_,State.put_same _ _ _,rfl,List.mem_cons_self⟩ _ permitted)
    | pass t later inTime => exact .pass s t later inTime
    | drop id task op known waits dropped =>
      exact .drop s id task op known waits (droppable _ _ (before id task known) dropped)

/-- A run whose answers all meet a condition is a run of the system that asks for it. -/
theorem Reachable.permitted (hr : Reachable sys w₀ s) (permits : J → Event S W → Prop)
    (met : ∀ id job e, s.Saw id job e → permits job e) :
    Reachable { sys with permits := fun job _ e => permits job e } w₀ s :=
  @Reachable.within _ _ _ _ sys w₀ s { sys with permits := fun job _ e => permits job e } (fun _ => True) hr rfl rfl
    (fun _ _ _ => trivial) (fun _ _ _ _ h => h) (fun _ _ _ _ h => h) (fun id job e hs _ _ => met id job e hs)
    (fun _ _ _ h => h)

/-- A run that has dropped nothing is one of a system that drops whatever it likes. -/
theorem Reachable.undropped (hr : Reachable sys w₀ s) (droppable : J → S.Op → Prop)
    (kept : ∀ id task, s.tasks id = some task → task.dropped = false) :
    Reachable { sys with droppable := droppable } w₀ s := by
  induction hr with
  | initial t => exact .initial t
  | @step s s' _ h ih =>
    have before : ∀ id task, s.tasks id = some task → task.dropped = false := by
      intro id task ht
      cases h with
      | start i job fresh _ _ =>
        by_cases hi : id = i
        · subst hi
          cases fresh.symm.trans ht
        · exact kept id task (by rw [State.put_other _ _ hi]; exact ht)
      | answer i old op next reply w known alive _ _ _ _ =>
        by_cases hi : id = i
        · subst hi
          cases known.symm.trans ht
          exact alive
        · exact kept id task (by rw [State.put_other _ _ hi]; exact ht)
      | pass => exact kept id task ht
      | drop i old op known waits _ => cases kept i _ (State.put_same _ _ _)
    refine (ih before).step ?_
    cases h with
    | start id job fresh admitted compatible => exact .start s id job fresh admitted compatible
    | answer id task op next reply w known alive waits inTime answers permitted =>
      exact .answer s id task op next reply w known alive waits inTime answers permitted
    | pass t later inTime => exact .pass s t later inTime
    | drop id task op known waits _ => cases kept id _ (State.put_same _ _ _)

/-- The runs that start only such jobs. -/
def System.starting (sys : System S W J R) (ok : J → Prop) : System S W J R :=
  { sys with admits := fun t w job => sys.admits t w job ∧ ok job }

theorem System.starting_narrows (sys : System S W J R) (ok : J → Prop) : Narrows (sys.starting ok) sys :=
  ⟨rfl,rfl,fun _ _ _ h => h.1,fun _ _ h => h,fun _ _ _ h => h,fun _ _ h => h⟩

theorem Reachable.started {ok : J → Prop} (hr : Reachable (sys.starting ok) w₀ s) {id : Nat} {task : Task S W J R}
    (ht : s.tasks id = some task) : ok task.job := by
  induction hr generalizing id task with
  | initial t => cases ht
  | @step s s' _ h ih =>
    have put {i : Nat} {next : Task S W J R} {u : State S W J R} (ht : (u.put i next).tasks id = some task)
        (same : u.tasks = s.tasks) (new : ok next.job) : ok task.job := by
      by_cases hi : id = i
      · subst hi
        rw [State.put_same] at ht
        cases ht
        exact new
      · rw [State.put_other _ _ hi,same] at ht
        exact ih ht
    cases h with
    | start i job fresh admitted _ => exact put ht rfl admitted.2
    | answer i old op next reply w known _ _ _ _ _ => exact put ht rfl (ih known :)
    | pass => exact ih ht
    | drop i old op known _ _ => exact put ht rfl (ih known :)

/-- A run whose tasks all have such jobs has started no others. -/
theorem Reachable.starting {ok : J → Prop} (hr : Reachable sys w₀ s)
    (all : ∀ id task, s.tasks id = some task → ok task.job) : Reachable (sys.starting ok) w₀ s :=
  hr.within rfl rfl all (fun _ _ _ mine h => ⟨h,mine⟩) (fun _ _ _ _ h => h) (fun _ _ _ _ _ h => h) (fun _ _ _ h => h)

/-- A dropped task has the past that it had when it was dropped, waiting for something. -/
theorem Reachable.stopped (hr : Reachable sys w₀ s) {id : Nat} {task : Task S W J R} (ht : s.tasks id = some task)
    (dropped : task.dropped = true) : ∃ u old op, Reachable sys w₀ u ∧ u.tasks id = some old ∧ old.Waits op ∧
      old.job = task.job ∧ old.trace = task.trace ∧ sys.droppable old.job op := by
  induction hr generalizing task with
  | initial t => cases ht
  | @step s s' hr h ih =>
    cases h with
    | start i job fresh _ _ =>
      by_cases hi : id = i
      · subst hi
        rw [State.put_same] at ht
        cases ht
        cases dropped
      · rw [State.put_other _ _ hi] at ht
        exact ih ht dropped
    | answer i old op next reply w known alive _ _ _ _ =>
      by_cases hi : id = i
      · subst hi
        rw [State.put_same] at ht
        cases ht
        exact nomatch alive.symm.trans dropped
      · rw [State.put_other _ _ hi] at ht
        exact ih ht dropped
    | pass => exact ih ht dropped
    | drop i old op known waits droppable =>
      by_cases hi : id = i
      · subst hi
        rw [State.put_same] at ht
        cases ht
        exact ⟨s,old,op,hr,known,waits,rfl,rfl,droppable⟩
      · rw [State.put_other _ _ hi] at ht
        exact ih ht dropped

/-- An event was the newest of its task when its step was taken. -/
theorem Reachable.moment (hr : Reachable sys w₀ s) {id : Nat} {job : J} {e : Event S W} (hs : s.Saw id job e) :
    ∃ u v old new, Reachable sys w₀ u ∧ Step sys u v ∧ u.tasks id = some old ∧ v.tasks id = some new ∧
      old.job = job ∧ new.job = job ∧ new.trace = e :: old.trace ∧ u.world = e.pre ∧ v.world = e.post ∧
        ∀ i j d, u.Saw i j d → s.Saw i j d := by
  induction hr with
  | initial t =>
    obtain ⟨_,ht,_⟩ := hs
    cases ht
  | @step s s' hr h ih =>
    have step := h
    have earlier (hs : s.Saw id job e) : ∃ u v old new, Reachable sys w₀ u ∧ Step sys u v ∧
        u.tasks id = some old ∧ v.tasks id = some new ∧ old.job = job ∧ new.job = job ∧
          new.trace = e :: old.trace ∧ u.world = e.pre ∧ v.world = e.post ∧ ∀ i j d, u.Saw i j d → s'.Saw i j d := by
      obtain ⟨u,v,old,new,hu,hv,ho,hn,jo,jn,ht,pre,post,kept⟩ := ih hs
      exact ⟨u,v,old,new,hu,hv,ho,hn,jo,jn,ht,pre,post,fun i j d hd => step.saw (kept i j d hd)⟩
    cases h with
    | start i j fresh _ _ =>
      rcases put_saw hs with ⟨_,_,he⟩ | hs
      · cases he
      · exact earlier hs
    | answer i task op next reply w known _ _ _ _ _ =>
      rcases put_saw hs with ⟨rfl,rfl,he⟩ | hs
      · rcases List.mem_cons.mp he with rfl | he
        · exact ⟨s,_,task,_,hr,step,known,State.put_same _ _ _,rfl,rfl,rfl,rfl,rfl,fun i j d hd => step.saw hd⟩
        · exact earlier ⟨task,known,rfl,he⟩
      · exact earlier hs
    | pass t _ _ => exact earlier hs
    | drop i task op known _ _ =>
      rcases put_saw hs with ⟨rfl,rfl,he⟩ | hs
      · exact earlier ⟨task,known,rfl,he⟩
      · exact earlier hs

theorem Reachable.steps {s' : State S W J R} (hr : Reachable sys w₀ s)
    (h : Relation.ReflTransGen (Step sys) s s') : Reachable sys w₀ s' := by
  induction h with
  | refl => exact hr
  | tail _ hs ih => exact ih.step hs

section Later
variable {evolves : W → W → Prop} {s' : State S W J R}

/-- The worlds of a run evolve if those of each of its events do. -/
theorem Reachable.progress (hr : Reachable sys w₀ s) (h : Relation.ReflTransGen (Step sys) s s')
    (refl : ∀ w, evolves w w) (trans : ∀ {a b c}, evolves a b → evolves b c → evolves a c)
    (event : ∀ {u}, Reachable sys w₀ u → ∀ {id job e}, u.Saw id job e → evolves e.pre e.post) :
    evolves s.world s'.world := by
  induction h with
  | refl => exact refl _
  | @tail u v hu hs ih =>
    rcases hs.world with hw | ⟨id,job,e,he,hpre,hpost⟩
    · rw [hw]
      exact ih
    · have hev := event ((hr.steps hu).step hs) he
      rw [hpre,hpost] at hev
      exact trans ih hev

/-- What was seen was done in a world from which that of today evolved. -/
theorem Reachable.since (hr : Reachable sys w₀ s) (refl : ∀ w, evolves w w)
    (trans : ∀ {a b c}, evolves a b → evolves b c → evolves a c)
    (event : ∀ {u}, Reachable sys w₀ u → ∀ {id job e}, u.Saw id job e → evolves e.pre e.post)
    {id : Nat} {job : J} {e : Event S W} (hs : s.Saw id job e) : evolves e.post s.world := by
  induction hr with
  | initial t =>
    obtain ⟨_,ht,_⟩ := hs
    cases ht
  | @step s s' hr h ih =>
    rcases h.saw_inv hs with old | ⟨_,post,_⟩
    · exact trans (ih old) (hr.progress (.single h) refl trans event)
    · rw [post]
      exact refl _

/-- An event that is not in the past of a state happens in a later world. -/
theorem Reachable.later (hr : Reachable sys w₀ s) (h : Relation.ReflTransGen (Step sys) s s')
    (refl : ∀ w, evolves w w) (trans : ∀ {a b c}, evolves a b → evolves b c → evolves a c)
    (event : ∀ {u}, Reachable sys w₀ u → ∀ {id job e}, u.Saw id job e → evolves e.pre e.post)
    {id : Nat} {job : J} {e : Event S W} (hs : s'.Saw id job e) (new : ¬ s.Saw id job e) :
    evolves s.world e.pre := by
  induction h with
  | refl => exact absurd hs new
  | @tail u v hu hstep ih =>
    rcases hstep.saw_inv hs with hs | ⟨hpre,_,_⟩
    · exact ih hs
    · rw [hpre]
      exact hr.progress hu refl trans event

end Later

/-- A fact the initial world lacks was made true by an event of some task. -/
theorem Reachable.provenance (hr : Reachable sys w₀ s) (Fact : W → Prop) (h₀ : ¬ Fact w₀)
    (h : Fact s.world) : ∃ id job e, s.Saw id job e ∧ ¬ Fact e.pre ∧ Fact e.post := by
  induction hr with
  | initial t => exact absurd h h₀
  | @step s s' _ hs ih =>
    by_cases hb : Fact s.world
    · obtain ⟨id,job,e,he,hp⟩ := ih hb
      exact ⟨id,job,e,hs.saw he,hp⟩
    · rcases hs.world with hw | ⟨id,job,e,he,hpre,hpost⟩
      · rw [hw] at h
        exact absurd h hb
      · exact ⟨id,job,e,he,by rwa [hpre],by rwa [hpost]⟩

section Order
variable {C : J → Contract S W} {evolves : W → W → Prop} {Q : J → List (Event S W) → R → W → Nat → Prop}

/-- The events of all tasks follow each other. -/
theorem Verified.ordered (hv : Verified sys C evolves Q) (hw : ∀ i, (C i).inv w₀)
    (hr : Reachable sys w₀ s) {i j : Nat} {a b : J} {d e : Event S W} (hd : s.Saw i a d)
    (he : s.Saw j b e) : (i = j ∧ d = e) ∨ evolves d.post e.pre ∨ evolves e.post d.pre := by
  induction hr generalizing i j a b d e with
  | initial t =>
    obtain ⟨_,ht,_⟩ := hd
    cases ht
  | @step s s' hr hs ih =>
    have sound := hv.sound hw hr
    have past {i : Nat} {a : J} {d : Event S W} (h : s.Saw i a d) : evolves d.post s.world := by
      obtain ⟨task,ht,_,hm⟩ := h
      exact (sound.tasks i task ht).evolved d hm
    cases hs with
    | start id job fresh _ _ =>
      rcases put_saw hd with ⟨_,_,hm⟩ | hd
      · cases hm
      · rcases put_saw he with ⟨_,_,hm⟩ | he
        · cases hm
        · exact ih hd he
    | answer id task op next reply w known _ _ _ _ _ =>
      have old {i : Nat} {a : J} {d : Event S W} (h : i = id ∧ task.job = a ∧ d ∈ task.trace) :
          s.Saw i a d := ⟨task,by rw [h.1]; exact known,h.2.1,h.2.2⟩
      have new {i : Nat} {a : J} {d : Event S W}
          (h : (State.put { s with world := w } id { task with
            program := next reply
            since := s.clock
            trace := ⟨op, reply, task.since, s.clock, s.world, w⟩ :: task.trace }).Saw i a d) :
          (i = id ∧ d = ⟨op, reply, task.since, s.clock, s.world, w⟩) ∨ s.Saw i a d := by
        rcases put_saw h with ⟨hi,hj,hm⟩ | h
        · rcases List.mem_cons.mp hm with rfl | hm
          · exact .inl ⟨hi,rfl⟩
          · exact .inr (old ⟨hi,hj,hm⟩)
        · exact .inr h
      rcases new hd with ⟨rfl,rfl⟩ | hd'
      · rcases new he with ⟨rfl,rfl⟩ | he'
        · exact .inl ⟨rfl,rfl⟩
        · exact .inr (.inr (past he'))
      · rcases new he with ⟨rfl,rfl⟩ | he'
        · exact .inr (.inl (past hd'))
        · exact ih hd' he'
    | pass t _ _ => exact ih hd he
    | drop id task op known _ _ =>
      have old {i : Nat} {a : J} {d : Event S W} (h : i = id ∧ task.job = a ∧ d ∈ task.trace) :
          s.Saw i a d := ⟨task,by rw [h.1]; exact known,h.2.1,h.2.2⟩
      exact ih ((put_saw hd).elim old (fun h => h)) ((put_saw he).elim old (fun h => h))

/-- A fact that stays true is made true once. -/
theorem Verified.claimed_once (hv : Verified sys C evolves Q) (hw : ∀ i, (C i).inv w₀)
    (hr : Reachable sys w₀ s) (Fact : W → Prop) (stays : ∀ w w', evolves w w' → Fact w → Fact w')
    {i j : Nat} {a b : J} {d e : Event S W} (hd : s.Saw i a d) (he : s.Saw j b e)
    (nd : ¬ Fact d.pre) (fd : Fact d.post) (ne : ¬ Fact e.pre) (fe : Fact e.post) : i = j ∧ d = e := by
  rcases hv.ordered hw hr hd he with h | h | h
  · exact h
  · exact absurd (stays _ _ h fd) ne
  · exact absurd (stays _ _ h fe) nd

end Order
end PreconfGateway.Interleaving
