import PreconfGateway.Interleaving.History
import PreconfGateway.Interleaving.Sequential

/-! What a world can have on record at the time it shows: whatever has happened has happened before. -/
namespace PreconfGateway.Interleaving
variable {S : Signature} {W J R α : Type} {sys : System S W J R} {w₀ : W} {s s' : State S W J R}

theorem Step.clock_le (h : Step sys s s') : s.clock ≤ s'.clock := by
  cases h with
  | start => exact Nat.le_refl _
  | answer => exact Nat.le_refl _
  | pass t later _ => exact later
  | drop => exact Nat.le_refl _

/-- A fact about the world and the time that answers keep and the passing of time too holds in
every state, and held whenever an event took place. -/
theorem Reachable.clocked (Past : W → Nat → Prop) (hr : Reachable sys w₀ s) (start : ∀ t, Past w₀ t)
    (later : ∀ w t u, Past w t → t ≤ u → Past w u)
    (answer : ∀ t w op r w', Past w t → sys.Answers t w op r w' → Past w' t) :
    Past s.world s.clock ∧ ∀ id job e, s.Saw id job e → Past e.pre e.stop := by
  induction hr with
  | initial t =>
    refine ⟨start t,?_⟩
    rintro id job e ⟨_,ht,_⟩
    cases ht
  | @step s s' _ h ih =>
    obtain ⟨present,events⟩ := ih
    have now := later _ _ _ present h.clock_le
    constructor
    · cases h with
      | start => exact now
      | answer id task op next reply w _ _ _ _ answers _ => exact answer _ _ _ _ _ present answers
      | pass => exact now
      | drop => exact now
    · intro id job e hs
      rcases h.saw_inv hs with hs | ⟨pre,_,stop⟩
      · exact events id job e hs
      · rw [pre,stop]
        exact now

/-- The state right before an event. -/
theorem Reachable.at_event (hr : Reachable sys w₀ s) {id : Nat} {job : J} {e : Event S W} (hs : s.Saw id job e) :
    ∃ u, Reachable sys w₀ u ∧ u.world = e.pre ∧ u.clock ≤ e.stop ∧ ∀ i j d, u.Saw i j d → s.Saw i j d := by
  induction hr with
  | initial t =>
    obtain ⟨_,ht,_⟩ := hs
    cases ht
  | @step s s' hr h ih =>
    rcases h.saw_inv hs with hs | ⟨pre,_,stop⟩
    · obtain ⟨u,hu,world,clock,kept⟩ := ih hs
      exact ⟨u,hu,world,clock,fun i j d hd => h.saw (kept i j d hd)⟩
    · refine ⟨s,hr,pre.symm,?_,fun i j d hd => h.saw hd⟩
      rw [stop]
      exact h.clock_le

/-- The state right after an event. -/
theorem Reachable.after_event (hr : Reachable sys w₀ s) {id : Nat} {job : J} {e : Event S W} (hs : s.Saw id job e) :
    ∃ u, Reachable sys w₀ u ∧ u.world = e.post ∧ u.clock = e.stop ∧ u.Saw id job e ∧ ∀ i j d, u.Saw i j d → s.Saw i j d := by
  induction hr with
  | initial t =>
    obtain ⟨_,ht,_⟩ := hs
    cases ht
  | @step s s' hr h ih =>
    rcases h.saw_inv hs with old | ⟨_,post,stop⟩
    · obtain ⟨u,hu,world,clock,saw,kept⟩ := ih old
      exact ⟨u,hu,world,clock,saw,fun i j d hd => h.saw (kept i j d hd)⟩
    · exact ⟨s',hr.step h,post.symm,stop.symm,hs,fun _ _ _ hd => hd⟩

/-- One event of a task comes after the other, and all of them before what it waits for. -/
structure Task.Ordered (task : Task S W J R) : Prop where
  events : task.trace.Pairwise (fun e d => d.stop ≤ e.start)
  past : ∀ e ∈ task.trace, e.stop ≤ task.since

theorem Reachable.task_ordered (hr : Reachable sys w₀ s) {id : Nat} {task : Task S W J R} (ht : s.tasks id = some task) :
    task.Ordered := by
  induction hr generalizing id task with
  | initial t => cases ht
  | @step s s' hr h ih =>
    have put {i : Nat} {next : Task S W J R} {u : State S W J R} (ht : (u.put i next).tasks id = some task)
        (same : u.tasks = s.tasks) (new : next.Ordered) : task.Ordered := by
      by_cases mine : id = i
      · subst mine
        rw [State.put_same] at ht
        cases ht
        exact new
      · rw [State.put_other _ _ mine,same] at ht
        exact ih ht
    cases h with
    | start i job => exact put ht rfl ⟨.nil,nofun⟩
    | answer i old op next reply w known alive waits =>
      refine put ht rfl ⟨.cons (ih known).past (ih known).events,?_⟩
      refine List.forall_mem_cons.mpr ⟨Nat.le_refl _,fun e he => ?_⟩
      exact hr.stop_le ⟨old,known,rfl,he⟩
    | pass t later => exact ih ht
    | drop i old op known => exact put ht rfl ⟨(ih known).events,(ih known).past⟩

/-- A task has seen all this by that time. -/
def State.Seen (s : State S W J R) (id : Nat) (job : J) (older : List (Event S W)) (t : Nat) : Prop :=
  ∀ d ∈ older, s.Saw id job d ∧ d.stop ≤ t

/-- What the contract of its job guarantees of an event of a task, with all that the task had seen before. -/
theorem Verified.kept {C : J → Contract S W} {evolves : W → W → Prop} {Q : J → List (Event S W) → R → W → Nat → Prop}
    (hv : Verified sys C evolves Q) (hw : ∀ i, (C i).inv w₀) (hr : Reachable sys w₀ s) {id : Nat} {job : J}
    {e : Event S W} (saw : s.Saw id job e) :
    ∃ older, (C job).inv e.pre ∧ (C job).guarantee older e ∧ e.start ≤ e.stop ∧ s.Seen id job older e.start := by
  obtain ⟨task,ht,rfl,he⟩ := saw
  obtain ⟨newer,older,trace,inv,_,_,spans,guaranteed⟩ := ((hv.sound hw hr).tasks id task ht).kept.mem he
  refine ⟨older,inv,guaranteed,spans,fun d hd => ⟨⟨task,ht,rfl,?_⟩,?_⟩⟩
  · rw [trace]
    exact List.mem_append_right _ (List.mem_cons_of_mem _ hd)
  · have ordered := (hr.task_ordered ht).events
    rw [trace] at ordered
    exact List.rel_of_pairwise_cons (List.pairwise_append.mp ordered).2.1 hd

/-- The contract that asks for a repertoire and for nothing else. -/
def Contract.free (ok : S.Op → Prop) : Contract S W where
  inv _ := True
  rely _ _ := True
  permits _ _ := True
  starts _ _ _ _ := True
  guarantee _ e := ok e.op
  rely_refl _ := trivial
  rely_trans _ _ := trivial
  starts_rely _ _ := trivial

/-- Jobs that keep to their repertoires keep such contracts. -/
theorem Verified.free {ok : J → S.Op → Prop} {post : J → R → Prop} (code : ∀ j, (sys.code j).Obeys (ok j) (post j)) :
    Verified sys (fun j => Contract.free (ok j)) (fun _ _ => True) (fun _ _ _ _ _ => True) := by
  refine ⟨fun _ => trivial,fun _ _ => trivial,fun _ _ _ _ => trivial,fun j t w _ _ => ?_,?_⟩
  · exact (Contract.Safe.of_obeys (code j) (fun _ _ _ _ _ => trivial) (fun _ _ h => h)).mono fun _ _ _ _ _ => trivial
  · exact fun _ _ _ _ _ _ _ => ⟨fun _ => trivial,trivial,fun _ _ => trivial⟩

/-- Jobs that keep to their repertoires do so in every run, and the machine answers them. -/
theorem Reachable.obeys {ok : J → S.Op → Prop} {post : J → R → Prop} (hr : Reachable sys w₀ s)
    (code : ∀ j, (sys.code j).Obeys (ok j) (post j)) {id : Nat} {job : J} {e : Event S W} (saw : s.Saw id job e) :
    ok job e.op ∧ sys.Answers e.stop e.pre e.op e.reply e.post := by
  obtain ⟨task,ht,rfl,he⟩ := saw
  obtain ⟨_,_,_,_,_,answers,_,within_⟩ :=
    (((Verified.free code).sound (fun _ => trivial) hr).tasks id task ht).kept.mem he
  exact ⟨within_,answers⟩

/-- An answer comes no earlier than the request was made, and has come by now. -/
theorem Reachable.spans (hr : Reachable sys w₀ s) {id : Nat} {job : J} {e : Event S W} (saw : s.Saw id job e) :
    e.start ≤ e.stop ∧ e.stop ≤ s.clock := by
  obtain ⟨_,_,_,spans,_⟩ := (Verified.free fun j => Program.obeys_true (sys.code j)).kept (fun _ => trivial) hr saw
  exact ⟨spans,hr.stop_le saw⟩

/-- A result comes no earlier than the program was started. -/
theorem Contract.Safe.later {C : Contract S W} {M : Machine S W} {Q : List (Event S W) → α → W → Nat → Prop}
    {p : Program S α} {tr : List (Event S W)} {w : W} {t : Nat} (h : C.Safe M Q p tr w t) :
    C.Safe M (fun tr a w u => Q tr a w u ∧ t ≤ u) p tr w t := by
  induction p generalizing tr w t with
  | ret a => exact ⟨h,Nat.le_refl t⟩
  | call op k ih =>
    refine ⟨h.1,?_⟩
    intro w₁ u r w₂ hi hr hu ht ha hp
    obtain ⟨hg,hk⟩ := h.2 w₁ u r w₂ hi hr hu ht ha hp
    refine ⟨hg,(ih r hk).mono ?_⟩
    rintro tr a w x ⟨hq,le⟩
    exact ⟨hq,Nat.le_trans hu le⟩

end PreconfGateway.Interleaving
