import PreconfGateway.Interleaving.System

/-! Rely and guarantee for interleaved tasks. A contract says what the other tasks
may do to the world between two requests, and what each own request owes them. -/
namespace PreconfGateway.Interleaving
variable {S : Signature} {W J R α β : Type}

structure Contract (S : Signature) (W : Type) where
  inv : W → Prop
  rely : W → W → Prop
  permits : List (Event S W) → Event S W → Prop
  starts : List (Event S W) → S.Op → W → Nat → Prop
  guarantee : List (Event S W) → Event S W → Prop
  rely_refl : ∀ w, rely w w
  rely_trans : ∀ {a b c}, rely a b → rely b c → rely a c
  starts_rely : ∀ {tr op a b t}, starts tr op a t → rely a b → starts tr op b t

namespace Contract
variable (C : Contract S W) (M : Machine S W)

/-- Run from this world at this time with this past, a program keeps the contract
and reaches its results only where Q holds of past, result, world and time. -/
def Safe (Q : List (Event S W) → α → W → Nat → Prop) :
    Program S α → List (Event S W) → W → Nat → Prop
  | .ret a, tr, w, t => Q tr a w t
  | .call op k, tr, w, t => C.starts tr op w t ∧
      ∀ w₁ u r w₂, C.inv w₁ → C.rely w w₁ → t ≤ u → M.InTime t op u → M.Answers u w₁ op r w₂ →
        C.permits tr ⟨op, r, t, u, w₁, w₂⟩ →
          C.guarantee tr ⟨op, r, t, u, w₁, w₂⟩ ∧ Safe Q (k r) (⟨op, r, t, u, w₁, w₂⟩ :: tr) w₂ u

/-- Every event of a past was answered by the machine and met its guarantee. -/
def Kept : List (Event S W) → Prop
  | [] => True
  | e :: tr => (C.inv e.pre ∧ C.permits tr e ∧ M.Answers e.stop e.pre e.op e.reply e.post ∧
      e.start ≤ e.stop ∧ C.guarantee tr e) ∧ Kept tr

variable {C M}
variable {Q Q' : List (Event S W) → α → W → Nat → Prop}

theorem Safe.ret {a : α} {tr : List (Event S W)} {w : W} {t : Nat} (h : Q tr a w t) :
    C.Safe M Q (.ret a) tr w t := h

theorem Safe.call {op : S.Op} {k : S.Reply op → Program S α} {tr : List (Event S W)} {w : W} {t : Nat}
    (hs : C.starts tr op w t)
    (h : ∀ w₁ u r w₂, C.inv w₁ → C.rely w w₁ → t ≤ u → M.InTime t op u → M.Answers u w₁ op r w₂ →
      C.permits tr ⟨op, r, t, u, w₁, w₂⟩ →
        C.guarantee tr ⟨op, r, t, u, w₁, w₂⟩ ∧ C.Safe M Q (k r) (⟨op, r, t, u, w₁, w₂⟩ :: tr) w₂ u) :
    C.Safe M Q (.call op k) tr w t := ⟨hs,h⟩

theorem Safe.mono {p : Program S α} {tr : List (Event S W)} {w : W} {t : Nat}
    (h : C.Safe M Q p tr w t) (hq : ∀ tr a w t, Q tr a w t → Q' tr a w t) : C.Safe M Q' p tr w t := by
  induction p generalizing tr w t with
  | ret a => exact hq _ _ _ _ h
  | call op k ih =>
    refine ⟨h.1,?_⟩
    intro w₁ u r w₂ hi hr hu ht ha hp
    obtain ⟨hg,hk⟩ := h.2 w₁ u r w₂ hi hr hu ht ha hp
    exact ⟨hg,ih r hk⟩

/-- Sequencing: what holds at a result of the first program is where the second starts. -/
theorem Safe.bind {Q₂ : List (Event S W) → β → W → Nat → Prop} {p : Program S α}
    {f : α → Program S β} {tr : List (Event S W)} {w : W} {t : Nat}
    (h : C.Safe M Q p tr w t) (hf : ∀ tr a w t, Q tr a w t → C.Safe M Q₂ (f a) tr w t) :
    C.Safe M Q₂ (p >>= f) tr w t := by
  induction p generalizing tr w t with
  | ret a => exact hf _ _ _ _ h
  | call op k ih =>
    refine ⟨h.1,?_⟩
    intro w₁ u r w₂ hi hr hu ht ha hp
    obtain ⟨hg,hk⟩ := h.2 w₁ u r w₂ hi hr hu ht ha hp
    exact ⟨hg,ih r hk⟩

/-- A waiting program stays safe while the others act within its rely. -/
theorem Safe.rely {op : S.Op} {k : S.Reply op → Program S α} {tr : List (Event S W)} {w w' : W}
    {t : Nat} (h : C.Safe M Q (.call op k) tr w t) (hr : C.rely w w') :
    C.Safe M Q (.call op k) tr w' t :=
  ⟨C.starts_rely h.1 hr,fun w₁ u r w₂ hi hr' => h.2 w₁ u r w₂ hi (C.rely_trans hr hr')⟩

/-- A program that makes only harmless requests is safe wherever it runs. -/
theorem Safe.of_obeys {ok : S.Op → Prop} {post : α → Prop} {p : Program S α} (hp : p.Obeys ok post)
    (hs : ∀ tr op w t, ok op → C.starts tr op w t) (hg : ∀ tr e, ok e.op → C.guarantee tr e)
    {tr : List (Event S W)} {w : W} {t : Nat} :
    C.Safe M (fun tr' a _ t' => post a ∧ tr <:+ tr' ∧ t ≤ t') p tr w t := by
  induction p generalizing tr w t with
  | ret a => exact ⟨hp,List.suffix_refl tr,Nat.le_refl t⟩
  | call op k ih =>
    refine Safe.call (hs tr op w t hp.1) ?_
    intro w₁ u r w₂ _ _ hu _ _ _
    refine ⟨hg _ _ hp.1,(ih r (hp.2 r)).mono ?_⟩
    rintro tr' a _ t' ⟨ha,ht,hl⟩
    exact ⟨ha,(List.suffix_cons _ _).trans ht,Nat.le_trans hu hl⟩

/-- The contract that counts on more about the answers. -/
def permitting (C : Contract S W) (permits : List (Event S W) → Event S W → Prop) : Contract S W :=
  { C with permits := permits }

/-- Every answer of a past met a condition when it came. -/
def Met (permits : List (Event S W) → Event S W → Prop) : List (Event S W) → Prop
  | [] => True
  | e :: tr => permits tr e ∧ Met permits tr

theorem met_of_mem {permits : List (Event S W) → Event S W → Prop} {tr : List (Event S W)}
    (h : ∀ e ∈ tr, ∀ older, permits older e) : Met permits tr := by
  induction tr with
  | nil => exact trivial
  | cons e tr ih =>
    obtain ⟨first,others⟩ := List.forall_mem_cons.mp h
    exact ⟨first tr,ih others⟩

theorem Met.older {permits : List (Event S W) → Event S W → Prop} {newer older : List (Event S W)}
    (h : Met permits (newer ++ older)) : Met permits older := by
  induction newer with
  | nil => exact h
  | cons e newer ih => exact ih h.2

/-- The contract of a task that owes nothing more after an answer it does not count on. -/
def assuming (C : Contract S W) : Contract S W where
  inv := C.inv
  rely := C.rely
  permits _ _ := True
  starts tr op w t := Met C.permits tr → C.starts tr op w t
  guarantee tr e := Met C.permits (e :: tr) → C.guarantee tr e
  rely_refl := C.rely_refl
  rely_trans := C.rely_trans
  starts_rely h hr met := C.starts_rely (h met) hr

theorem Safe.assuming {p : Program S α} {tr : List (Event S W)} {w : W} {t : Nat}
    (h : Met C.permits tr → C.Safe M Q p tr w t) :
    C.assuming.Safe M (fun tr a w t => Met C.permits tr → Q tr a w t) p tr w t := by
  induction p generalizing tr w t with
  | ret a => exact h
  | call op k ih =>
    refine ⟨fun met => (h met).1,?_⟩
    intro w₁ u r w₂ hi hr hu ht ha _
    constructor
    · rintro ⟨counted,met⟩
      exact ((h met).2 w₁ u r w₂ hi hr hu ht ha counted).1
    · refine ih r ?_
      rintro ⟨counted,met⟩
      exact ((h met).2 w₁ u r w₂ hi hr hu ht ha counted).2

/-- The contract that also holds a program to its repertoire. -/
def obeying (C : Contract S W) (ok : S.Op → Prop) : Contract S W :=
  { C with guarantee := fun tr e => ok e.op ∧ C.guarantee tr e }

theorem Safe.obeying {ok : S.Op → Prop} {post : α → Prop} {p : Program S α} {tr : List (Event S W)} {w : W}
    {t : Nat} (h : C.Safe M Q p tr w t) (hp : p.Obeys ok post) : (C.obeying ok).Safe M Q p tr w t := by
  induction p generalizing tr w t with
  | ret a => exact h
  | call op k ih =>
    refine ⟨h.1,?_⟩
    intro w₁ u r w₂ hi hr hu ht ha hq
    obtain ⟨hg,hk⟩ := h.2 w₁ u r w₂ hi hr hu ht ha hq
    exact ⟨⟨hp.1,hg⟩,ih r hk (hp.2 r)⟩

/-- A safe program has only results that its repertoire leads to. -/
theorem Safe.result {ok : S.Op → Prop} {post : α → Prop} {p : Program S α} {tr : List (Event S W)} {w : W}
    {t : Nat} (h : C.Safe M Q p tr w t) (hp : p.Obeys ok post) :
    C.Safe M (fun tr a w t => Q tr a w t ∧ post a) p tr w t := by
  induction p generalizing tr w t with
  | ret a => exact ⟨h,hp⟩
  | call op k ih =>
    refine ⟨h.1,?_⟩
    intro w₁ u r w₂ hi hr hu ht ha hq
    obtain ⟨hg,hk⟩ := h.2 w₁ u r w₂ hi hr hu ht ha hq
    exact ⟨hg,ih r hk (hp.2 r)⟩

/-- A run only ever adds to the past it started with. -/
theorem Safe.suffix {p : Program S α} {tr : List (Event S W)} {w : W} {t : Nat} (h : C.Safe M Q p tr w t) :
    C.Safe M (fun tr' a w t => Q tr' a w t ∧ tr <:+ tr') p tr w t := by
  induction p generalizing tr w t with
  | ret a => exact ⟨h,List.suffix_refl tr⟩
  | call op k ih =>
    refine ⟨h.1,?_⟩
    intro w₁ u r w₂ hi hr hu ht ha hp
    obtain ⟨hg,hk⟩ := h.2 w₁ u r w₂ hi hr hu ht ha hp
    refine ⟨hg,(ih r hk).mono ?_⟩
    rintro tr' a w t ⟨hq,hs⟩
    exact ⟨hq,(List.suffix_cons _ _).trans hs⟩

theorem Kept.split {newer older : List (Event S W)} {e : Event S W} (h : C.Kept M (newer ++ e :: older)) :
    C.inv e.pre ∧ C.permits older e ∧ M.Answers e.stop e.pre e.op e.reply e.post ∧ e.start ≤ e.stop ∧
      C.guarantee older e := by
  induction newer with
  | nil => exact h.1
  | cons d newer ih => exact ih h.2

theorem Kept.mem {tr : List (Event S W)} (h : C.Kept M tr) {e : Event S W} (he : e ∈ tr) :
    ∃ newer older, tr = newer ++ e :: older ∧ C.inv e.pre ∧ C.permits older e ∧
      M.Answers e.stop e.pre e.op e.reply e.post ∧ e.start ≤ e.stop ∧ C.guarantee older e := by
  obtain ⟨newer,older,rfl⟩ := List.append_of_mem he
  exact ⟨newer,older,rfl,h.split⟩

end Contract

/-- Every job keeps its contract when it runs alone, and what each request does to
the world is allowed for by every job that may be in flight with it. -/
structure Verified (sys : System S W J R) (C : J → Contract S W) (evolves : W → W → Prop)
    (Q : J → List (Event S W) → R → W → Nat → Prop) : Prop where
  refl : ∀ w, evolves w w
  trans : ∀ {a b c}, evolves a b → evolves b c → evolves a c
  permits : ∀ j tr e, sys.permits j tr e → (C j).permits tr e
  start : ∀ j t w, (∀ i, (C i).inv w) → sys.admits t w j →
    (C j).Safe sys.toMachine (Q j) (sys.code j) [] w t
  step : ∀ j tr e, (∀ i, (C i).inv e.pre) → sys.Answers e.stop e.pre e.op e.reply e.post →
    (C j).permits tr e → (C j).guarantee tr e →
      (∀ i, (C i).inv e.post) ∧ evolves e.pre e.post ∧
        ∀ i, sys.together i j ∨ sys.together j i → (C i).rely e.pre e.post

/-- What is known of one task in a reachable state. -/
structure Task.Sound (sys : System S W J R) (C : J → Contract S W) (evolves : W → W → Prop)
    (Q : J → List (Event S W) → R → W → Nat → Prop) (s : State S W J R)
    (task : Task S W J R) : Prop where
  since : task.since ≤ s.clock
  kept : (C task.job).Kept sys.toMachine task.trace
  evolved : ∀ e ∈ task.trace, evolves e.post s.world
  running : task.Running → (C task.job).Safe sys.toMachine (Q task.job) task.program task.trace
    s.world task.since
  finished : ∀ a, task.program = .ret a →
    ∃ w, evolves w s.world ∧ Q task.job task.trace a w task.since

/-- Two running tasks were allowed to be in flight together. -/
def State.Compatible (sys : System S W J R) (s : State S W J R) : Prop :=
  ∀ i j ti tj, i ≠ j → s.tasks i = some ti → s.tasks j = some tj → ti.Running → tj.Running →
    sys.together ti.job tj.job ∨ sys.together tj.job ti.job

structure State.Sound (sys : System S W J R) (C : J → Contract S W) (evolves : W → W → Prop)
    (Q : J → List (Event S W) → R → W → Nat → Prop) (w₀ : W) (s : State S W J R) : Prop where
  inv : ∀ i, (C i).inv s.world
  evolved : evolves w₀ s.world
  compatible : s.Compatible sys
  tasks : ∀ id task, s.tasks id = some task → task.Sound sys C evolves Q s

theorem Task.running_call {task : Task S W J R} (h : task.Running) :
    task.dropped = false ∧ ∃ op k, task.program = .call op k := by
  obtain ⟨op,hd,hp⟩ := h
  refine ⟨hd,?_⟩
  cases hc : task.program with
  | ret a => rw [hc] at hp; cases hp
  | call op k => exact ⟨op,k,rfl⟩

theorem Task.running_of_call {task : Task S W J R} {op : S.Op} {k : S.Reply op → Program S R}
    (hd : task.dropped = false) (hp : task.program = .call op k) : task.Running :=
  ⟨op,hd,by rw [hp]; rfl⟩

section Soundness
variable {sys : System S W J R} {C : J → Contract S W} {evolves : W → W → Prop}
  {Q : J → List (Event S W) → R → W → Nat → Prop} {w₀ : W} {s : State S W J R}

theorem State.Compatible.put {id : Nat} {task : Task S W J R} (h : s.Compatible sys)
    (hn : task.Running → ∀ other peer, other ≠ id → s.tasks other = some peer → peer.Running →
      sys.together peer.job task.job ∨ sys.together task.job peer.job) :
    (s.put id task).Compatible sys := by
  intro i j ti tj hij hi hj ri rj
  by_cases hid : i = id
  · subst hid
    rw [State.put_same] at hi
    rw [State.put_other _ _ (Ne.symm hij)] at hj
    cases hi
    exact (hn ri j tj (Ne.symm hij) hj rj).symm
  · rw [State.put_other _ _ hid] at hi
    by_cases hjd : j = id
    · subst hjd
      rw [State.put_same] at hj
      cases hj
      exact hn rj i ti hid hi ri
    · rw [State.put_other _ _ hjd] at hj
      exact h i j ti tj hij hi hj ri rj

private theorem sound_start (hv : Verified sys C evolves Q) (hs : s.Sound sys C evolves Q w₀)
    (id : Nat) (job : J) (fresh : s.tasks id = none) (admitted : sys.admits s.clock s.world job)
    (compatible : ∀ other task, s.tasks other = some task → task.Running → sys.together task.job job) :
    (s.put id ⟨job, sys.code job, s.clock, [], false⟩).Sound sys C evolves Q w₀ := by
  have safe := hv.start job s.clock s.world hs.inv admitted
  refine ⟨hs.inv,hs.evolved,?_,?_⟩
  · refine hs.compatible.put (fun _ other peer _ ho hr => .inl (compatible other peer ho hr))
  · intro other task ho
    by_cases hid : other = id
    · subst hid
      rw [State.put_same] at ho
      cases ho
      refine ⟨Nat.le_refl _,trivial,(by simp),fun _ => safe,?_⟩
      intro a ha
      change sys.code job = .ret a at ha
      rw [ha] at safe
      exact ⟨s.world,hv.refl _,safe⟩
    · rw [State.put_other _ _ hid] at ho
      obtain ⟨h1,h2,h3,h4,h5⟩ := hs.tasks other task ho
      exact ⟨h1,h2,h3,h4,h5⟩

private theorem sound_answer (hv : Verified sys C evolves Q) (hs : s.Sound sys C evolves Q w₀)
    (id : Nat) (task : Task S W J R) (op : S.Op) (next : S.Reply op → Program S R)
    (reply : S.Reply op) (w : W) (known : s.tasks id = some task) (alive : task.dropped = false)
    (waits : task.program = .call op next) (inTime : sys.InTime task.since op s.clock)
    (answers : sys.Answers s.clock s.world op reply w)
    (permitted : sys.permits task.job task.trace ⟨op, reply, task.since, s.clock, s.world, w⟩) :
    (State.put { s with world := w } id { task with
      program := next reply
      since := s.clock
      trace := ⟨op, reply, task.since, s.clock, s.world, w⟩ :: task.trace }).Sound sys C evolves Q w₀ := by
  have me := hs.tasks id task known
  have hp := hv.permits _ _ _ permitted
  have safe := me.running (Task.running_of_call alive waits)
  rw [waits] at safe
  obtain ⟨hg,hk⟩ := safe.2 s.world s.clock reply w (hs.inv _) ((C task.job).rely_refl _) me.since
    inTime answers hp
  obtain ⟨hinv,hev,hrely⟩ := hv.step task.job task.trace _ hs.inv answers hp hg
  refine ⟨hinv,hv.trans hs.evolved hev,?_,?_⟩
  · refine State.Compatible.put (s := { s with world := w }) hs.compatible ?_
    intro _ other peer hne ho hr
    exact hs.compatible other id peer task hne ho known hr (Task.running_of_call alive waits)
  · intro other peer ho
    by_cases hid : other = id
    · subst hid
      rw [State.put_same] at ho
      cases ho
      refine ⟨Nat.le_refl _,⟨⟨hs.inv _,hp,answers,me.since,hg⟩,me.kept⟩,?_,fun _ => hk,?_⟩
      · intro e he
        rcases List.mem_cons.mp he with rfl | he
        · exact hv.refl _
        · exact hv.trans (me.evolved e he) hev
      · intro a ha
        change next reply = .ret a at ha
        rw [ha] at hk
        exact ⟨w,hv.refl _,hk⟩
    · rw [State.put_other _ _ hid] at ho
      have it := hs.tasks other peer ho
      refine ⟨it.since,it.kept,fun e he => hv.trans (it.evolved e he) hev,?_,?_⟩
      · intro hr
        have hc := hs.compatible other id peer task hid ho known hr (Task.running_of_call alive waits)
        obtain ⟨_,o,k,hok⟩ := Task.running_call hr
        have hsafe := it.running hr
        rw [hok] at hsafe ⊢
        exact hsafe.rely (hrely peer.job hc)
      · intro a ha
        obtain ⟨w',hw',hq⟩ := it.finished a ha
        exact ⟨w',hv.trans hw' hev,hq⟩

theorem Verified.step_sound (hv : Verified sys C evolves Q) {s' : State S W J R}
    (hs : s.Sound sys C evolves Q w₀) (h : Step sys s s') : s'.Sound sys C evolves Q w₀ := by
  cases h with
  | start id job fresh admitted compatible => exact sound_start hv hs id job fresh admitted compatible
  | answer id task op next reply w known alive waits inTime answers permitted =>
    exact sound_answer hv hs id task op next reply w known alive waits inTime answers permitted
  | pass t later inTime =>
    refine ⟨hs.inv,hs.evolved,hs.compatible,?_⟩
    intro id task ht
    obtain ⟨h1,h2,h3,h4,h5⟩ := hs.tasks id task ht
    exact ⟨Nat.le_trans h1 later,h2,h3,h4,h5⟩
  | drop id task op known waits droppable =>
    refine ⟨hs.inv,hs.evolved,hs.compatible.put ?_,?_⟩
    · intro hr
      obtain ⟨_,hd,_⟩ := hr
      cases hd
    · intro other peer ho
      by_cases hid : other = id
      · subst hid
        rw [State.put_same] at ho
        cases ho
        obtain ⟨h1,h2,h3,_,h5⟩ := hs.tasks other task known
        refine ⟨h1,h2,h3,?_,h5⟩
        rintro ⟨_,hd,_⟩
        cases hd
      · rw [State.put_other _ _ hid] at ho
        obtain ⟨h1,h2,h3,h4,h5⟩ := hs.tasks other peer ho
        exact ⟨h1,h2,h3,h4,h5⟩

/-- Verified jobs keep their contracts in every run, however their requests interleave. -/
theorem Verified.sound (hv : Verified sys C evolves Q) (hw : ∀ i, (C i).inv w₀)
    (hr : Reachable sys w₀ s) : s.Sound sys C evolves Q w₀ := by
  induction hr with
  | initial t =>
    refine ⟨hw,hv.refl _,?_,?_⟩
    · intro i j ti tj _ hi
      cases hi
    · intro id task ht
      cases ht
  | step _ hs ih => exact hv.step_sound ih hs

end Soundness

end PreconfGateway.Interleaving
