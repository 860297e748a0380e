import PreconfGateway.Interleaving.History
import PreconfGateway.Interleaving.Parties

/-! How long a task is at work: no longer than its program can take with every request as slow as
it may be, whatever other tasks do meanwhile. -/
namespace PreconfGateway.Interleaving
variable {S T : Signature} {V W J R α : Type}

/-- With whatever due times, a program ends by that time. -/
abbrev Program.Ends (M : Machine S W) (last : Nat) (p : Program S α) (t : Nat) : Prop := p.Timely M (fun _ _ => True) last t

namespace Program
variable {M : Machine S W} {N : Machine T V} {last t : Nat}

theorem Timely.ends {due : S.Op → Nat → Prop} {p : Program S α} (h : p.Timely M due last t) : p.Ends M last t := by
  induction p generalizing t with
  | ret a => exact h
  | call op k ih =>
    obtain ⟨_,next,bound,rest⟩ := h
    exact ⟨fun _ _ => trivial,next,bound,fun r => ih r (rest r)⟩

/-- Beside another party a program takes as long as on its own. -/
theorem Ends.right {p : Program T α} (h : p.Ends N last t) : p.right.Ends (M.sum N) last t := by
  induction p generalizing t with
  | ret a => exact h
  | call op k ih =>
    obtain ⟨_,next,bound,rest⟩ := h
    exact ⟨fun _ _ => trivial,next,bound,fun r => ih r (rest r)⟩

/-- Requests that are carried out in the time they have make the program no longer. -/
theorem Ends.expand {f : Implementation S T}
    (carry : ∀ op t next, (∀ since u, since ≤ t → M.InTime since op u → u ≤ next) → (f op).Ends N next t)
    {p : Program S α} (h : p.Ends M last t) : (p.expand f).Ends N last t := by
  induction p generalizing t with
  | ret a => exact h
  | call op k ih =>
    obtain ⟨_,next,bound,rest⟩ := h
    exact (carry op t next bound).bind fun r => ih r (rest r)

end Program

/-- When the task was started. -/
def Task.began (task : Task S W J R) : Nat := (task.trace.getLast?.map Event.start).getD task.since

section Runs
variable {sys : System S W J R} {w₀ : W} {s : State S W J R} {job : J} {span : Nat}

/-- What is left of the task fits into its span, and a request that waits is not late. -/
structure Keeping (sys : System S W J R) (job : J) (span now : Nat) (task : Task S W J R) : Prop where
  ends : task.job = job → task.program.Ends sys.toMachine (task.began + span) task.since
  waits : ∀ op, task.Waits op → sys.InTime task.since op now

theorem began_answered {task : Task S W J R} {e : Event S W} (start : e.start = task.since) {p : Program S R} {t : Nat} :
    ({ task with program := p, since := t, trace := e :: task.trace } : Task S W J R).began = task.began := by
  unfold Task.began
  dsimp only
  cases h : task.trace with
  | nil => exact start
  | cons d tr => rw [List.getLast?_cons_cons]; rfl

theorem Reachable.keeping (prompt : ∀ op t, sys.InTime t op t) (hr : Reachable sys w₀ s)
    (code : ∀ t, (sys.code job).Ends sys.toMachine (t + span) t) {id : Nat} {task : Task S W J R} (ht : s.tasks id = some task) :
    Keeping sys job span s.clock task := by
  induction hr generalizing id task with
  | initial t => cases ht
  | @step s s' hr step ih =>
    cases step with
    | start i j fresh admitted compatible =>
      by_cases same : id = i
      · subst same
        rw [State.put_same] at ht
        cases ht
        exact ⟨fun he => by cases he; exact code _,fun op _ => prompt op _⟩
      · rw [State.put_other _ _ same] at ht
        exact ih ht
    | answer i old op next reply w known alive waits inTime answers permitted =>
      by_cases same : id = i
      · subst same
        rw [State.put_same] at ht
        cases ht
        refine ⟨fun he => ?_,fun op _ => prompt op _⟩
        have ends := (ih known).ends he
        rw [waits] at ends
        obtain ⟨_,bound,latest,rest⟩ := ends
        rw [began_answered rfl]
        exact (rest reply).mono (latest old.since s.clock (Nat.le_refl _) inTime) (Nat.le_refl _)
      · rw [State.put_other _ _ same] at ht
        exact ih ht
    | pass t later inTime => exact ⟨(ih ht).ends,fun op waits => inTime id task op ht waits⟩
    | drop i old op known waits droppable =>
      by_cases same : id = i
      · subst same
        rw [State.put_same] at ht
        cases ht
        exact ⟨(ih known).ends,fun op waits => by cases waits.1⟩
      · rw [State.put_other _ _ same] at ht
        exact ih ht

/-- Whatever runs beside it, a task has its result within its span, and is not at work any longer. -/
theorem Reachable.in_time (prompt : ∀ op t, sys.InTime t op t) (answered : ∀ op, Nonempty (S.Reply op)) (hr : Reachable sys w₀ s)
    {id : Nat} {task : Task S W J R} (ht : s.tasks id = some task)
    (code : ∀ t, (sys.code task.job).Ends sys.toMachine (t + span) t) :
    (∀ a, task.program = .ret a → task.since ≤ task.began + span) ∧ (task.Running → s.clock ≤ task.began + span) := by
  have keeping := hr.keeping prompt code ht
  have ends := keeping.ends rfl
  constructor
  · intro a done
    rw [done] at ends
    exact ends
  · rintro ⟨op,waits⟩
    have inTime := keeping.waits op waits
    obtain ⟨_,pending⟩ := waits
    cases program : task.program with
    | ret a =>
      rw [program] at pending
      cases pending
    | call o k =>
      rw [program] at pending ends
      cases pending
      obtain ⟨_,next,bound,rest⟩ := ends
      obtain ⟨r⟩ := answered op
      exact Nat.le_trans (bound _ _ (Nat.le_refl _) inTime) ((rest r).le prompt answered)

end Runs

end PreconfGateway.Interleaving
