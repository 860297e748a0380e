import PreconfGateway.Interleaving.History

/-! One ledger of the events of all tasks, newest first. What a world holds is read off
the ledger, and each task's own events are those the ledger has under its number. -/
namespace PreconfGateway.Interleaving
variable {S : Signature} {W J R : Type} {sys : System S W J R} {w₀ : W} {s : State S W J R}

/-- An event with the task that saw it. -/
structure Entry (S : Signature) (W J : Type) where
  id : Nat
  job : J
  event : Event S W

/-- Each event starts in the world that the one before it left. -/
inductive Linked (w₀ : W) : List (Entry S W J) → W → Prop
  | nil : Linked w₀ [] w₀
  | cons {log : List (Entry S W J)} {entry : Entry S W J} (rest : Linked w₀ log entry.event.pre) :
      Linked w₀ (entry :: log) entry.event.post

namespace State

def traceOf (s : State S W J R) (id : Nat) : List (Event S W) := ((s.tasks id).map Task.trace).getD []

structure Logged (s : State S W J R) (w₀ : W) (log : List (Entry S W J)) : Prop where
  linked : Linked w₀ log s.world
  traces : ∀ id, s.traceOf id = (log.filter (fun entry => entry.id = id)).map Entry.event
  jobs : ∀ entry ∈ log, ∃ task, s.tasks entry.id = some task ∧ task.job = entry.job

/-- What is in the ledger was seen. -/
theorem Logged.saw {log : List (Entry S W J)} (h : s.Logged w₀ log) {entry : Entry S W J} (he : entry ∈ log) :
    s.Saw entry.id entry.job entry.event := by
  obtain ⟨task,ht,hj⟩ := h.jobs entry he
  refine ⟨task,ht,hj,?_⟩
  have own := h.traces entry.id
  rw [traceOf,ht] at own
  change task.trace = _ at own
  rw [own]
  exact List.mem_map.mpr ⟨entry,List.mem_filter.mpr ⟨he,by simp⟩,rfl⟩

/-- What was seen is in the ledger. -/
theorem Logged.mem {log : List (Entry S W J)} (h : s.Logged w₀ log) {id : Nat} {job : J} {e : Event S W}
    (saw : s.Saw id job e) : ⟨id, job, e⟩ ∈ log := by
  obtain ⟨task,ht,hj,he⟩ := saw
  have own := h.traces id
  rw [traceOf,ht] at own
  change task.trace = _ at own
  rw [own] at he
  obtain ⟨entry,hm,rfl⟩ := List.mem_map.mp he
  obtain ⟨listed,hid⟩ := List.mem_filter.mp hm
  obtain ⟨task',ht',hj'⟩ := h.jobs entry listed
  rw [decide_eq_true_eq] at hid
  subst hid
  cases ht.symm.trans ht'
  cases hj
  rw [hj']
  exact listed

end State

private theorem logged_put {log : List (Entry S W J)} (h : s.Logged w₀ log) {id : Nat} {task : Task S W J R}
    (same : task.trace = s.traceOf id) (job : ∀ old, s.tasks id = some old → old.job = task.job) :
    (s.put id task).Logged w₀ log := by
  refine ⟨h.linked,?_,?_⟩
  · intro i
    rw [← h.traces i]
    by_cases hi : i = id
    · subst hi
      rw [State.traceOf,State.put_same]
      exact same
    · rw [State.traceOf,State.put_other _ _ hi]
      rfl
  · intro entry he
    obtain ⟨old,ho,hj⟩ := h.jobs entry he
    by_cases hi : entry.id = id
    · rw [hi] at ho ⊢
      exact ⟨task,State.put_same _ _ _,(job old ho).symm.trans hj⟩
    · exact ⟨old,by rw [State.put_other _ _ hi]; exact ho,hj⟩

/-- A step adds one event to the ledger, or none. -/
theorem Step.logged {s' : State S W J R} (hs : Step sys s s') {log : List (Entry S W J)} (h : s.Logged w₀ log) :
    ∃ new, s'.Logged w₀ (new ++ log) := by
  cases hs with
  | start id job fresh _ _ =>
    refine ⟨[],logged_put h ?_ ?_⟩
    · simp [State.traceOf,fresh]
    · intro old ho
      rw [fresh] at ho
      cases ho
  | answer id task op next reply w known _ _ _ _ _ =>
    let entry : Entry S W J := ⟨id, task.job, ⟨op, reply, task.since, s.clock, s.world, w⟩⟩
    refine ⟨[entry],@Linked.cons _ _ _ _ _ entry h.linked,?_,?_⟩
    · intro i
      have before := h.traces i
      by_cases hi : i = id
      · subst hi
        rw [State.traceOf,known] at before
        change task.trace = _ at before
        rw [List.singleton_append,State.traceOf,State.put_same,List.filter_cons_of_pos (by simp [entry]),List.map_cons,
          ← before]
        rfl
      · rw [List.singleton_append,State.traceOf,State.put_other _ _ hi,
          List.filter_cons_of_neg (by simpa [entry] using Ne.symm hi)]
        exact before
    · intro d hd
      by_cases hi : d.id = id
      · rcases List.mem_cons.mp hd with rfl | hd
        · exact ⟨_,State.put_same _ _ _,rfl⟩
        · obtain ⟨old,ho,hj⟩ := h.jobs d hd
          rw [hi] at ho ⊢
          cases known.symm.trans ho
          exact ⟨_,State.put_same _ _ _,hj⟩
      · rcases List.mem_cons.mp hd with rfl | hd
        · exact absurd rfl hi
        · obtain ⟨old,ho,hj⟩ := h.jobs d hd
          exact ⟨old,by rw [State.put_other _ _ hi]; exact ho,hj⟩
  | pass t _ _ => exact ⟨[],h.linked,h.traces,h.jobs⟩
  | drop id task op known _ _ =>
    refine ⟨[],logged_put h ?_ ?_⟩
    · simp [State.traceOf,known]
    · intro old ho
      cases known.symm.trans ho
      rfl

/-- Every reachable state has its ledger. -/
theorem Reachable.logged (hr : Reachable sys w₀ s) : ∃ log : List (Entry S W J), s.Logged w₀ log := by
  induction hr with
  | initial t => exact ⟨[],.nil,fun _ => rfl,fun _ he => nomatch he⟩
  | step _ hs ih =>
    obtain ⟨log,h⟩ := ih
    obtain ⟨new,h'⟩ := hs.logged h
    exact ⟨new ++ log,h'⟩

/-- The ledger of a later state goes on from that of an earlier one. -/
theorem State.Logged.later {s' : State S W J R} {log : List (Entry S W J)} (h : s.Logged w₀ log)
    (steps : Relation.ReflTransGen (Step sys) s s') : ∃ more, s'.Logged w₀ (more ++ log) := by
  induction steps with
  | refl => exact ⟨[],h⟩
  | tail _ hs ih =>
    obtain ⟨more,h⟩ := ih
    obtain ⟨new,h'⟩ := hs.logged h
    exact ⟨new ++ more,by rw [List.append_assoc]; exact h'⟩

/-- What one more event preserves holds of the whole ledger and the world it leads to. -/
theorem Linked.invariant {log : List (Entry S W J)} {w : W} (h : Linked w₀ log w)
    (Inv : List (Entry S W J) → W → Prop) (start : Inv [] w₀)
    (step : ∀ entry ∈ log, ∀ past, Inv past entry.event.pre → Inv (entry :: past) entry.event.post) : Inv log w := by
  induction h with
  | nil => exact start
  | @cons log entry _ ih =>
    exact step entry List.mem_cons_self log (ih fun d hd => step d (List.mem_cons_of_mem _ hd))

/-- Two readings of a ledger that agree on the entries of each task agree up to order. -/
theorem perm_of_tasks {β : Type} {f g : Entry S W J → Option β} {log : List (Entry S W J)}
    (h : ∀ id, (log.filter (fun entry => entry.id = id)).filterMap f =
      (log.filter (fun entry => entry.id = id)).filterMap g) : (log.filterMap f).Perm (log.filterMap g) := by
  generalize hn : log.length = n
  induction n using Nat.strongRecOn generalizing log with
  | _ n ih =>
    subst hn
    cases log with
    | nil => exact .nil
    | cons entry log =>
      -- the entries of the first task go to the front, and the others are fewer
      let own : Entry S W J → Bool := fun other => other.id = entry.id
      have split := List.filter_append_perm own (entry :: log)
      have fewer : ((entry :: log).filter (fun other => !own other)).length < (entry :: log).length := by
        rw [List.filter_cons_of_neg (by simp [own])]
        exact Nat.lt_succ_of_le (List.length_filter_le _ _)
      have others : ∀ id, (((entry :: log).filter (fun other => !own other)).filter (fun other => other.id = id)).filterMap f =
          (((entry :: log).filter (fun other => !own other)).filter (fun other => other.id = id)).filterMap g := by
        intro id
        rw [List.filter_filter]
        by_cases hid : id = entry.id
        · subst hid
          have none : (entry :: log).filter (fun other => decide (other.id = entry.id) && !own other) = [] := by
            simp [own]
          rw [none]
          rfl
        · have same : (entry :: log).filter (fun other => decide (other.id = id) && !own other) =
              (entry :: log).filter (fun other => other.id = id) := by
            refine List.filter_congr fun other _ => ?_
            by_cases mine : other.id = id <;> simp [own,mine,hid]
          rw [same]
          exact h id
      have rest := ih _ fewer others rfl
      have sorted : (((entry :: log).filter own ++ (entry :: log).filter (fun other => !own other)).filterMap f).Perm
          (((entry :: log).filter own ++ (entry :: log).filter (fun other => !own other)).filterMap g) := by
        rw [List.filterMap_append,List.filterMap_append,h entry.id]
        exact rest.append_left _
      exact (split.symm.filterMap f).trans (sorted.trans (split.filterMap g))

end PreconfGateway.Interleaving
