import PreconfGateway.Interleaving.Discipline

/-! One program followed from its start to its result, and its place in the runs of
a whole system. -/
namespace PreconfGateway.Interleaving
variable {S : Signature} {W J R α β : Type}

/-- A complete run of one program; between says what others do to the world before
each of its requests is answered. Events are listed oldest first. -/
inductive Run (M : Machine S W) (between : W → W → Prop) :
    Program S α → W → Nat → List (Event S W) → α → W → Nat → Prop
  | ret (a : α) (w : W) (t : Nat) : Run M between (.ret a) w t [] a w t
  | call {op : S.Op} {k : S.Reply op → Program S α} {w w₁ w₂ w' : W} {t u t' : Nat} {r : S.Reply op}
      {es : List (Event S W)} {a : α} (other : between w w₁) (later : t ≤ u)
      (inTime : M.InTime t op u) (answers : M.Answers u w₁ op r w₂)
      (rest : Run M between (k r) w₂ u es a w' t') :
      Run M between (.call op k) w t (⟨op, r, t, u, w₁, w₂⟩ :: es) a w' t'

namespace Run
variable {M : Machine S W} {between : W → W → Prop}

theorem ret_inv {a b : α} {w w' : W} {t t' : Nat} {es : List (Event S W)}
    (h : Run M between (.ret a) w t es b w' t') : es = [] ∧ b = a ∧ w' = w ∧ t' = t := by
  cases h
  exact ⟨rfl,rfl,rfl,rfl⟩

theorem bind_inv {p : Program S α} {f : α → Program S β} {w w' : W} {t t' : Nat}
    {es : List (Event S W)} {b : β} (h : Run M between (p >>= f) w t es b w' t') :
    ∃ es₁ a w₁ t₁ es₂, es = es₁ ++ es₂ ∧ Run M between p w t es₁ a w₁ t₁ ∧
      Run M between (f a) w₁ t₁ es₂ b w' t' := by
  induction p generalizing w t es with
  | ret a => exact ⟨[],a,w,t,es,rfl,.ret a w t,h⟩
  | call op k ih =>
    cases h with
    | call other later inTime answers rest =>
      obtain ⟨es₁,a,w₁,t₁,es₂,rfl,h₁,h₂⟩ := ih _ rest
      exact ⟨_ :: es₁,a,w₁,t₁,es₂,rfl,.call other later inTime answers h₁,h₂⟩

theorem bind {p : Program S α} {f : α → Program S β} {w w₁ w' : W} {t t₁ t' : Nat}
    {es₁ es₂ : List (Event S W)} {a : α} {b : β} (h₁ : Run M between p w t es₁ a w₁ t₁)
    (h₂ : Run M between (f a) w₁ t₁ es₂ b w' t') : Run M between (p >>= f) w t (es₁ ++ es₂) b w' t' := by
  induction h₁ with
  | ret => exact h₂
  | call other later inTime answers _ ih => exact .call other later inTime answers (ih h₂)

theorem mono {between' : W → W → Prop} (hb : ∀ w w', between w w' → between' w w') {p : Program S α}
    {w w' : W} {t t' : Nat} {es : List (Event S W)} {a : α} (h : Run M between p w t es a w' t') :
    Run M between' p w t es a w' t' := by
  induction h with
  | ret => exact .ret _ _ _
  | call other later inTime answers _ ih => exact .call (hb _ _ other) later inTime answers ih

theorem later {p : Program S α} {w w' : W} {t t' : Nat} {es : List (Event S W)} {a : α} (h : Run M between p w t es a w' t') :
    t ≤ t' := by
  induction h with
  | ret => exact Nat.le_refl _
  | call _ later _ _ _ ih => exact Nat.le_trans later ih

/-- What a program keeps to whatever it is answered, it keeps to in a run. -/
theorem obeys {ok : S.Op → Prop} {post : α → Prop} {p : Program S α} (hp : p.Obeys ok post) {w w' : W}
    {t t' : Nat} {es : List (Event S W)} {a : α} (h : Run M between p w t es a w' t') :
    (∀ e ∈ es, ok e.op) ∧ post a := by
  induction h with
  | ret => exact ⟨fun e he => (by cases he),hp⟩
  | call _ _ _ _ _ ih =>
    obtain ⟨he,ha⟩ := ih (hp.2 _)
    refine ⟨?_,ha⟩
    intro e hm
    rcases List.mem_cons.mp hm with rfl | hm
    · exact hp.1
    · exact he e hm

end Run

/-- A safe program keeps its contract in every complete run. -/
theorem Contract.Safe.run {C : Contract S W} {M : Machine S W} {between : W → W → Prop}
    {Q : List (Event S W) → α → W → Nat → Prop} {p : Program S α} {tr es : List (Event S W)}
    {w w' : W} {t t' : Nat} {a : α} (h : C.Safe M Q p tr w t) (hr : Run M between p w t es a w' t')
    (hi : C.inv w) (hb : ∀ w w', C.inv w → between w w' → C.inv w' ∧ C.rely w w')
    (hp : ∀ tr, ∀ e ∈ es, C.permits tr e)
    (hg : ∀ tr e, C.inv e.pre → M.Answers e.stop e.pre e.op e.reply e.post → C.permits tr e →
      C.guarantee tr e → C.inv e.post)
    (hk : C.Kept M tr) : C.Kept M (es.reverse ++ tr) ∧ C.inv w' ∧ Q (es.reverse ++ tr) a w' t' := by
  induction hr generalizing tr with
  | ret a w t => exact ⟨hk,hi,h⟩
  | call other later inTime answers rest ih =>
    obtain ⟨hi₁,hr₁⟩ := hb _ _ hi other
    have hp₁ := hp tr _ List.mem_cons_self
    obtain ⟨hg₁,hs⟩ := h.2 _ _ _ _ hi₁ hr₁ later inTime answers hp₁
    have hi₂ := hg tr _ hi₁ answers hp₁ hg₁
    have hnext := ih hs hi₂ (fun tr e he => hp tr e (List.mem_cons_of_mem _ he))
      ⟨⟨hi₁,hp₁,answers,later,hg₁⟩,hk⟩
    simpa only [List.reverse_cons,List.append_assoc,List.singleton_append] using hnext

/-- A program whose requests can all be answered at once, and well, has a run. -/
theorem Program.Obeys.completes {M : Machine S W} {ok : S.Op → Prop} {post : α → Prop} {good : Event S W → Prop}
    {p : Program S α} (hp : p.Obeys ok post)
    (answered : ∀ op w t, ok op →
      ∃ r w', M.InTime t op t ∧ M.Answers t w op r w' ∧ good ⟨op, r, t, t, w, w'⟩) (w : W) (t : Nat) :
    ∃ es a w', Run M Eq p w t es a w' t ∧ ∀ e ∈ es, good e := by
  induction p generalizing w with
  | ret a => exact ⟨[],a,w,.ret a w t,fun e he => nomatch he⟩
  | call op k ih =>
    obtain ⟨r,w₁,inTime,answers,first⟩ := answered op w t hp.1
    obtain ⟨es,a,w',rest,others⟩ := ih r (hp.2 r) w₁
    exact ⟨_,a,w',.call rfl (Nat.le_refl t) inTime answers rest,List.forall_mem_cons.mpr ⟨first,others⟩⟩

namespace Machine
variable (M : Machine S W)

/-- Follow a program with the given choices and answer times. -/
def play : List (M.Choice × Nat) → Program S α → W → Nat → Option (List (Event S W) × α × W × Nat)
  | [], .ret a, w, t => some ([], a, w, t)
  | (c, u) :: cs, .call op k, w, t =>
    if t ≤ u ∧ (M.latest t op).all (fun b => decide (u ≤ b)) then
      match M.respond u w op c with
      | some (r, w') => (play cs (k r) w' u).map (fun out => (⟨op, r, t, u, w, w'⟩ :: out.1, out.2))
      | none => none
    else none
  | _, _, _, _ => none

theorem play_run {cs : List (M.Choice × Nat)} {p : Program S α} {w w' : W} {t t' : Nat}
    {es : List (Event S W)} {a : α} (h : M.play cs p w t = some (es, a, w', t')) :
    Run M Eq p w t es a w' t' := by
  induction cs generalizing p w t es with
  | nil =>
    cases p with
    | ret b =>
      cases h
      exact .ret _ _ _
    | call op k => cases h
  | cons c cs ih =>
    cases p with
    | ret b => cases h
    | call op k =>
      obtain ⟨c,u⟩ := c
      simp only [play] at h
      split at h
      · rename_i hu
        split at h
        · rename_i r w₂ hc
          obtain ⟨⟨es',b,w₃,t₃⟩,hp,he⟩ := Option.map_eq_some_iff.mp h
          cases he
          refine .call rfl hu.1 ?_ ⟨c,hc⟩ (ih hp)
          intro b hb
          have hall := hu.2
          rw [hb] at hall
          exact of_decide_eq_true hall
        · cases h
      · cases h

end Machine

section Embedding
variable {sys : System S W J R} {w₀ : W} {s : State S W J R}

/-- Nothing is in flight. -/
def State.Idle (s : State S W J R) : Prop := ∀ id task, s.tasks id = some task → ¬ task.Running

theorem Reachable.wait (hr : Reachable sys w₀ s) (hi : s.Idle) {t : Nat} (ht : s.clock ≤ t) :
    Reachable sys w₀ { s with clock := t } :=
  hr.step (.pass s t ht (fun id task op h hw => absurd ⟨op,hw⟩ (hi id task h)))

section Closed
variable {C : State S W J R → Prop} (closed : ∀ {s s'}, C s → Step sys s s' → C s')
include closed

private theorem run_from {job : J} {id : Nat} {p : Program S R} {es : List (Event S W)} {a : R}
    {w w' : W} {t t' : Nat} (hrun : Run sys.toMachine Eq p w t es a w' t')
    (permitted : ∀ tr, ∀ e ∈ es, sys.permits job tr e) {tr : List (Event S W)}
    {tasks : Nat → Option (Task S W J R)}
    (hi : ∀ i task, tasks i = some task → ¬ task.Running)
    (hr : C ((⟨w, t, tasks⟩ : State S W J R).put id ⟨job, p, t, tr, false⟩)) :
    C ((⟨w', t', tasks⟩ : State S W J R).put id ⟨job, .ret a, t', es.reverse ++ tr, false⟩) := by
  induction hrun generalizing tr with
  | ret a w t => exact hr
  | @call op k w w₁ w₂ w' t u t' r es a other later inTime answers rest ih =>
    cases other
    have known := State.put_same (⟨w, t, tasks⟩ : State S W J R) id ⟨job, .call op k, t, tr, false⟩
    have passed := closed hr (.pass _ u later (by
      intro i task o hi' hw
      by_cases h : i = id
      · subst h
        rw [State.put_same] at hi'
        cases hi'
        cases hw.2
        exact inTime
      · rw [State.put_other _ _ h] at hi'
        exact absurd ⟨o,hw⟩ (hi i task hi')))
    have answered := closed passed (.answer _ id _ op k r w₂ known rfl rfl inTime answers
      (permitted _ _ List.mem_cons_self))
    have hnext := @ih (fun tr e he => permitted tr e (List.mem_cons_of_mem _ he))
      (⟨op, r, t, u, w, w₂⟩ :: tr) (by
      simpa only [State.put,Function.update_idem] using answered)
    simpa only [List.reverse_cons,List.append_assoc,List.singleton_append] using hnext

/-- A complete run of one job, with nothing else in flight, leads on along steps of the system. -/
theorem Run.leads (hr : C s) (hi : s.Idle)
    {id : Nat} {job : J} (fresh : s.tasks id = none) (admitted : sys.admits s.clock s.world job)
    {es : List (Event S W)} {a : R} {w' : W} {t' : Nat}
    (hrun : Run sys.toMachine Eq (sys.code job) s.world s.clock es a w' t')
    (permitted : ∀ tr, ∀ e ∈ es, sys.permits job tr e) :
    ∃ s', C s' ∧ s'.Idle ∧ s'.world = w' ∧ s'.clock = t' ∧
      s'.tasks id = some ⟨job, .ret a, t', es.reverse, false⟩ ∧ ∀ i ≠ id, s'.tasks i = s.tasks i := by
  have started := closed hr (.start s id job fresh admitted
    (fun other task ho hrun => absurd hrun (hi other task ho)))
  have ended := run_from closed hrun permitted hi started
  simp only [List.append_nil] at ended
  refine ⟨_,ended,?_,rfl,rfl,State.put_same _ _ _,fun i h => State.put_other _ _ h⟩
  intro i task ht
  by_cases h : i = id
  · subst h
    rw [State.put_same] at ht
    cases ht
    rintro ⟨_,_,hp⟩
    cases hp
  · rw [State.put_other _ _ h] at ht
    exact hi i task ht

end Closed

/-- A complete run of one job, with nothing else in flight, is a run of the system. -/
theorem Reachable.run (hr : Reachable sys w₀ s) (hi : s.Idle)
    {id : Nat} {job : J} (fresh : s.tasks id = none) (admitted : sys.admits s.clock s.world job)
    {es : List (Event S W)} {a : R} {w' : W} {t' : Nat}
    (hrun : Run sys.toMachine Eq (sys.code job) s.world s.clock es a w' t')
    (permitted : ∀ tr, ∀ e ∈ es, sys.permits job tr e) :
    ∃ s', Reachable sys w₀ s' ∧ s'.Idle ∧ s'.world = w' ∧ s'.clock = t' ∧
      s'.tasks id = some ⟨job, .ret a, t', es.reverse, false⟩ ∧ ∀ i ≠ id, s'.tasks i = s.tasks i :=
  hrun.leads (fun h step => h.step step) hr hi fresh admitted permitted

end Embedding

/-- A job to run on its own, with its starting time and what is chosen for its requests. -/
structure Scene (J C : Type) where
  job : J
  time : Nat
  choices : List (C × Nat)

namespace System
variable (sys : System S W J R)

/-- Run jobs one after another; each leaves its events and its result. -/
def script : List (Scene J sys.Choice) → W → Nat → Option (List (List (Event S W) × R) × W × Nat)
  | [], w, t => some ([], w, t)
  | scene :: scenes, w, t =>
    if t ≤ scene.time then
      (sys.play scene.choices (sys.code scene.job) w scene.time).bind (fun (es, r, w', t') =>
        (script scenes w' t').map (fun out => ((es, r) :: out.1, out.2)))
    else none

variable {sys}

/-- Jobs that run one after another lead on along steps of the system. -/
theorem script_leads {C : State S W J R → Prop} (closed : ∀ {s s'}, C s → Step sys s s' → C s')
    {scenes : List (Scene J sys.Choice)} {s : State S W J R} (hr : C s) (hi : s.Idle) {n : Nat}
    (free : ∀ i, n ≤ i → s.tasks i = none) {outs : List (List (Event S W) × R)} {w' : W} {t' : Nat}
    (h : sys.script scenes s.world s.clock = some (outs, w', t'))
    (admitted : ∀ scene ∈ scenes, ∀ w, sys.admits scene.time w scene.job)
    (permitted : ∀ out ∈ outs, ∀ e ∈ out.1, ∀ j tr, sys.permits j tr e) :
    ∃ s', C s' ∧ s'.Idle ∧ s'.world = w' ∧ s'.clock = t' ∧
      (∀ i scene out, scenes[i]? = some scene → outs[i]? = some out →
        ∃ since, s'.tasks (n + i) = some ⟨scene.job, .ret out.2, since, out.1.reverse, false⟩) ∧
      (∀ i < n, s'.tasks i = s.tasks i) ∧ ∀ i, n + scenes.length ≤ i → s'.tasks i = none := by
  induction scenes generalizing s n outs with
  | nil =>
    cases h
    exact ⟨s,hr,hi,rfl,rfl,fun i scene out hs => (by simp at hs),fun _ _ => rfl,free⟩
  | cons scene scenes ih =>
    simp only [script] at h
    split at h
    · rename_i later
      obtain ⟨⟨es,r,w₁,t₁⟩,hp,h⟩ := Option.bind_eq_some_iff.mp h
      obtain ⟨⟨outs',w₂,t₂⟩,hs,he⟩ := Option.map_eq_some_iff.mp h
      cases he
      have waited : C { s with clock := scene.time } :=
        closed hr (.pass s scene.time later (fun id task op h hw => absurd ⟨op,hw⟩ (hi id task h)))
      obtain ⟨s₁,hr₁,hi₁,rfl,rfl,mine,others⟩ := (Machine.play_run _ hp).leads closed waited hi (free n (Nat.le_refl n))
        (admitted scene List.mem_cons_self _) (fun tr e hm => permitted (es, r) List.mem_cons_self e hm _ tr)
      have free₁ : ∀ i, n + 1 ≤ i → s₁.tasks i = none := by
        intro i hle
        rw [others i (by omega)]
        exact free i (by omega)
      obtain ⟨s',hr',hi',hw,ht,done,kept,free'⟩ := ih hr₁ hi₁ free₁ hs
        (fun scene hm => admitted scene (List.mem_cons_of_mem _ hm))
        (fun out hm => permitted out (List.mem_cons_of_mem _ hm))
      refine ⟨s',hr',hi',hw,ht,?_,?_,?_⟩
      · intro i x out hx ho
        cases i with
        | zero =>
          cases hx
          cases ho
          exact ⟨_,(kept n (by omega)).trans mine⟩
        | succ i =>
          obtain ⟨since,hd⟩ := done i x out hx ho
          exact ⟨since,by rw [← hd]; congr 1; omega⟩
      · intro i hlt
        rw [kept i (by omega),others i (by omega)]
      · intro i hle
        rw [List.length_cons] at hle
        exact free' i (by omega)
    · cases h

/-- Jobs that run one after another carry on a run of the system. -/
theorem script_reachable {scenes : List (Scene J sys.Choice)} {w₀ : W}
    {s : State S W J R} (hr : Reachable sys w₀ s) (hi : s.Idle) {n : Nat} (free : ∀ i, n ≤ i → s.tasks i = none)
    {outs : List (List (Event S W) × R)} {w' : W} {t' : Nat}
    (h : sys.script scenes s.world s.clock = some (outs, w', t'))
    (admitted : ∀ scene ∈ scenes, ∀ w, sys.admits scene.time w scene.job)
    (permitted : ∀ out ∈ outs, ∀ e ∈ out.1, ∀ j tr, sys.permits j tr e) :
    ∃ s', Reachable sys w₀ s' ∧ s'.Idle ∧ s'.world = w' ∧ s'.clock = t' ∧
      (∀ i scene out, scenes[i]? = some scene → outs[i]? = some out →
        ∃ since, s'.tasks (n + i) = some ⟨scene.job, .ret out.2, since, out.1.reverse, false⟩) ∧
      (∀ i < n, s'.tasks i = s.tasks i) ∧ ∀ i, n + scenes.length ≤ i → s'.tasks i = none :=
  script_leads (fun h step => h.step step) hr hi free h admitted permitted

end System
end PreconfGateway.Interleaving
