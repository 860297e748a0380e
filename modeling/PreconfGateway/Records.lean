import Mathlib.Data.List.Nodup
import PreconfGateway.Interleaving.History
import PreconfGateway.Interleaving.Sequential
import PreconfGateway.Jobs

/-! Where the rows of a reached database come from. -/
namespace PreconfGateway
open Types Db Interleaving
variable {P : Platform} {g : Gateway P} {w₀ : World P} {s : State (requests P) (World P) Job Outcome}

abbrev Trace (P : Platform) := List (Event (requests P) (World P))

/-- Without further demands: every task keeps to its repertoire and the world evolves. -/
theorem Gateway.evolving (g : Gateway P) :
    Verified g.system (g.contract (fun _ => True) (fun _ _ _ => True)) World.Evolves (fun _ _ _ _ _ => True) := by
  refine Gateway.verified ?_ (fun _ _ _ _ _ _ _ => trivial)
  intro j t w _
  exact (Contract.Safe.of_obeys (g.code_obeys j) (fun _ _ _ _ _ => trivial) (fun _ _ _ => trivial)).mono
    (fun _ _ _ _ _ => trivial)

/-- An event that a task remembers was answered by the machine, within its repertoire. -/
theorem reached_event (hr : Reachable g.system w₀ s) {id : Nat} {job : Job}
    {e : Event (requests P) (World P)} (h : s.Saw id job e) :
    g.Asks job e.op.query ∧ g.machine.Answers e.stop e.pre e.op e.reply e.post ∧ e.post.Evolves s.world := by
  obtain ⟨task,ht,rfl,he⟩ := h
  have sound := (g.evolving.sound (fun _ => trivial) hr).tasks id task ht
  obtain ⟨newer,older,_,_,_,answers,_,asks,_⟩ := sound.kept.mem he
  exact ⟨asks,answers,sound.evolved e he⟩

private theorem event_evolves {u : State (requests P) (World P) Job Outcome} (hu : Reachable g.system w₀ u)
    {id : Nat} {job : Job} {e : Event (requests P) (World P)} (h : u.Saw id job e) : e.pre.Evolves e.post :=
  Answers.evolves (reached_event hu h).2.1

section Later
variable {s' : State (requests P) (World P) Job Outcome}

theorem reached_later (hr : Reachable g.system w₀ s) (h : Relation.ReflTransGen (Step g.system) s s') :
    s.world.Evolves s'.world :=
  hr.progress h World.Evolves.refl World.Evolves.trans event_evolves

/-- What a task that had not started yet does, it does in a later world. -/
theorem reached_fresh (hr : Reachable g.system w₀ s) (h : Relation.ReflTransGen (Step g.system) s s')
    {id : Nat} (fresh : s.tasks id = none) {job : Job} {e : Event (requests P) (World P)}
    (hs : s'.Saw id job e) : s.world.Evolves e.pre := by
  refine hr.later h World.Evolves.refl World.Evolves.trans event_evolves hs ?_
  rintro ⟨task,ht,_⟩
  rw [fresh] at ht
  cases ht

end Later

theorem Db.Commitments.hash_injective {c : Commitments} {r s : CommitmentRow} (hr : r ∈ c.rows)
    (hs : s ∈ c.rows) (h : r.requestHash = s.requestHash) : r = s :=
  List.inj_on_of_nodup_map c.hashes hr hs h

theorem Db.Delegations.key_injective {c : Delegations} {r r' : DelegationRow} (hr : r ∈ c.rows) (hr' : r' ∈ c.rows)
    (h : r.key = r'.key) : r = r' := List.inj_on_of_nodup_map c.keys hr hr' h

theorem Db.Commitments.withHash_some {c : Commitments} {hash : String} {r : CommitmentRow}
    (h : c.withHash hash = some r) : r ∈ c.rows ∧ r.requestHash = hash := by
  unfold Commitments.withHash at h
  have same := List.find?_some h
  exact ⟨List.mem_of_find?_eq_some h,of_decide_eq_true same⟩

/-- The lookup by hash finds the row that has it. -/
theorem Db.Commitments.withHash_mem {c : Commitments} {r : CommitmentRow} (hr : r ∈ c.rows) :
    c.withHash r.requestHash = some r := by
  obtain ⟨found,hf⟩ : ∃ found, c.withHash r.requestHash = some found :=
    Option.isSome_iff_exists.mp (List.find?_isSome.mpr ⟨r,hr,by simp⟩)
  obtain ⟨hm,same⟩ := withHash_some hf
  rw [hf,hash_injective hm hr same]

/-- In any system over this world: a stored commitment that was not there at the start was added by one
insert, and only its mark can have changed since. -/
theorem added_once {J R : Type} {sys : System (requests P) (World P) J R} {u : State (requests P) (World P) J R}
    (hr : Reachable sys w₀ u)
    (known : ∀ id job e, u.Saw id job e → Changes e.pre e.op.query e.post ∧ e.post.Evolves u.world)
    {row : CommitmentRow} (hrow : row ∈ u.world.commitments.rows)
    (absent : ∀ r ∈ w₀.commitments.rows, r.requestHash ≠ row.requestHash) :
    ∃ id job e new rowId createdAt, u.Saw id job e ∧ e.op.query = .sql (.insertCommitment new) ∧
      e.post.commitments.rows = e.pre.commitments.rows ++ [new.row rowId createdAt] ∧
        (new.row rowId createdAt).Later row := by
  have fresh : ¬ ∃ r ∈ w₀.commitments.rows, r.requestHash = row.requestHash := by
    rintro ⟨r,hm,he⟩
    exact absent r hm he
  obtain ⟨id,job,e,saw,hpre,r,hm,he⟩ := hr.provenance
    (fun w => ∃ r ∈ w.commitments.rows, r.requestHash = row.requestHash) fresh ⟨row,hrow,rfl⟩
  obtain ⟨changes,evolved⟩ := known id job e saw
  have later {r : CommitmentRow} (hm : r ∈ e.post.commitments.rows) (he : r.requestHash = row.requestHash) :
      r.Later row := by
    obtain ⟨r',hm',hl⟩ := evolved.commitments r hm
    have same : r'.requestHash = row.requestHash := by rw [hl.1]; exact he
    rwa [Commitments.hash_injective hm' hrow same] at hl
  generalize hq : e.op.query = q at changes
  generalize hw : e.post = w' at changes
  cases changes with
  | inserted new rowId createdAt commitments added =>
    rcases insert_kind added with ⟨hn,_⟩ | ⟨_,hrows,_⟩
    · cases hn
    · have hp : e.post.commitments.rows = e.pre.commitments.rows ++ [new.row rowId createdAt] := by
        rw [hw]
        exact hrows
      have hin := hm
      rw [hp] at hin
      rcases List.mem_append.mp hin with hold | hnew
      · exact absurd ⟨r,hold,he⟩ hpre
      · rw [List.mem_singleton.mp hnew] at hm he
        exact ⟨id,job,e,new,rowId,createdAt,saw,hq,hp,later hm he⟩
  | marked hashes =>
    rw [hw] at hm
    obtain ⟨old,ho,rfl⟩ := List.mem_map.mp hm
    exact absurd ⟨old,ho,by simpa using he⟩ hpre
  | same | stored | switchedOff | recorded | counted | taken =>
    rw [hw] at hm
    exact absurd ⟨r,hm,he⟩ hpre

/-- A stored commitment that was not there at the start was added by one insert, and only
its mark can have changed since. -/
theorem reached_added (hr : Reachable g.system w₀ s) {row : CommitmentRow}
    (hrow : row ∈ s.world.commitments.rows)
    (absent : ∀ r ∈ w₀.commitments.rows, r.requestHash ≠ row.requestHash) :
    ∃ id job e new rowId createdAt, s.Saw id job e ∧ e.op.query = .sql (.insertCommitment new) ∧
      e.post.commitments.rows = e.pre.commitments.rows ++ [new.row rowId createdAt] ∧
        (new.row rowId createdAt).Later row := by
  refine added_once hr (fun id job e saw => ?_) hrow absent
  obtain ⟨_,answers,evolved⟩ := reached_event hr saw
  exact ⟨Changes.of_answers answers,evolved⟩

/-- What an insert added is there after it. -/
theorem reached_inserted (hr : Reachable g.system w₀ s) {row : CommitmentRow}
    (hrow : row ∈ s.world.commitments.rows)
    (absent : ∀ r ∈ w₀.commitments.rows, r.requestHash ≠ row.requestHash) :
    ∃ id job e new rowId createdAt, s.Saw id job e ∧ e.op.query = .sql (.insertCommitment new) ∧
      new.row rowId createdAt ∈ e.post.commitments.rows ∧ (new.row rowId createdAt).Later row := by
  obtain ⟨id,job,e,new,rowId,createdAt,saw,hq,added,later⟩ := reached_added hr hrow absent
  refine ⟨id,job,e,new,rowId,createdAt,saw,hq,?_,later⟩
  rw [added]
  exact List.mem_append_right _ List.mem_cons_self

/-- A request was answered like this during a call. -/
def Told (es : Trace P) (q : Query P) (r : q.Reply) : Prop :=
  ∃ (t u : Nat) (w w' : World P), ⟨.plain q, r, t, u, w, w'⟩ ∈ es

section Told
variable {es es' : Trace P} {q : Query P} {r : q.Reply} {t u : Nat} {w w' : World P}

theorem told_nil : ¬ Told ([] : Trace P) q r := by
  rintro ⟨_,_,_,_,h⟩
  cases h

theorem told_here {r' : q.Reply} : Told (⟨.plain q, r', t, u, w, w'⟩ :: es) q r ↔ r' = r ∨ Told es q r := by
  constructor
  · rintro ⟨_,_,_,_,h⟩
    rcases List.mem_cons.mp h with h | h
    · cases h
      exact .inl rfl
    · exact .inr ⟨_,_,_,_,h⟩
  · rintro (rfl | ⟨_,_,_,_,h⟩)
    · exact ⟨_,_,_,_,List.mem_cons_self⟩
    · exact ⟨_,_,_,_,List.mem_cons_of_mem _ h⟩

theorem told_other {q' : Query P} {r' : q'.Reply} (h : q ≠ q') :
    Told (⟨.plain q', r', t, u, w, w'⟩ :: es) q r ↔ Told es q r := by
  constructor
  · rintro ⟨_,_,_,_,hm⟩
    rcases List.mem_cons.mp hm with hm | hm
    · cases hm
      exact absurd rfl h
    · exact ⟨_,_,_,_,hm⟩
  · rintro ⟨_,_,_,_,hm⟩
    exact ⟨_,_,_,_,List.mem_cons_of_mem _ hm⟩

theorem told_never (h : ∀ e ∈ es, e.op.query ≠ q) : ¬ Told es q r := by
  rintro ⟨_,_,_,_,hm⟩
  exact h _ hm rfl

theorem told_before (h : ∀ e ∈ es', e.op.query ≠ q) : Told (es ++ es') q r ↔ Told es q r := by
  constructor
  · rintro ⟨_,_,_,_,hm⟩
    rcases List.mem_append.mp hm with hm | hm
    · exact ⟨_,_,_,_,hm⟩
    · exact absurd rfl (h _ hm)
  · rintro ⟨_,_,_,_,hm⟩
    exact ⟨_,_,_,_,List.mem_append_left _ hm⟩

theorem told_append (es' : Trace P) (h : ∀ e ∈ es, e.op.query ≠ q) : Told (es ++ es') q r ↔ Told es' q r := by
  constructor
  · rintro ⟨_,_,_,_,hm⟩
    rcases List.mem_append.mp hm with hm | hm
    · exact absurd rfl (h _ hm)
    · exact ⟨_,_,_,_,hm⟩
  · rintro ⟨_,_,_,_,hm⟩
    exact ⟨_,_,_,_,List.mem_append_right _ hm⟩

end Told

/-- A run that starts with a request starts with its answer. -/
theorem run_ask {M : Machine (requests P) (World P)} {between : World P → World P → Prop} {α : Type}
    {q : Query P} {f : q.Reply → Async P α} {w w' : World P} {t t' : Nat} {es : Trace P} {a : α}
    (h : Run M between (ask q >>= f) w t es a w' t') :
    ∃ (w₁ : World P) (u : Nat) (r : q.Reply) (w₂ : World P) (rest : Trace P),
      es = ⟨.plain q, r, t, u, w₁, w₂⟩ :: rest ∧ between w w₁ ∧ t ≤ u ∧ M.InTime t (.plain q) u ∧
        M.Answers u w₁ (.plain q) r w₂ ∧ Run M between (f r) w₂ u rest a w' t' := by
  cases h with
  | call other later inTime answers rest => exact ⟨_,_,_,_,_,rfl,other,later,inTime,answers,rest⟩

theorem run_evolving {M : Machine (requests P) (World P)} {α : Type} {p : Async P α} {w w' : World P} {t t' : Nat}
    {es : Trace P} {a : α} (h : Run M Eq p w t es a w' t') : Run M World.Evolves p w t es a w' t' := by
  refine h.mono ?_
  rintro w _ rfl
  exact World.Evolves.refl w

section Ask
variable {limits : Limits} {relay : ConstraintsApiConfig} {α : Type} {q : Query P} {f : q.Reply → Async P α}
  {r : q.Reply} {w v w' : World P} {t t' : Nat} {a : α}

/-- A request that is answered at once. -/
theorem ask_step {es : Trace P} (answers : (world P limits relay).Answers t w (.plain q) r v)
    (rest : Run (world P limits relay) Eq (f r) v t es a w' t') :
    Run (world P limits relay) Eq (ask q >>= f) w t (⟨.plain q, r, t, t, w, v⟩ :: es) a w' t' := by
  have inTime : (world P limits relay).InTime t (.plain q) t := by
    intro b hb
    cases hb
    exact Nat.le_add_right _ _
  exact (Run.call rfl (Nat.le_refl t) inTime answers (.ret r v t)).bind rest

theorem ask_run (answers : (world P limits relay).Answers t w (.plain q) r v)
    (rest : ∃ es, Run (world P limits relay) Eq (f r) v t es a w' t') :
    ∃ es, Run (world P limits relay) Eq (ask q >>= f) w t es a w' t' := by
  obtain ⟨es,rest⟩ := rest
  exact ⟨_,ask_step answers rest⟩

end Ask

end PreconfGateway
