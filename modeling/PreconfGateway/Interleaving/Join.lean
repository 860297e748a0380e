import PreconfGateway.Interleaving.Sequential

/-! Programs that run side by side in one task, which goes on when all of them are done. -/
namespace PreconfGateway.Interleaving
variable {S : Signature} {W α β : Type}

/-- A program with the time of the request it waits for. -/
structure Thread (S : Signature) (α : Type) where
  program : Program S α
  since : Nat

/-- Programs that are started together, and what is made of their results. -/
structure Fork (S : Signature) (α β : Type) where
  parts : List (Program S α)
  collect : List α → β

def Fork.threads (fork : Fork S α β) (t : Nat) : List (Thread S α) := fork.parts.map (fun p => ⟨p, t⟩)

/-- One answer after another, each to any of the programs; between says what others do to the
world before an answer at a time. The results stand in the order of the programs. -/
inductive Joined (M : Machine S W) (between : Nat → W → W → Prop) : List (Thread S α) → W → Nat → List α → W → Nat → Prop
  | done {threads : List (Thread S α)} {as : List α} (w : W) (t : Nat)
      (ended : threads.map Thread.program = as.map Program.ret) : Joined M between threads w t as w t
  | answer {threads : List (Thread S α)} {i : Nat} {op : S.Op} {k : S.Reply op → Program S α} {since : Nat}
      {w w₁ w₂ w' : W} {t u t' : Nat} {r : S.Reply op} {as : List α} (waits : threads[i]? = some ⟨.call op k, since⟩)
      (other : between u w w₁) (later : t ≤ u) (inTime : M.InTime since op u) (answers : M.Answers u w₁ op r w₂)
      (rest : Joined M between (threads.set i ⟨k r, u⟩) w₂ u as w' t') : Joined M between threads w t as w' t'

namespace Contract
variable {C : Contract S W} {M : Machine S W} {Q : List (Event S W) → α → W → Nat → Prop} {w w' : W} {t t' : Nat}

/-- A program that waits for an answer and is safe, or whose result was good when it came. -/
inductive Going (C : Contract S W) (M : Machine S W) (Q : List (Event S W) → α → W → Nat → Prop) (w : W) (t : Nat) :
    Thread S α → Prop
  | done {a : α} {since u : Nat} {tr : List (Event S W)} {v : W} (good : Q tr a v u) (rely : C.rely v w) (past : u ≤ t) :
      Going C M Q w t ⟨.ret a, since⟩
  | waits {op : S.Op} {k : S.Reply op → Program S α} {since : Nat} {tr : List (Event S W)}
      (safe : C.Safe M Q (.call op k) tr w since) (past : since ≤ t) : Going C M Q w t ⟨.call op k, since⟩

theorem Safe.going {p : Program S α} {tr : List (Event S W)} (h : C.Safe M Q p tr w t) : Going C M Q w t ⟨p, t⟩ := by
  cases p with
  | ret a => exact .done h (C.rely_refl w) (Nat.le_refl t)
  | call op k => exact .waits h (Nat.le_refl t)

theorem Going.later {thread : Thread S α} (h : Going C M Q w t thread) (rely : C.rely w w') (later : t ≤ t') :
    Going C M Q w' t' thread := by
  cases h with
  | done good before past => exact .done good (C.rely_trans before rely) (Nat.le_trans past later)
  | waits safe past => exact .waits (safe.rely rely) (Nat.le_trans past later)

/-- Safe programs side by side: each has the good results that it has alone, if the others and what
happens in between keep to what it relies on. -/
theorem joined {between : Nat → W → W → Prop} {Q : Nat → List (Event S W) → α → W → Nat → Prop}
    (other : ∀ u w w', C.inv w → between u w w' → C.inv w' ∧ C.rely w w' ∧
      ∀ tr op r start w₂, C.permits tr ⟨op, r, start, u, w', w₂⟩)
    (step : ∀ tr e, C.inv e.pre → M.Answers e.stop e.pre e.op e.reply e.post → C.guarantee tr e →
      C.inv e.post ∧ C.rely e.pre e.post)
    {threads : List (Thread S α)} {as : List α} (h : Joined M between threads w t as w' t') (inv : C.inv w)
    (going : ∀ i thread, threads[i]? = some thread → Going C M (Q i) w t thread) :
    C.inv w' ∧ C.rely w w' ∧ t ≤ t' ∧ as.length = threads.length ∧
      ∀ i a, as[i]? = some a → ∃ tr v u, Q i tr a v u ∧ C.rely v w' ∧ u ≤ t' := by
  induction h with
  | done w t ended =>
    refine ⟨inv,C.rely_refl w,Nat.le_refl t,?_,?_⟩
    · simpa using congrArg List.length ended.symm
    · intro i a found
      have program := congrArg (fun ps : List (Program S _) => ps[i]?) ended
      simp only [List.getElem?_map,found,Option.map_some] at program
      obtain ⟨thread,listed,result⟩ := Option.map_eq_some_iff.mp program
      have good := going i thread listed
      cases good with
      | done good rely past =>
        cases result
        exact ⟨_,_,_,good,rely,past⟩
      | waits => cases result
  | @answer threads i op k since w w₁ w₂ w' t u t' r as waits before later inTime answers rest ih =>
    obtain ⟨inv₁,rely₁,permits⟩ := other _ _ _ inv before
    have mine := going i _ waits
    cases mine with
    | waits safe past =>
      obtain ⟨guarantee,next⟩ := safe.2 w₁ u r w₂ inv₁ rely₁ (Nat.le_trans past later) inTime answers (permits _ _ _ _ _)
      obtain ⟨inv₂,rely₂⟩ := step _ ⟨op, r, since, u, w₁, w₂⟩ inv₁ answers guarantee
      have moved := C.rely_trans rely₁ rely₂
      obtain ⟨inv',rely',later',length,good⟩ := ih inv₂ (by
        intro j thread found
        by_cases same : j = i
        · subst same
          have bound : j < threads.length := (List.getElem?_eq_some_iff.mp waits).1
          rw [List.getElem?_set_self bound] at found
          cases found
          exact next.going
        · rw [List.getElem?_set_ne (Ne.symm same)] at found
          exact (going j thread found).later moved later)
      exact ⟨inv',C.rely_trans moved rely',Nat.le_trans later later',by rw [length,List.length_set],good⟩

end Contract
namespace Machine
variable (M : Machine S W)

/-- The results, once every program has ended. -/
def results : List (Thread S α) → Option (List α)
  | [] => some []
  | ⟨.ret a, _⟩ :: threads => (results threads).map (fun as => a :: as)
  | ⟨.call _ _, _⟩ :: _ => none

theorem results_ended {threads : List (Thread S α)} {as : List α} (h : results threads = some as) :
    threads.map Thread.program = as.map Program.ret := by
  induction threads generalizing as with
  | nil =>
    cases h
    rfl
  | cons thread threads ih =>
    obtain ⟨program,since⟩ := thread
    cases program with
    | ret a =>
      obtain ⟨rest,ended,he⟩ := Option.map_eq_some_iff.mp h
      cases he
      rw [List.map_cons,List.map_cons,ih ended]
    | call op k => cases h

/-- Take turns with the given choices and answer times; a turn names the program that gets its answer. -/
def interleave : List (Nat × M.Choice × Nat) → List (Thread S α) → W → Nat → Option (List α × W × Nat)
  | [], threads, w, t => (results threads).map (fun as => (as, w, t))
  | (i, c, u) :: turns, threads, w, t =>
    match threads[i]? with
    | some ⟨.call op k, since⟩ =>
      if t ≤ u ∧ (M.latest since op).all (fun b => decide (u ≤ b)) then
        match M.respond u w op c with
        | some (r, w') => interleave turns (threads.set i ⟨k r, u⟩) w' u
        | none => none
      else none
    | _ => none

/-- Programs that take turns with nobody else around. -/
theorem interleave_joined {between : Nat → W → W → Prop} {calm : W → Nat → Prop}
    (quiet : ∀ w t u, calm w t → t ≤ u → between u w w)
    (kept : ∀ w t u op r w', calm w t → t ≤ u → M.Answers u w op r w' → calm w' u)
    {turns : List (Nat × M.Choice × Nat)} {threads : List (Thread S α)} {w w' : W} {t t' : Nat} {as : List α}
    (h : M.interleave turns threads w t = some (as, w', t')) (hc : calm w t) : Joined M between threads w t as w' t' := by
  induction turns generalizing threads w t with
  | nil =>
    obtain ⟨_,ended,he⟩ := Option.map_eq_some_iff.mp h
    cases he
    exact .done _ _ (results_ended ended)
  | cons turn turns ih =>
    obtain ⟨i,c,u⟩ := turn
    simp only [interleave] at h
    split at h
    · rename_i op k since waits
      split at h
      · rename_i hu
        split at h
        · rename_i r w₂ hr
          refine .answer waits (quiet _ _ u hc hu.1) hu.1 ?_ ⟨c,hr⟩ (ih h (kept _ _ _ _ _ _ hc hu.1 ⟨c,hr⟩))
          intro b hb
          have hall := hu.2
          rw [hb] at hall
          exact of_decide_eq_true hall
        · cases h
      · cases h
    · cases h

end Machine

end PreconfGateway.Interleaving
