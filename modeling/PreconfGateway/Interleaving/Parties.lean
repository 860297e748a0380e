import PreconfGateway.Interleaving.Punctual
import PreconfGateway.Interleaving.Refinement

/-! Two parties side by side: each has its own requests and its own part of the world. -/
namespace PreconfGateway.Interleaving
variable {S T : Signature} {V W α β : Type}

@[reducible] def Signature.sum (S T : Signature) : Signature := ⟨S.Op ⊕ T.Op, Sum.elim S.Reply T.Reply⟩

/-- A request leaves the part of the other party as it is. -/
def Machine.sum (M : Machine S W) (N : Machine T V) : Machine (S.sum T) (W × V) where
  Choice := M.Choice ⊕ N.Choice
  respond t w
    | .inl op, .inl c => (M.respond t w.1 op c).map (fun (r, w') => (r, w', w.2))
    | .inr op, .inr c => (N.respond t w.2 op c).map (fun (r, v') => (r, w.1, v'))
    | _, _ => none
  latest since
    | .inl op => M.latest since op
    | .inr op => N.latest since op

section Answers
variable {M : Machine S W} {N : Machine T V} {t : Nat} {w w' : W × V}

theorem Machine.sum_left {op : S.Op} {r : S.Reply op} :
    (M.sum N).Answers t w (.inl op) r w' ↔ M.Answers t w.1 op r w'.1 ∧ w'.2 = w.2 := by
  constructor
  · rintro ⟨c,h⟩
    cases c with
    | inl c =>
      obtain ⟨⟨r',v⟩,hr,he⟩ := Option.map_eq_some_iff.mp h
      cases he
      exact ⟨⟨c,hr⟩,rfl⟩
    | inr c => cases h
  · rintro ⟨⟨c,h⟩,same⟩
    refine ⟨.inl c,Option.map_eq_some_iff.mpr ⟨_,h,?_⟩⟩
    rw [← same]

theorem Machine.sum_right {op : T.Op} {r : T.Reply op} :
    (M.sum N).Answers t w (.inr op) r w' ↔ N.Answers t w.2 op r w'.2 ∧ w'.1 = w.1 := by
  constructor
  · rintro ⟨c,h⟩
    cases c with
    | inl c => cases h
    | inr c =>
      obtain ⟨⟨r',v⟩,hr,he⟩ := Option.map_eq_some_iff.mp h
      cases he
      exact ⟨⟨c,hr⟩,rfl⟩
  · rintro ⟨⟨c,h⟩,same⟩
    refine ⟨.inr c,Option.map_eq_some_iff.mpr ⟨_,h,?_⟩⟩
    rw [← same]

end Answers

namespace Program

def right (p : Program T α) : Program (S.sum T) α :=
  p.expand (fun op => request (S := S.sum T) (.inr op))

/-- A program that keeps its times ends no earlier than it starts. -/
theorem Timely.le {N : Machine T V} {due : T.Op → Nat → Prop} (prompt : ∀ op t, N.InTime t op t)
    (answered : ∀ op, Nonempty (T.Reply op)) {last t : Nat} {p : Program T α} (h : p.Timely N due last t) : t ≤ last := by
  induction p generalizing t with
  | ret a => exact h
  | call op k ih =>
    obtain ⟨_,next,bound,rest⟩ := h
    obtain ⟨r⟩ := answered op
    exact Nat.le_trans (bound t t (Nat.le_refl t) (prompt op t)) (ih r (rest r))

end Program

/-- The second party may carry out a request of the first that leaves the first's world alone and
that may have any answer until the second party is done. -/
theorem Carries.right {M : Machine S W} {N : Machine T V} {due : T.Op → Nat → Prop} {op : S.Op} {start last t : Nat}
    (prompt : ∀ op t, N.InTime t op t) (answered : ∀ op, Nonempty (T.Reply op)) {p : Program T α}
    (timely : p.Timely N due last t) (inTime : ∀ u ≤ last, M.InTime start op u)
    {g : α → S.Reply op} (free : ∀ w u a, M.Answers u w op (g a) w) :
    Carries (M.sum N) M Prod.fst op start (p.right >>= fun a => .ret (g a)) t := by
  induction p generalizing t with
  | ret a => exact ⟨inTime t timely,fun w => free w.1 t a⟩
  | call o k ih =>
    obtain ⟨_,next,bound,rest⟩ := timely
    obtain ⟨r₀⟩ := answered o
    have within {u : Nat} (h : N.InTime t o u) : u ≤ last :=
      Nat.le_trans (bound t u (Nat.le_refl t) h) ((rest r₀).le prompt answered)
    refine ⟨fun u h => inTime u (within h),fun w u r w' later h answers => ?_⟩
    obtain ⟨_,same⟩ := Machine.sum_right.mp answers
    exact .inr ⟨same,ih r ((rest r).mono (bound t u (Nat.le_refl t) h) (Nat.le_refl last))⟩

def Event.right? : Event (S.sum T) (W × V) → Option (Event T V)
  | ⟨.inl _, _, _, _, _, _⟩ => none
  | ⟨.inr op, r, start, stop, pre, post⟩ => some ⟨op, r, start, stop, pre.2, post.2⟩

namespace Contract
variable (C : Contract T V)

/-- A contract with the second party, whatever the first one does. -/
def right : Contract (S.sum T) (W × V) where
  inv w := C.inv w.2
  rely a b := C.rely a.2 b.2
  permits tr e := ∀ d, e.right? = some d → C.permits (tr.filterMap Event.right?) d
  starts tr op w t := ∀ o, op = .inr o → C.starts (tr.filterMap Event.right?) o w.2 t
  guarantee tr e := ∀ d, e.right? = some d → C.guarantee (tr.filterMap Event.right?) d
  rely_refl w := C.rely_refl w.2
  rely_trans := C.rely_trans
  starts_rely h hr o ho := C.starts_rely (h o ho) hr

variable {C} {M : Machine S W} {N : Machine T V}

theorem Safe.right {Q : List (Event T V) → α → V → Nat → Prop} {p : Program T α} {tr : List (Event (S.sum T) (W × V))}
    {w : W × V} {t : Nat} (h : C.Safe N Q p (tr.filterMap Event.right?) w.2 t) :
    C.right.Safe (M.sum N) (fun tr a w t => Q (tr.filterMap Event.right?) a w.2 t) p.right tr w t := by
  induction p generalizing tr w t with
  | ret a => exact h
  | call op k ih =>
    obtain ⟨starts,answered⟩ := h
    refine ⟨fun o ho => by cases ho; exact starts,?_⟩
    intro w₁ u r w₂ inv rely later inTime answers permits
    obtain ⟨own,_⟩ := Machine.sum_right.mp answers
    obtain ⟨guarantee,rest⟩ := answered w₁.2 u r w₂.2 inv rely later inTime own (permits _ rfl)
    exact ⟨fun d hd => by cases hd; exact guarantee,ih r rest⟩

end Contract

/-- What the second party keeps to on its own, every task keeps to in a system of both. -/
theorem Verified.of_right {J R : Type} {M : Machine S W} {N : Machine T V} {C : Contract T V}
    {sys : System (S.sum T) (W × V) J R} (machine : sys.toMachine = M.sum N)
    (permits : ∀ j tr e, sys.permits j tr e → ∀ d, e.right? = some d → C.permits (tr.filterMap Event.right?) d)
    (code : ∀ j w t, C.right.Safe (M.sum N) (fun _ _ _ _ => True) (sys.code j) [] w t)
    (step : ∀ tr e, C.inv e.pre → N.Answers e.stop e.pre e.op e.reply e.post → C.guarantee tr e →
      C.inv e.post ∧ C.rely e.pre e.post) :
    Verified sys (fun _ => C.right) (fun a b => C.rely a.2 b.2) (fun _ _ _ _ _ => True) where
  refl w := C.rely_refl w.2
  trans := C.rely_trans
  permits := permits
  start j t w _ _ := by
    rw [machine]
    exact code j w t
  step j tr e inv answers _ guarantee := by
    rw [machine] at answers
    obtain ⟨op,r,start,stop,pre,post⟩ := e
    have moved : C.inv post.2 ∧ C.rely pre.2 post.2 := by
      cases op with
      | inl op =>
        rw [(Machine.sum_left.mp answers).2]
        exact ⟨inv j,C.rely_refl _⟩
      | inr op => exact step _ ⟨op, r, start, stop, pre.2, post.2⟩ (inv j) (Machine.sum_right.mp answers).1 (guarantee _ rfl)
    exact ⟨fun _ => moved.1,moved.2,fun _ _ => moved.2⟩

end PreconfGateway.Interleaving
