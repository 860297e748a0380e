import PreconfGateway.Interleaving.Sequential

/-! Requests that are carried out by programs over finer requests. -/
namespace PreconfGateway.Interleaving
variable {S T : Signature} {V α β : Type}

/-- How each request is carried out. -/
abbrev Implementation (S T : Signature) := (op : S.Op) → Program T (S.Reply op)

namespace Program
variable (f : Implementation S T)

/-- Every request gives way to the program that carries it out. -/
def expand : Program S α → Program T α
  | .ret a => .ret a
  | .call op k => f op >>= fun r => (k r).expand

@[simp] theorem expand_ret (a : α) : (Program.ret a).expand f = .ret a := rfl

@[simp] theorem expand_call (op : S.Op) (k : S.Reply op → Program S α) :
    (Program.call op k).expand f = f op >>= fun r => (k r).expand f := rfl

theorem expand_bind (p : Program S α) (g : α → Program S β) :
    (p >>= g).expand f = p.expand f >>= fun a => (g a).expand f := by
  induction p with
  | ret a => rfl
  | call op k ih => simp only [call_bind,expand_call,ih,bind_bind]

variable {f}

/-- What the programs for the requests keep to, and the result that the requests lead to. -/
theorem Obeys.expand {ok : S.Op → Prop} {ok' : T.Op → Prop} {post : α → Prop} {p : Program S α}
    (hp : p.Obeys ok post) (hf : ∀ op, ok op → (f op).Obeys ok' (fun _ => True)) : (p.expand f).Obeys ok' post := by
  induction p with
  | ret a => exact hp
  | call op k ih => exact (hf op hp.1).bind fun r _ => ih r (hp.2 r)

end Program

/-- A program is safe if the programs are that carry out its requests. -/
theorem Contract.Safe.expand {C : Contract T V} {M : Machine T V} {f : Implementation S T} {ok : S.Op → Prop}
    {post : α → Prop} {p : Program S α} (hp : p.Obeys ok post)
    (hf : ∀ op, ok op → ∀ tr w t, C.Safe M (fun _ _ _ _ => True) (f op) tr w t) {tr : List (Event T V)} {w : V} {t : Nat} :
    C.Safe M (fun _ a _ _ => post a) (p.expand f) tr w t := by
  induction p generalizing tr w t with
  | ret a => exact hp
  | call op k ih => exact (hf op hp.1 tr w t).bind fun _ r _ _ _ => ih r (hp.2 r)

/-- A program that, after this past, makes only requests that are good is safe. -/
theorem Contract.Safe.obeys_after {C : Contract T V} {M : Machine T V} {ok : T.Op → Prop} {post : α → Prop}
    {p : Program T α} {tr : List (Event T V)} (hp : p.Obeys ok post) (hs : ∀ tr op w t, ok op → C.starts tr op w t)
    (hg : ∀ newer e, ok e.op → C.guarantee (newer ++ tr) e) {w : V} {t : Nat} :
    C.Safe M (fun tr' a _ _ => post a ∧ ∃ newer, tr' = newer ++ tr) p tr w t := by
  have from_here (newer : List (Event T V)) {w : V} {t : Nat} :
      C.Safe M (fun tr' a _ _ => post a ∧ ∃ newer, tr' = newer ++ tr) p (newer ++ tr) w t := by
    induction p generalizing newer w t with
    | ret a => exact ⟨hp,newer,rfl⟩
    | call op k ih =>
      refine Safe.call (hs _ _ _ _ hp.1) ?_
      intro w₁ u r w₂ _ _ _ _ _ _
      exact ⟨hg newer _ hp.1,ih r (hp.2 r) (⟨op, r, t, u, w₁, w₂⟩ :: newer)⟩
  exact from_here []

/-- What a safe program has established when a run of it ends, among others that keep to its contract. -/
theorem Contract.Safe.established {C : Contract T V} {M : Machine T V} {between : V → V → Prop}
    {Q : List (Event T V) → α → V → Nat → Prop} {p : Program T α} {tr es : List (Event T V)} {w w' : V} {t t' : Nat} {a : α}
    (h : C.Safe M Q p tr w t) (hr : Run M between p w t es a w' t')
    (hb : ∀ w w', between w w' → C.inv w' ∧ C.rely w w') (hp : ∀ tr, ∀ e ∈ es, C.permits tr e) :
    Q (es.reverse ++ tr) a w' t' := by
  induction hr generalizing tr with
  | ret => exact h
  | call other later inTime answers rest ih =>
    obtain ⟨inv,rely⟩ := hb _ _ other
    obtain ⟨_,safe⟩ := h.2 _ _ _ _ inv rely later inTime answers (hp tr _ List.mem_cons_self)
    have next := ih safe (fun tr e he => hp tr e (List.mem_cons_of_mem _ he))
    simpa only [List.reverse_cons,List.append_assoc,List.singleton_append] using next

/-- A run of a program up to some point; its events are listed newest first. -/
inductive Path (M : Machine T V) (between : V → V → Prop) (p : Program T α) (w : V) (t : Nat) :
    List (Event T V) → Program T α → V → Nat → Prop
  | start : Path M between p w t [] p w t
  | step {tr : List (Event T V)} {op : T.Op} {k : T.Reply op → Program T α} {u x : Nat} {v v₁ v₂ : V} {r : T.Reply op}
      (before : Path M between p w t tr (.call op k) v u) (other : between v v₁) (later : u ≤ x)
      (inTime : M.InTime u op x) (answers : M.Answers x v₁ op r v₂) :
      Path M between p w t (⟨op, r, u, x, v₁, v₂⟩ :: tr) (k r) v₂ x

/-- A path that goes on to a result is a run. -/
theorem Path.run {M : Machine T V} {between : V → V → Prop} {p q : Program T α} {tr es : List (Event T V)} {a : α}
    {w v w' : V} {t u t' : Nat} (h : Path M between p w t tr q v u) (rest : Run M between q v u es a w' t') :
    Run M between p w t (tr.reverse ++ es) a w' t' := by
  induction h generalizing es with
  | start => exact rest
  | step _ other later inTime answers ih =>
    rw [List.reverse_cons,List.append_assoc]
    exact ih (.call other later inTime answers rest)

end PreconfGateway.Interleaving
