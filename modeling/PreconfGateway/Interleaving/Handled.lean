import PreconfGateway.Interleaving.Program

/-! Programs on their own against a handler, which answers each request at once from a state it keeps. -/
namespace PreconfGateway.Interleaving
variable {S : Signature} {σ α β : Type}

/-- The answer to a request, and the state after it. -/
abbrev Handler (S : Signature) (σ : Type) := σ → (op : S.Op) → S.Reply op × σ

namespace Program

/-- The requests in order, the result, and the last state. -/
def handled (h : Handler S σ) : Program S α → σ → List S.Op × α × σ
  | .ret a, s => ([], a, s)
  | .call op k, s =>
    let (reply, s') := h s op
    let (ops, rest) := (k reply).handled h s'
    (op :: ops, rest)

variable (h : Handler S σ) (s : σ)

@[simp] theorem handled_pure (a : α) : (pure a : Program S α).handled h s = ([], a, s) := rfl

@[simp] theorem handled_request (op : S.Op) (f : S.Reply op → Program S β) : (request op >>= f).handled h s =
    (op :: ((f (h s op).1).handled h (h s op).2).1, ((f (h s op).1).handled h (h s op).2).2) := rfl

/-- One program after another: the second starts where the first has left the handler. -/
theorem handled_bind (p : Program S α) (f : α → Program S β) : (p >>= f).handled h s =
    ((p.handled h s).1 ++ ((f (p.handled h s).2.1).handled h (p.handled h s).2.2).1,
      ((f (p.handled h s).2.1).handled h (p.handled h s).2.2).2) := by
  induction p generalizing s with
  | ret a => rfl
  | call op k ih =>
    rw [call_bind]
    simp only [handled]
    rw [ih]
    rfl

/-- What a program obeys whatever the answers, it obeys when it is handled. -/
theorem Obeys.handled {ok : S.Op → Prop} {post : α → Prop} {p : Program S α} (obeys : p.Obeys ok post) :
    (∀ op ∈ (p.handled h s).1, ok op) ∧ post (p.handled h s).2.1 := by
  induction p generalizing s with
  | ret a => exact ⟨nofun,obeys⟩
  | call op k ih =>
    obtain ⟨others,result⟩ := ih (h s op).1 (h s op).2 (obeys.2 _)
    exact ⟨List.forall_mem_cons.mpr ⟨obeys.1,others⟩,result⟩

end Program
end PreconfGateway.Interleaving
