import Mathlib.Logic.Basic
import Mathlib.Tactic.Common

/-! Programs that make atomic requests of their surroundings and branch on the
answers. Everything between two requests is one uninterrupted computation. -/
namespace PreconfGateway.Interleaving

/-- A repertoire of requests, each with the type of its answers. -/
structure Signature where
  Op : Type
  Reply : Op → Type

/-- A program has a result, or waits for the answer to one request. -/
inductive Program (S : Signature) (α : Type) where
  | ret : α → Program S α
  | call : (op : S.Op) → (S.Reply op → Program S α) → Program S α

namespace Program
variable {S : Signature} {α β γ : Type}

def bind : Program S α → (α → Program S β) → Program S β
  | .ret a, f => f a
  | .call op k, f => .call op (fun r => (k r).bind f)

def request (op : S.Op) : Program S (S.Reply op) := .call op .ret

instance : Monad (Program S) where
  pure := .ret
  bind := .bind

@[simp] theorem pure_eq_ret (a : α) : (pure a : Program S α) = .ret a := rfl

@[simp] theorem ret_bind (a : α) (f : α → Program S β) : (Program.ret a >>= f) = f a := rfl

@[simp] theorem call_bind (op : S.Op) (k : S.Reply op → Program S α) (f : α → Program S β) :
    (Program.call op k >>= f) = .call op (fun r => k r >>= f) := rfl

@[simp] theorem request_bind (op : S.Op) (f : S.Reply op → Program S β) :
    (request op >>= f) = .call op f := rfl

theorem bind_ret (p : Program S α) : (p >>= Program.ret) = p := by
  induction p with
  | ret a => rfl
  | call op k ih => simp only [call_bind,ih]

theorem bind_bind (p : Program S α) (f : α → Program S β) (g : β → Program S γ) :
    ((p >>= f) >>= g) = (p >>= fun a => f a >>= g) := by
  induction p with
  | ret a => rfl
  | call op k ih => simp only [call_bind,ih]

instance : LawfulMonad (Program S) :=
  LawfulMonad.mk' (Program S) (fun p => bind_ret p) (fun _ _ => rfl) bind_bind

/-- Whatever the answers, a program makes only such requests and has only such results. -/
def Obeys (ok : S.Op → Prop) (post : α → Prop) : Program S α → Prop
  | .ret a => post a
  | .call op k => ok op ∧ ∀ r, (k r).Obeys ok post

section Obeys
variable {ok ok' : S.Op → Prop} {post : α → Prop} {post' : β → Prop}

theorem Obeys.bind {p : Program S α} {f : α → Program S β} (hp : p.Obeys ok post)
    (hf : ∀ a, post a → (f a).Obeys ok post') : (p >>= f).Obeys ok post' := by
  induction p with
  | ret a => exact hf a hp
  | call op k ih => exact ⟨hp.1,fun r => ih r (hp.2 r)⟩

theorem Obeys.mono {post' : α → Prop} {p : Program S α} (hp : p.Obeys ok post)
    (hok : ∀ op, ok op → ok' op) (hpost : ∀ a, post a → post' a) : p.Obeys ok' post' := by
  induction p with
  | ret a => exact hpost a hp
  | call op k ih => exact ⟨hok op hp.1,fun r => ih r (hp.2 r)⟩

theorem obeys_true (p : Program S α) : p.Obeys (fun _ => True) (fun _ => True) := by
  induction p with
  | ret a => exact trivial
  | call op k ih => exact ⟨trivial,ih⟩

end Obeys

/-- The requests a program is still waiting for: one, or none after its result. -/
def pending : Program S α → Option S.Op
  | .ret _ => none
  | .call op _ => some op

end Program
end PreconfGateway.Interleaving
