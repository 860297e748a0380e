import PreconfGateway.Interleaving.Expansion

/-! Programs that make no more than so many requests of a kind, and their tasks. -/
namespace PreconfGateway.Interleaving
variable {S : Signature} {W J R α β : Type}

namespace Program

/-- Whatever the answers, at most so many of the requests are marked. -/
def AtMost (marked : S.Op → Bool) : Program S α → Nat → Prop
  | .ret _, _ => True
  | .call op k, n => (marked op).toNat ≤ n ∧ ∀ r, (k r).AtMost marked (n - (marked op).toNat)

variable {marked : S.Op → Bool}

theorem AtMost.mono {p : Program S α} {m n : Nat} (h : p.AtMost marked m) (le : m ≤ n) : p.AtMost marked n := by
  induction p generalizing m n with
  | ret a => exact trivial
  | call op k ih => exact ⟨Nat.le_trans h.1 le,fun r => ih r (h.2 r) (Nat.sub_le_sub_right le _)⟩

theorem AtMost.bind {p : Program S α} {f : α → Program S β} {m n : Nat} (h : p.AtMost marked m)
    (hf : ∀ a, (f a).AtMost marked n) : (p >>= f).AtMost marked (m + n) := by
  induction p generalizing m with
  | ret a => exact (hf a).mono (Nat.le_add_left n m)
  | call op k ih =>
    refine ⟨Nat.le_trans h.1 (Nat.le_add_right m n),fun r => ?_⟩
    have rest := ih r (h.2 r)
    rwa [← Nat.sub_add_comm h.1] at rest

/-- A program that makes no marked request. -/
theorem Obeys.atMost {post : α → Prop} {p : Program S α} (h : p.Obeys (fun op => marked op = false) post) :
    p.AtMost marked 0 := by
  induction p with
  | ret a => exact trivial
  | call op k ih =>
    refine ⟨by rw [h.1]; exact Nat.le_refl 0,fun r => ?_⟩
    rw [h.1]
    exact ih r (h.2 r)

/-- A marked request is carried out with as many marked ones, any other with none. -/
theorem AtMost.expand {T : Signature} {marked' : T.Op → Bool} {f : Implementation S T} {p : Program S α} {n : Nat}
    (h : p.AtMost marked n) (hf : ∀ op, (f op).AtMost marked' (marked op).toNat) : (p.expand f).AtMost marked' n := by
  induction p generalizing n with
  | ret a => exact trivial
  | call op k ih =>
    have both := (hf op).bind fun r => ih r (h.2 r)
    rwa [Nat.add_sub_cancel' h.1] at both

end Program

variable {sys : System S W J R} {w₀ : W} {s : State S W J R} {marked : S.Op → Bool} {n : Nat}

/-- What a task has asked for and may still ask for is within its bound. -/
def Task.Counted (task : Task S W J R) (marked : S.Op → Bool) (n : Nat) : Prop :=
  ∃ m, task.program.AtMost marked m ∧ task.trace.countP (fun e => marked e.op) + m ≤ n

theorem Reachable.counted (code : ∀ job, (sys.code job).AtMost marked n) (hr : Reachable sys w₀ s) {id : Nat}
    {task : Task S W J R} (ht : s.tasks id = some task) : task.Counted marked n := by
  induction hr generalizing id task with
  | initial t => cases ht
  | @step s s' _ h ih =>
    have put {i : Nat} {next : Task S W J R} {u : State S W J R} (ht : (u.put i next).tasks id = some task)
        (same : u.tasks = s.tasks) (new : next.Counted marked n) : task.Counted marked n := by
      by_cases hi : id = i
      · subst hi
        rw [State.put_same] at ht
        cases ht
        exact new
      · rw [State.put_other _ _ hi,same] at ht
        exact ih ht
    cases h with
    | start i job => exact put ht rfl ⟨n,code job,by simp⟩
    | answer i old op next reply w known _ waits =>
      obtain ⟨m,most,within_⟩ := ih known
      rw [waits] at most
      refine put ht rfl ⟨m - (marked op).toNat,most.2 reply,?_⟩
      have spent := most.1
      change List.countP (fun e : Event S W => marked e.op) (⟨op, reply, old.since, _, _, w⟩ :: old.trace) + _ ≤ n
      rw [List.countP_cons]
      cases hm : marked op with
      | false =>
        rw [hm] at spent
        simpa [hm] using within_
      | true =>
        rw [hm] at spent
        have one : 1 ≤ m := spent
        simp only [if_true,Bool.toNat_true]
        omega
    | pass => exact ih ht
    | drop i old op known =>
      obtain ⟨m,most,within_⟩ := ih known
      exact put ht rfl ⟨m,most,within_⟩

end PreconfGateway.Interleaving
