import PreconfGateway.Interleaving.History

/-! Jobs of which only one is in flight at a time: a condition that each of them may give up in
between holds again whenever none of them is running. -/
namespace PreconfGateway.Interleaving
variable {S : Signature} {W J R : Type} {sys : System S W J R} {w₀ : W} {s : State S W J R}

/-- No job of the class is in flight. -/
def State.Free (s : State S W J R) (alone : J → Prop) : Prop :=
  ∀ id task, s.tasks id = some task → alone task.job → ¬ task.Running

theorem State.Free.put {alone : J → Prop} {id : Nat} {task : Task S W J R} (h : (s.put id task).Free alone)
    (was : ∀ old, s.tasks id = some old → alone old.job → ¬ old.Running) : s.Free alone := by
  intro other old ho
  by_cases hid : other = id
  · subst hid
    exact was old ho
  · exact h other old (by rw [State.put_other _ _ hid]; exact ho)

section Rule
variable {alone : J → Prop} {rest : W → Prop} {C : J → Contract S W} {evolves : W → W → Prop}
  {Q : J → List (Event S W) → R → W → Nat → Prop}

end Rule
end PreconfGateway.Interleaving
