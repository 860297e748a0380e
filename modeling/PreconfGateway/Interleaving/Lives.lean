import PreconfGateway.Interleaving.History

/-! Lives: a system stops at any moment, whatever its tasks are at, and one of its family starts again on what is
left of the world. A request in flight has taken effect before the stop, or never does. -/
namespace PreconfGateway.Interleaving
universe u
variable {S : Signature} {W J R : Type} {D : Type u} {sys : D → System S W J R} {wake : W → W} {w₀ : W} {d : D} {s : State S W J R}

/-- A world that never loses what its events keep has lost nothing since the start. -/
theorem Reachable.grown {sys : System S W J R} {evolves : W → W → Prop} (hr : Reachable sys w₀ s) (refl : ∀ w, evolves w w)
    (trans : ∀ {a b c}, evolves a b → evolves b c → evolves a c)
    (event : ∀ {u}, Reachable sys w₀ u → ∀ {id job e}, u.Saw id job e → evolves e.pre e.post) : evolves w₀ s.world := by
  induction hr with
  | initial t => exact refl _
  | step hr h ih => exact trans ih (hr.progress (.single h) refl trans event)

/-- The states of the latest life. -/
inductive Lived (sys : D → System S W J R) (wake : W → W) (w₀ : W) : D → State S W J R → Prop
  | first {d : D} {s : State S W J R} (run : Reachable (sys d) (wake w₀) s) : Lived sys wake w₀ d s
  | again {d d' : D} {s s' : State S W J R} (before : Lived sys wake w₀ d s)
      (run : Reachable (sys d') (wake s.world) s') : Lived sys wake w₀ d' s'

/-- What no life loses, the latest life has begun with. -/
theorem Lived.latest (h : Lived sys wake w₀ d s) (Inv : W → Prop) (start : Inv w₀)
    (life : ∀ d w s, Inv w → Reachable (sys d) (wake w) s → Inv s.world) : ∃ w, Inv w ∧ Reachable (sys d) (wake w) s := by
  induction h with
  | first run => exact ⟨w₀,start,run⟩
  | again _ run ih =>
    obtain ⟨w,inv,run'⟩ := ih
    exact ⟨_,life _ _ _ inv run',run⟩

/-- It holds after any number of lives. -/
theorem Lived.invariant (h : Lived sys wake w₀ d s) (Inv : W → Prop) (start : Inv w₀)
    (life : ∀ d w s, Inv w → Reachable (sys d) (wake w) s → Inv s.world) : Inv s.world := by
  obtain ⟨w,inv,run⟩ := h.latest Inv start life
  exact life d w s inv run

end PreconfGateway.Interleaving
