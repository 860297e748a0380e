import PreconfGateway.Interleaving.Discipline

/-! A system with further jobs beside its own, and what stays verified of it. -/
namespace PreconfGateway.Interleaving
variable {S : Signature} {W J K R A : Type}

/-- The further jobs start at any time, run beside any others and break off anywhere. -/
def System.beside (sys : System S W J R) (code : K → Program S A) : System S W (J ⊕ K) (R ⊕ A) where
  toMachine := sys.toMachine
  code
    | .inl j => sys.code j >>= fun r => .ret (.inl r)
    | .inr k => code k >>= fun a => .ret (.inr a)
  admits t w
    | .inl j => sys.admits t w j
    | .inr _ => True
  together
    | .inl i, .inl j => sys.together i j
    | _, _ => True
  permits
    | .inl j => sys.permits j
    | .inr _ => fun _ _ => True
  droppable
    | .inl j => sys.droppable j
    | .inr _ => fun _ => True

/-- Each side reaches its own results. -/
def Beside (Q : J → List (Event S W) → R → W → Nat → Prop) (Q' : K → List (Event S W) → A → W → Nat → Prop) :
    J ⊕ K → List (Event S W) → R ⊕ A → W → Nat → Prop
  | .inl j, tr, .inl r, w, t => Q j tr r w t
  | .inr k, tr, .inr a, w, t => Q' k tr a w t
  | _, _, _, _, _ => False

section Verified
variable {sys : System S W J R} {code : K → Program S A} {C : J → Contract S W} {D : K → Contract S W}
  {evolves : W → W → Prop} {Q : J → List (Event S W) → R → W → Nat → Prop}
  {Q' : K → List (Event S W) → A → W → Nat → Prop}

/-- What an event does is fine with the further jobs. -/
structure Suits (D : K → Contract S W) (e : Event S W) : Prop where
  inv : ∀ k, (D k).inv e.post
  rely : ∀ k, (D k).rely e.pre e.post

/-- A verified system stays verified beside jobs that keep to contracts of their own, when each side does
only what the other allows for. -/
theorem Verified.beside (hv : Verified sys C evolves Q)
    (permits : ∀ k tr e, (D k).permits tr e)
    (start : ∀ k t w, (∀ i, (C i).inv w) → (D k).inv w → (D k).Safe sys.toMachine (Q' k) (code k) [] w t)
    (old : ∀ j tr e, (∀ i, (C i).inv e.pre) → (∀ k, (D k).inv e.pre) → sys.Answers e.stop e.pre e.op e.reply e.post →
      (C j).guarantee tr e → Suits D e)
    (new : ∀ k tr e, (∀ i, (C i).inv e.pre) → (∀ k, (D k).inv e.pre) → sys.Answers e.stop e.pre e.op e.reply e.post →
      (D k).guarantee tr e → Suits D e ∧ (∀ i, (C i).inv e.post) ∧ evolves e.pre e.post ∧ ∀ i, (C i).rely e.pre e.post) :
    Verified (sys.beside code) (Sum.elim C D) evolves (Beside Q Q') where
  refl := hv.refl
  trans := hv.trans
  permits
    | .inl j, tr, e, h => hv.permits j tr e h
    | .inr k, tr, e, _ => permits k tr e
  start
    | .inl j, t, w, inv, admitted => by
      refine (hv.start j t w (fun i => inv (.inl i)) admitted).bind fun tr r w t h => ?_
      exact h
    | .inr k, t, w, inv, _ => by
      refine (start k t w (fun i => inv (.inl i)) (inv (.inr k))).bind fun tr a w t h => ?_
      exact h
  step
    | .inl j, tr, e, inv, answers, permitted, guarantee => by
      obtain ⟨kept,evolved,relied⟩ := hv.step j tr e (fun i => inv (.inl i)) answers permitted guarantee
      have suits := old j tr e (fun i => inv (.inl i)) (fun k => inv (.inr k)) answers guarantee
      refine ⟨?_,evolved,?_⟩
      · rintro (i | k)
        · exact kept i
        · exact suits.inv k
      · rintro (i | k) met
        · exact relied i met
        · exact suits.rely k
    | .inr k, tr, e, inv, answers, _, guarantee => by
      obtain ⟨suits,kept,evolved,relied⟩ := new k tr e (fun i => inv (.inl i)) (fun k => inv (.inr k)) answers guarantee
      refine ⟨?_,evolved,?_⟩
      · rintro (i | k)
        · exact kept i
        · exact suits.inv k
      · rintro (i | k) _
        · exact relied i
        · exact suits.rely k

end Verified

end PreconfGateway.Interleaving
