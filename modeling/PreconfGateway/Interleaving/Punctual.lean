import PreconfGateway.Interleaving.Sequential

/-! Worst-case times. A program is followed with the latest time at which each of its
requests can be made, and that time is compared with when the request is due. -/
namespace PreconfGateway.Interleaving
variable {S : Signature} {W α β : Type}

namespace Program
variable (M : Machine S W) (due : S.Op → Nat → Prop)

/-- Started by t, a program makes every request when it is due, and has its result by last. -/
def Timely (last : Nat) : Program S α → Nat → Prop
  | .ret _, t => t ≤ last
  | .call op k, t => (∀ u ≤ t, due op u) ∧
      ∃ next, (∀ since u, since ≤ t → M.InTime since op u → u ≤ next) ∧ ∀ r, (k r).Timely last next

variable {M due} {last last' mid t t' : Nat}

theorem Timely.mono {p : Program S α} (h : p.Timely M due last t) (ht : t' ≤ t) (hl : last ≤ last') :
    p.Timely M due last' t' := by
  induction p generalizing t t' with
  | ret a =>
    have hr : t ≤ last := h
    change t' ≤ last'
    omega
  | call op k ih =>
    obtain ⟨hd,next,hn,hk⟩ := h
    refine ⟨fun u hu => hd u (Nat.le_trans hu ht),next,?_,fun r => ih r (hk r) (Nat.le_refl next)⟩
    intro since u hs hi
    exact hn since u (Nat.le_trans hs ht) hi

/-- Sequencing: the second program starts by the time the first one ends. -/
theorem Timely.bind {p : Program S α} {f : α → Program S β} (h : p.Timely M due mid t)
    (hf : ∀ a, (f a).Timely M due last mid) : (p >>= f).Timely M due last t := by
  induction p generalizing t with
  | ret a => exact (hf a).mono h (Nat.le_refl last)
  | call op k ih =>
    obtain ⟨hd,next,hn,hk⟩ := h
    exact ⟨hd,next,hn,fun r => ih r (hk r)⟩

end Program

namespace Contract
variable {C : Contract S W} {M : Machine S W} {due : S.Op → Nat → Prop}
  {Q : List (Event S W) → α → W → Nat → Prop}

/-- The contract that also asks for every request when it is due. -/
def punctual (C : Contract S W) (due : S.Op → Nat → Prop) : Contract S W where
  inv := C.inv
  rely := C.rely
  permits := C.permits
  starts tr op w t := C.starts tr op w t ∧ due op t
  guarantee tr e := C.guarantee tr e ∧ due e.op e.start
  rely_refl := C.rely_refl
  rely_trans := C.rely_trans
  starts_rely h hr := ⟨C.starts_rely h.1 hr,h.2⟩

/-- A timely program keeps its due times in every contract it keeps. -/
theorem Safe.punctual {p : Program S α} {tr : List (Event S W)} {w : W} {t start last : Nat}
    (h : C.Safe M Q p tr w t) (hp : p.Timely M due last start) (ht : t ≤ start) :
    (C.punctual due).Safe M (fun tr a w u => Q tr a w u ∧ u ≤ last) p tr w t := by
  induction p generalizing tr w t start with
  | ret a => exact ⟨h,Nat.le_trans ht hp⟩
  | call op k ih =>
    obtain ⟨hd,next,hn,hk⟩ := hp
    refine ⟨⟨h.1,hd t ht⟩,?_⟩
    intro w₁ u r w₂ hi hr hu hin ha hq
    obtain ⟨hg,hs⟩ := h.2 w₁ u r w₂ hi hr hu hin ha hq
    exact ⟨⟨hg,hd t ht⟩,ih r hs (hk r) (hn t u ht hin)⟩

end Contract

end PreconfGateway.Interleaving
