import PreconfGateway.Properties.Authorisation

/-! The table of delegations: only verified rows to the own key, one for each proposer and
slot, never changed but for being switched off, and read back bit for bit. -/
namespace PreconfGateway.Properties.DelegationStore
open Encoding Types Db Crypto Interleaving Fixture Authorisation
variable {P : Platform} {g : Gateway P}

/-- The delegations that a list of rows stands for. -/
def ReadBack (slot : UInt64) (rows : List DelegationRow) (ds : List SignedDelegation) : Prop :=
  List.Forall₂ (fun row d => row = (newDelegationOf d).row row.id ∧ d.message.slot = slot) rows ds

theorem mapM_active {slot : UInt64} {c : Delegations} {rows : List DelegationRow}
    (active : ∀ row ∈ rows, row ∈ c.activeForSlot slot.toInt64) :
    ∃ ds, rows.mapM signedDelegationOf = .ok ds ∧ ReadBack slot rows ds := by
  induction rows with
  | nil => exact ⟨[],rfl,.nil⟩
  | cons row rows ih =>
    obtain ⟨ds,hds,back⟩ := ih fun r hr => active r (List.mem_cons_of_mem _ hr)
    have found := List.mem_filter.mp (active row List.mem_cons_self)
    simp only [Bool.and_eq_true,decide_eq_true_eq] at found
    obtain ⟨d,hd,columns⟩ := signedDelegationOf_checked (c.checked row found.1)
    refine ⟨d :: ds,by rw [List.mapM_cons,hd,hds]; rfl,.cons ⟨?_,?_⟩ back⟩
    · rw [found.2.2] at columns
      exact columns
    · have number : row.slotNumber = d.message.slot.toInt64 := congrArg DelegationRow.slotNumber columns
      rw [← UInt64.toUInt64_toInt64 d.message.slot,← number,found.2.1,UInt64.toUInt64_toInt64]

/-- A lookup fails only if the database does, and returns exactly the active rows. -/
theorem lookup_run {slot : UInt64} {w w' : World P} {t t' : Nat} {es : Trace P} {r : Result (List SignedDelegation)}
    (h : Run g.machine Eq (getDelegationsForSlot P slot) w t es r w' t') :
    (∃ e, Told es (.sql (.selectDelegations slot.toInt64)) (.error e)) ∨
      ∃ rows ds, rows.Perm (w.delegations.activeForSlot slot.toInt64) ∧ r = .ok ds ∧ ReadBack slot rows ds := by
  obtain ⟨w₁,u,reply,w₂,rest,rfl,rfl,_,_,answers,h⟩ := run_ask h
  rcases reply with e | rows
  · exact .inl ⟨e,told_here.mpr (.inl rfl)⟩
  · obtain ⟨perm,_⟩ := Answers.selectDelegations answers
    obtain ⟨ds,hds,back⟩ := mapM_active fun row hrow => perm.mem_iff.mp hrow
    obtain ⟨_,rfl,_⟩ := h.ret_inv
    exact .inr ⟨rows,ds,perm,hds,back⟩

/-- No row has a slot beyond the signed column. -/
theorem none_beyond {c : Delegations} {slot : UInt64} (h : 2 ^ 63 ≤ slot.toNat) :
    c.activeForSlot slot.toInt64 = [] := by
  refine List.filter_eq_nil_iff.mpr fun row hrow => ?_
  simp only [Bool.and_eq_true,decide_eq_true_eq,not_and]
  intro same
  have checked := c.checked row hrow
  simp only [DelegationRow.checks,DelegationRow.chkSlotPositive,Bool.and_eq_true,decide_eq_true_eq,same] at checked
  have fits := (i64TryFrom_of_nonneg checked.2).2
  rw [UInt64.toUInt64_toInt64] at fits
  have small := (Option.ite_none_right_eq_some.mp fits).1
  omega

/-- The table at any time of any run that starts with none, and what later tables make of it. -/
theorem delegation_store (g : Gateway P) {w₀ : World P} {s : State (requests P) (World P) Job Outcome}
    (empty : w₀.delegations = .empty) (hr : Reachable g.system w₀ s) :
    (∀ row ∈ s.world.delegations.rows, ∃ d, signedDelegationOf row = .ok d ∧ Acceptable g.config d) ∧
    (∀ r ∈ s.world.delegations.rows, ∀ r' ∈ s.world.delegations.rows, r.key = r'.key → r = r') ∧
    (∀ s', Relation.ReflTransGen (Step g.system) s s' → ∀ row ∈ s.world.delegations.rows,
      (∃ row' ∈ s'.world.delegations.rows, row' = { row with isActive := row'.isActive }) ∧
        (row.isActive = false → ∀ row' ∈ s'.world.delegations.rows, row'.key = row.key → row'.isActive = false)) ∧
    (∀ slot t es r w' t', Run g.machine Eq (getDelegationsForSlot P slot) s.world t es r w' t' →
      (∃ e, Told es (.sql (.selectDelegations slot.toInt64)) (.error e)) ∨
        ∃ rows ds, rows.Perm (s.world.delegations.activeForSlot slot.toInt64) ∧ r = .ok ds ∧ ReadBack slot rows ds) ∧
    ∀ slot : UInt64, 2 ^ 63 ≤ slot.toNat → s.world.delegations.activeForSlot slot.toInt64 = [] := by
  have sound := (authorisation_verified g).sound (fun _ => trusted_of_empty empty) hr
  refine ⟨?_,fun r hr r' hr' => Delegations.key_injective hr hr',?_,fun _ _ _ _ _ _ => lookup_run,fun _ => none_beyond⟩
  · intro row hrow
    obtain ⟨d,hd,_⟩ := signedDelegationOf_checked (s.world.delegations.checked row hrow)
    exact ⟨d,hd,sound.inv .pollDelegations row hrow d hd⟩
  · intro s' hs row hrow
    obtain ⟨row',hrow',later⟩ := (reached_later hr hs).delegations row hrow
    refine ⟨⟨row',hrow',later.1⟩,?_⟩
    intro off other hother same
    have key : row'.key = row.key := by
      rw [later.1]
      rfl
    rw [Delegations.key_injective hother hrow' (same.trans key.symm)]
    cases active : row'.isActive with
    | false => rfl
    | true => exact absurd (later.2 active) (by simp [off])

/-- A poll has stored one delegation, which is verified and to the own key. -/
theorem delegation_store_stored : ∃ s : State (requests (platform offer)) (World (platform offer)) Job Outcome,
    Reachable small.system (.empty _) s ∧ s.world.delegations.rows = polled offer ∧
      ∀ row ∈ s.world.delegations.rows, ∃ d, signedDelegationOf row = .ok d ∧ Acceptable small.config d := by
  obtain ⟨s,hr,_,hw,_⟩ := Authorisation.stored_reachable
  exact ⟨s,hr,by rw [hw]; rfl,(delegation_store small rfl hr).1⟩

end PreconfGateway.Properties.DelegationStore
