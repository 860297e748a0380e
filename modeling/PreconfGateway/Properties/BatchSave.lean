import PreconfGateway.Properties.DelegationBatch

/-! A batch of delegations stored by one call: what the table and the reply hold afterwards,
and that a second call with the same batch does nothing. -/
namespace PreconfGateway.Properties.BatchSave
open Encoding Types Db Crypto Services Interleaving Fixture DelegationBatch

section Firsts
variable {α κ : Type} [DecidableEq κ] {key : α → κ}

/-- Every key is taken or has a first element. -/
theorem firsts_covers (taken : List κ) (as : List α) :
    ∀ a ∈ as, key a ∈ taken ∨ ∃ b ∈ firsts key taken as, key b = key a := by
  induction as generalizing taken with
  | nil => nofun
  | cons a as ih =>
    intro x hx
    rw [firsts]
    split
    · rename_i already
      rcases List.mem_cons.mp hx with rfl | hx
      · exact .inl already
      · exact ih taken x hx
    · rcases List.mem_cons.mp hx with rfl | hx
      · exact .inr ⟨x,List.mem_cons_self,rfl⟩
      · rcases ih (taken ++ [key a]) x hx with seen | ⟨b,hb,same⟩
        · rcases List.mem_append.mp seen with seen | seen
          · exact .inl seen
          · exact .inr ⟨a,List.mem_cons_self,(List.mem_singleton.mp seen).symm⟩
        · exact .inr ⟨b,List.mem_cons_of_mem _ hb,same⟩

theorem firsts_none {taken : List κ} {as : List α} (all : ∀ a ∈ as, key a ∈ taken) : firsts key taken as = [] := by
  induction as with
  | nil => rfl
  | cons a as ih =>
    rw [firsts,if_pos (all a List.mem_cons_self)]
    exact ih fun b hb => all b (List.mem_cons_of_mem _ hb)

end Firsts

variable {P : Platform} {limits : Limits} {relay : ConstraintsApiConfig} {between : World P → World P → Prop}
  {w w' : World P} {ds : List SignedDelegation}

/-- The first entry for each proposer and slot that has no row yet, in the order of the batch. -/
def fresh (w : World P) (ds : List SignedDelegation) : List SignedDelegation :=
  firsts entryKey (w.delegations.rows.map DelegationRow.key) ds

/-- Behind its old rows the table has an active one for each fresh entry, and these are their ids. -/
structure Gains (w w' : World P) (ds : List SignedDelegation) (ids : List Nat) : Prop where
  each : ids.length = (fresh w ds).length
  rows : w'.delegations.rows = w.delegations.rows ++ List.zipWith NewDelegation.row ((fresh w ds).map newDelegationOf) ids
  others : w' = { w with delegations := w'.delegations }

theorem checkDelegation_ok {d : SignedDelegation} : (∃ u, checkDelegation P d = .ok u) ↔ Verifies P d := by
  constructor
  · rintro ⟨u,h⟩
    obtain ⟨valid,hv,h⟩ := bind_ok.mp h
    have verified : BlsManager.verifyDelegationSignature P d = .ok valid := by
      cases answer : BlsManager.verifyDelegationSignature P d with
      | error e =>
        rw [answer] at hv
        cases hv
      | ok b =>
        rw [answer] at hv
        exact hv
    cases valid with
    | true => exact verified
    | false => cases h
  · exact fun h => ⟨(),checkDelegation_verified h⟩

/-- A call stops at an entry that does not verify, or sends the batch as one statement. -/
theorem save_cases {r : Result (List Nat)} {t t' : Nat} {es : Trace P}
    (h : Run (world P limits relay) between (saveDelegationsBatch P ds) w t es r w' t') :
    ((∃ d ∈ ds, ¬ Verifies P d) ∧ (∃ e, r = .error e) ∧ w' = w ∧ es = []) ∨
      (∀ d ∈ ds, Verifies P d) ∧ ∃ w₁ u reply, between w w₁ ∧
        es = [⟨.plain (.sql (.insertDelegations (ds.map newDelegationOf))), reply, t, u, w₁, w'⟩] ∧
        (world P limits relay).Answers u w₁ (.plain (.sql (.insertDelegations (ds.map newDelegationOf)))) reply w' ∧
        r = savedReply reply := by
  unfold saveDelegationsBatch at h
  split at h
  · rename_i e failed
    obtain ⟨rfl,rfl,rfl,_⟩ := h.ret_inv
    refine .inl ⟨?_,⟨e,rfl⟩,rfl,rfl⟩
    by_contra none
    push Not at none
    obtain ⟨us,passed⟩ := mapM_total fun d hd => checkDelegation_ok.mpr (none d hd)
    rw [passed] at failed
    cases failed
  · rename_i us passed
    refine .inr ⟨fun d hd => checkDelegation_ok.mp (mapM_ok_iff.mp ⟨us,passed⟩ d hd),?_⟩
    obtain ⟨w₁,u,reply,w₂,rest,rfl,other,_,_,answers,next⟩ := run_ask h
    cases reply with
    | error e =>
      obtain ⟨rfl,rfl,rfl,_⟩ := next.ret_inv
      exact ⟨w₁,u,.error e,other,rfl,answers,rfl⟩
    | ok found =>
      obtain ⟨rfl,rfl,rfl,_⟩ := next.ret_inv
      exact ⟨w₁,u,.ok found,other,rfl,answers,rfl⟩

/-- An insert that took effect stored the fresh entries, all of them being storable. -/
theorem gains_of_execute {c : Choice} {found : List (Option Nat)}
    (h : Statement.execute w (.insertDelegations (ds.map newDelegationOf)) c = some (found, w')) :
    (∀ d ∈ ds, storable d = true) ∧ Gains w w' ds (found.filterMap id) := by
  obtain ⟨checked,each,rows⟩ := carried_out h
  rw [firsts_map] at each rows
  rw [List.length_map] at each
  refine ⟨fun d hd => checked _ (List.mem_map_of_mem hd),each,rows,?_⟩
  cases c with
  | ids given =>
    obtain ⟨_,hx⟩ := Option.ite_none_right_eq_some.mp h
    obtain ⟨⟨_,_⟩,_,he⟩ := Option.map_eq_some_iff.mp hx
    cases he
    rfl
  | _ => cases h

/-- What a call has done to the table it met, given its reply. -/
def Saves (w w' : World P) (ds : List SignedDelegation) (es : Trace P) : Result (List Nat) → Prop
  | .ok ids => (∀ e, ¬ Told es (.sql (.insertDelegations (ds.map newDelegationOf))) (.error e)) ∧
      (∀ d ∈ ds, Verifies P d ∧ storable d = true) ∧ Gains w w' ds ids
  | .error _ => ((∃ d ∈ ds, ¬ Verifies P d) ∧ w' = w) ∨
      ∃ e, Told es (.sql (.insertDelegations (ds.map newDelegationOf))) (.error e) ∧ (w' = w ∨
        e.stage = .committed ∧ (∀ d ∈ ds, Verifies P d ∧ storable d = true) ∧ ∃ ids, Gains w w' ds ids)

theorem save_saves {r : Result (List Nat)} {t t' : Nat} {es : Trace P}
    (h : Run (world P limits relay) between (saveDelegationsBatch P ds) w t es r w' t') :
    ∃ w₁, (w₁ = w ∨ between w w₁) ∧ Saves w₁ w' ds es r := by
  rcases save_cases h with ⟨bad,⟨e,rfl⟩,rfl,_⟩ | ⟨verified,w₁,u,reply,other,rfl,answers,outcome⟩
  · exact ⟨w',.inl rfl,.inl ⟨bad,rfl⟩⟩
  · refine ⟨w₁,.inr other,?_⟩
    cases reply with
    | ok found =>
      rw [outcome]
      obtain ⟨c,hx⟩ := Answers.executed answers
      obtain ⟨fit,gains⟩ := gains_of_execute hx
      refine ⟨?_,fun d hd => ⟨verified d hd,fit d hd⟩,gains⟩
      intro e told
      rcases told_here.mp told with he | told
      · cases he
      · exact told_nil told
    | error e =>
      rw [outcome]
      refine .inr ⟨e,told_here.mpr (.inl rfl),?_⟩
      obtain ⟨c,h⟩ := answers
      rcases respond_sql h with ⟨found,c',hx,how⟩ | ⟨same,_⟩
      · obtain ⟨fit,gains⟩ := gains_of_execute hx
        rcases how with he | ⟨e',he,last⟩
        · cases he
        · cases he
          exact .inr ⟨last,fun d hd => ⟨verified d hd,fit d hd⟩,_,gains⟩
      · exact .inl same

/-- The keys of a table stay. -/
theorem evolves_key {a b : World P} (h : a.Evolves b) {k : Bytes × Int64}
    (hk : k ∈ a.delegations.rows.map DelegationRow.key) : k ∈ b.delegations.rows.map DelegationRow.key := by
  obtain ⟨row,hrow,rfl⟩ := List.mem_map.mp hk
  obtain ⟨row',hrow',same,_⟩ := h.delegations row hrow
  refine List.mem_map.mpr ⟨row',hrow',?_⟩
  rw [same]
  rfl

/-- After a gain every entry of the batch has a row. -/
theorem gains_covers {ids : List Nat} (h : Gains w w' ds ids) :
    ∀ d ∈ ds, entryKey d ∈ w'.delegations.rows.map DelegationRow.key := by
  intro d hd
  rw [h.rows,List.map_append,List.mem_append,List.map_zipWith]
  rcases firsts_covers (w.delegations.rows.map DelegationRow.key) ds d hd with old | ⟨b,hb,same⟩
  · exact .inl old
  · obtain ⟨i,hi,rfl⟩ := List.getElem_of_mem hb
    have within_ : i < ids.length := h.each ▸ hi
    refine .inr (List.mem_iff_getElem.mpr ⟨i,?_,?_⟩)
    · rw [List.length_zipWith,List.length_map]
      exact Nat.lt_min.mpr ⟨hi,within_⟩
    · rw [List.getElem_zipWith,List.getElem_map]
      exact same

theorem gains_nothing {ids : List Nat} (covered : ∀ d ∈ ds, entryKey d ∈ w.delegations.rows.map DelegationRow.key)
    (h : Gains w w' ds ids) : ids = [] ∧ w' = w := by
  have none : fresh w ds = [] := firsts_none covered
  have rows := h.rows
  rw [none,List.map_nil,List.zipWith_nil_left,List.append_nil] at rows
  refine ⟨?_,?_⟩
  · rw [← List.length_eq_zero_iff,h.each,none,List.length_nil]
  · rw [h.others,Delegations.ext rows]

/-- A call stores all of the batch or none of it, unless the answer to its COMMIT got lost; once it
has returned ids, another call with the same batch returns none and changes nothing. -/
theorem batch_exact (evolving : ∀ a b, between a b → a.Evolves b) {r : Result (List Nat)} {t t' : Nat} {es : Trace P}
    (h : Run (world P limits relay) between (saveDelegationsBatch P ds) w t es r w' t') :
    (∃ w₁, (w₁ = w ∨ between w w₁) ∧ Saves w₁ w' ds es r) ∧
      ∀ ids, r = .ok ids → ∀ w₂, w'.Evolves w₂ → ∀ (r₂ : Result (List Nat)) (w₃ : World P) (t₂ t₃ : Nat) (es₂ : Trace P),
        Run (world P limits relay) between (saveDelegationsBatch P ds) w₂ t₂ es₂ r₂ w₃ t₃ →
          (w₃ = w₂ ∨ between w₂ w₃) ∧ ∀ ids₂, r₂ = .ok ids₂ → ids₂ = [] := by
  refine ⟨save_saves h,?_⟩
  rintro ids rfl w₂ later r₂ w₃ t₂ t₃ es₂ again
  obtain ⟨w₁,_,_,_,gains⟩ := save_saves h
  obtain ⟨w₄,other,saves⟩ := save_saves again
  have since : w₂.Evolves w₄ := by
    rcases other with rfl | other
    · exact World.Evolves.refl w₄
    · exact evolving _ _ other
  have covered (d : SignedDelegation) (hd : d ∈ ds) : entryKey d ∈ w₄.delegations.rows.map DelegationRow.key :=
    evolves_key (later.trans since) (gains_covers gains d hd)
  cases r₂ with
  | ok ids₂ =>
    obtain ⟨_,_,gains₂⟩ := saves
    obtain ⟨none,rfl⟩ := gains_nothing covered gains₂
    refine ⟨other,?_⟩
    rintro _ he
    cases he
    exact none
  | error e =>
    have same : w₃ = w₄ := by
      rcases saves with ⟨_,same⟩ | ⟨_,_,same | ⟨_,_,_,gains₂⟩⟩
      · exact same
      · exact same
      · exact (gains_nothing covered gains₂).2
    subst same
    exact ⟨other,nofun⟩

private theorem lost_answers {news : List NewDelegation} {ids : List Nat} {found : List (Option Nat)} {t : Nat}
    {e : DbError} (last : e.stage = .committed)
    (h : Statement.execute w (.insertDelegations news) (.ids ids) = some (found, w')) :
    (world P limits relay).Answers t w (.plain (.sql (.insertDelegations news))) (.error e) w' := by
  refine ⟨.lost (.ids ids) e,?_⟩
  change (if e.stage = .committed then (Statement.execute w (.insertDelegations news) (.ids ids)).map _ else none) = _
  rw [if_pos last,h]
  rfl

/-- A batch with one delegation listed twice and one that has its row. -/
def repeating : List SignedDelegation := [delegation 2 own 5, delegation 2 own 5, delegation 5 own 5, delegation 7 own 5]

private theorem repeating_verified : ∀ d ∈ repeating, Verifies (platform crowd) d := by decide +kernel

private theorem repeating_stored : ∃ found w', Statement.execute partly (.insertDelegations (repeating.map newDelegationOf))
    (.ids [10, 11, 12, 13]) = some (found, w') ∧ found = [some 10, none, none, some 13] ∧
      w'.delegations.rows.map DelegationRow.id = [0, 10, 13] := by
  have carried : (Statement.execute partly (.insertDelegations (repeating.map newDelegationOf)) (.ids [10, 11, 12, 13])).any
      (fun out => out.1 = [some 10, none, none, some 13] && out.2.delegations.rows.map DelegationRow.id = [0, 10, 13]) = true := by
    decide +kernel
  obtain ⟨⟨found,w'⟩,hx,hp⟩ := (Option.any_eq_true _ _).mp carried
  simp only [Bool.and_eq_true,decide_eq_true_eq] at hp
  exact ⟨found,w',hx,hp⟩

/-- Two of the four are new. -/
theorem batch_exact_repeating : ∃ es w', Run crowded.machine Eq (saveDelegationsBatch (platform crowd) repeating) partly 0 es
      (.ok [10, 13]) w' 0 ∧ ∃ w₁, (w₁ = partly ∨ partly = w₁) ∧ Saves w₁ w' repeating es (.ok [10, 13]) := by
  obtain ⟨found,w',hx,rfl,_⟩ := repeating_stored
  have run := save_meets repeating_verified (@inserted_answers _ crowded.limits crowded.config.constraintsApi _ _ 0 _ _ _ hx)
  refine ⟨_,w',run,?_⟩
  exact (batch_exact (by rintro a _ rfl; exact World.Evolves.refl a) run).1

/-- The answer to the COMMIT gets lost: the caller is told that it failed, and the rows are there. -/
theorem batch_commit_lost : ∃ es e w', Run crowded.machine Eq (saveDelegationsBatch (platform crowd) repeating) partly 0 es
      (.error e) w' 0 ∧ w'.delegations.rows.map DelegationRow.id = [0, 10, 13] := by
  obtain ⟨found,w',hx,_,rows⟩ := repeating_stored
  have answers := @lost_answers _ crowded.limits crowded.config.constraintsApi _ _ _ _ _ 0 ⟨.committed, "connection closed"⟩ rfl hx
  exact ⟨_,_,w',save_meets repeating_verified answers,rows⟩

end PreconfGateway.Properties.BatchSave
