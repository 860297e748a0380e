import PreconfGateway.Gateway

/-! What an answered request can do to the world: at most one of seven changes, and
none of them ever takes a row or a message away. -/
namespace PreconfGateway
open Types Db Interleaving
variable {P : Platform} {limits : Limits} {relay : ConstraintsApiConfig} {t : Nat} {w w' : World P}

/-- All a request can do to the world. -/
inductive Changes (w : World P) : Query P → World P → Prop
  | same (q : Query P) : Changes w q w
  | inserted (new : NewCommitment) (id createdAt : Nat) (commitments : Commitments)
      (added : w.commitments.insert (new.row id createdAt) = some (some id, commitments)) :
      Changes w (.sql (.insertCommitment new)) { w with commitments := commitments }
  | marked (hashes : List String) :
      Changes w (.sql (.updateProcessed hashes)) { w with commitments := w.commitments.markProcessed hashes }
  | stored (news : List NewDelegation) (ids : List Nat) (kept : List (Option Nat)) (delegations : Delegations)
      (long : ids.length = news.length)
      (added : w.delegations.insertAll (news.zipWith NewDelegation.row ids) = some (kept, delegations)) :
      Changes w (.sql (.insertDelegations news)) { w with delegations := delegations }
  | switchedOff (q : Query P) (p : DelegationRow → Bool)
      (how : (∃ slot, q = .sql (.updateExpired slot) ∧ p = fun r : DelegationRow => decide (r.slotNumber < slot)) ∨
        ∃ id, q = .sql (.updateInactive id) ∧ p = fun r : DelegationRow => decide (r.id = id)) :
      Changes w q { w with delegations := w.delegations.switchOff p }
  | recorded (row : CongestionRow P) :
      Changes w (.sql (.insertCongestion row)) { w with congestion := (w.congestion.insert row).2 }
  | counted (slot : Int64) (change : CongestionRow P → Option (CongestionRow P)) (row : CongestionRow P)
      (found : (w.congestion.forSlot slot).bind change = some row) :
      Changes w (.sql (.updateCongestion slot change)) { w with congestion := w.congestion.update row }
  | taken (constraints : SignedConstraints) :
      Changes w (.postConstraints constraints) { w with accepted := w.accepted ++ [constraints] }

theorem insert_kind {c : Commitments} {r : CommitmentRow} {found : Option Nat} {c' : Commitments}
    (h : c.insert r = some (found, c')) :
    (found = none ∧ c' = c ∧ r.requestHash ∈ c.rows.map CommitmentRow.requestHash) ∨
      (found = some r.id ∧ c'.rows = c.rows ++ [r] ∧ r.requestHash ∉ c.rows.map CommitmentRow.requestHash) := by
  unfold Commitments.insert at h
  split at h
  · split at h
    · rename_i hh
      cases h
      exact .inl ⟨rfl,rfl,hh⟩
    · rename_i hh
      split at h
      · cases h
      · cases h
        exact .inr ⟨rfl,rfl,hh⟩
  · cases h

private theorem execute_changes {s : Statement P} {c : Choice} {v : s.Value}
    (h : s.execute w c = some (v, w')) : Changes w (.sql s) w' := by
  unfold Statement.execute at h
  split at h
  · cases h
    exact .same _
  · obtain ⟨⟨found,rows⟩,hi,he⟩ := Option.map_eq_some_iff.mp h
    cases he
    rcases insert_kind hi with ⟨rfl,rfl,_⟩ | ⟨rfl,_,_⟩
    · exact .same _
    · exact .inserted _ _ _ _ hi
  · cases h
    exact .same _
  · split at h
    · cases h
      exact .same _
    · cases h
  · cases h
    exact .marked _
  · split at h
    · cases h
      exact .same _
    · cases h
  · split at h
    · obtain ⟨⟨kept,rows⟩,hi,he⟩ := Option.map_eq_some_iff.mp h
      cases he
      rename_i long
      exact .stored _ _ _ _ long hi
    · cases h
  · cases h
    exact .switchedOff _ _ (.inl ⟨_,rfl,rfl⟩)
  · split at h
    · cases h
      exact .same _
    · cases h
  · cases h
    exact .switchedOff _ _ (.inr ⟨_,rfl,rfl⟩)
  · cases h
    exact .recorded _
  · cases h
    exact .same _
  · cases h
    split
    · rename_i found
      exact .counted _ _ _ found
    · exact .same _
  · cases h

/-- An answer to a statement: it did what it says, or it failed, perhaps after its effect. -/
theorem respond_sql {s : Statement P} {c : Choice} {r : Except DbError s.Value}
    (h : Query.respond t w (.sql s) c = some (r, w')) :
    (∃ v c', s.execute w c' = some (v, w') ∧ (r = .ok v ∨ ∃ e, r = .error e ∧ e.stage = s.last)) ∨
      (w' = w ∧ ∃ e, r = .error e) := by
  cases c with
  | failed e =>
    cases h
    exact .inr ⟨rfl,_,rfl⟩
  | lost settled e =>
    obtain ⟨last,h⟩ := Option.ite_none_right_eq_some.mp h
    obtain ⟨⟨v,u⟩,hx,he⟩ := Option.map_eq_some_iff.mp h
    cases he
    exact .inl ⟨v,_,hx,.inr ⟨_,rfl,last⟩⟩
  | _ =>
    obtain ⟨⟨v,u⟩,hx,he⟩ := Option.map_eq_some_iff.mp h
    cases he
    exact .inl ⟨v,_,hx,.inl rfl⟩

private theorem respond_changes {q : Query P} {c : Choice} {r : q.Reply}
    (h : q.respond t w c = some (r, w')) : Changes w q w' := by
  cases q with
  | sql s =>
    rcases respond_sql h with ⟨v,c',hx,_⟩ | ⟨rfl,_⟩
    · exact execute_changes hx
    · exact .same _
  | postConstraints sc =>
    cases c <;> cases h
    split
    · exact .taken _
    · exact .same _
  | now =>
    cases c <;> try cases h
    obtain ⟨_,he⟩ := Option.ite_none_right_eq_some.mp h
    cases he
    exact .same _
  | _ =>
    cases c <;> cases h
    exact .same _

theorem Changes.of_answers {op : Op P} {r : op.Reply} (h : (world P limits relay).Answers t w op r w') :
    Changes w op.query w' := by
  obtain ⟨c,h⟩ := h
  change Op.respond t w op c = some (r, w') at h
  cases op with
  | plain q => exact respond_changes h
  | within d q =>
    cases c with
    | expired settled =>
      cases settled with
      | none =>
        obtain ⟨_,he⟩ := Option.ite_none_right_eq_some.mp h
        cases he
        exact .same _
      | some c =>
        obtain ⟨_,h⟩ := Option.ite_none_right_eq_some.mp h
        obtain ⟨⟨v,u⟩,hx,he⟩ := Option.map_eq_some_iff.mp h
        cases he
        exact respond_changes hx
    | _ =>
      obtain ⟨⟨v,u⟩,hx,he⟩ := Option.map_eq_some_iff.mp h
      cases he
      exact respond_changes hx

/-- A stored commitment keeps all its columns; only the mark is ever set. -/
def Db.CommitmentRow.Later (r r' : CommitmentRow) : Prop :=
  r' = { r with constraintProcessed := r'.constraintProcessed } ∧
    (r.constraintProcessed = true → r'.constraintProcessed = true)

/-- A stored delegation keeps all its columns; it is only ever switched off. -/
def Db.DelegationRow.Later (r r' : DelegationRow) : Prop :=
  r' = { r with isActive := r'.isActive } ∧ (r'.isActive = true → r.isActive = true)

namespace World

structure Evolves (a b : World P) : Prop where
  commitments : ∀ r ∈ a.commitments.rows, ∃ r' ∈ b.commitments.rows, r.Later r'
  delegations : ∀ r ∈ a.delegations.rows, ∃ r' ∈ b.delegations.rows, r.Later r'
  accepted : a.accepted <+: b.accepted

theorem Evolves.refl (a : World P) : Evolves a a where
  commitments r h := ⟨r,h,rfl,fun h => h⟩
  delegations r h := ⟨r,h,rfl,fun h => h⟩
  accepted := List.prefix_refl _

theorem Evolves.trans {a b c : World P} (h : Evolves a b) (k : Evolves b c) : Evolves a c where
  commitments r hr := by
    obtain ⟨r',hr',he,hm⟩ := h.commitments r hr
    obtain ⟨r'',hr'',he',hm'⟩ := k.commitments r' hr'
    refine ⟨r'',hr'',?_,fun hp => hm' (hm hp)⟩
    rw [he',he]
  delegations r hr := by
    obtain ⟨r',hr',he,hm⟩ := h.delegations r hr
    obtain ⟨r'',hr'',he',hm'⟩ := k.delegations r' hr'
    refine ⟨r'',hr'',?_,fun hp => hm (hm' hp)⟩
    rw [he',he]
  accepted := h.accepted.trans k.accepted

end World

theorem Db.CommitmentRow.later_processed (hashes : List String) (r : CommitmentRow) :
    r.Later (r.processed hashes) := by
  unfold CommitmentRow.processed
  split
  · exact ⟨rfl,fun _ => rfl⟩
  · exact ⟨rfl,fun h => h⟩

theorem Db.DelegationRow.later_off (p : DelegationRow → Bool) (r : DelegationRow) : r.Later (r.off p) := by
  unfold DelegationRow.off
  split
  · exact ⟨rfl,fun h => (by cases h)⟩
  · exact ⟨rfl,fun h => h⟩

theorem Db.Delegations.insert_rows {d d' : Delegations} {r : DelegationRow} {found : Option Nat}
    (h : d.insert r = some (found, d')) : d'.rows = d.rows ∨ d'.rows = d.rows ++ [r] := by
  unfold Delegations.insert at h
  split at h
  · split at h
    · cases h
      exact .inl rfl
    · split at h
      · cases h
      · cases h
        exact .inr rfl
  · cases h

/-- A batch adds some of its rows behind those already there. -/
theorem Db.Delegations.insertAll_rows {d d' : Delegations} {rs : List DelegationRow}
    {found : List (Option Nat)} (h : d.insertAll rs = some (found, d')) :
    ∃ added, d'.rows = d.rows ++ added ∧ ∀ r ∈ added, r ∈ rs := by
  induction rs generalizing d found with
  | nil =>
    cases h
    exact ⟨[],by simp,by simp⟩
  | cons r rs ih =>
    simp only [Delegations.insertAll,Option.bind_eq_bind,Option.bind_eq_some_iff,Prod.exists] at h
    obtain ⟨id,d₁,h₁,ids,d₂,h₂,he⟩ := h
    cases he
    obtain ⟨added,ha,hm⟩ := ih h₂
    rcases Delegations.insert_rows h₁ with hr | hr
    · exact ⟨added,by rw [ha,hr],fun r hr => List.mem_cons_of_mem _ (hm r hr)⟩
    · refine ⟨r :: added,by rw [ha,hr,List.append_assoc]; rfl,?_⟩
      intro x hx
      rcases List.mem_cons.mp hx with rfl | hx
      · exact List.mem_cons_self
      · exact List.mem_cons_of_mem _ (hm x hx)

/-- The rows a batch adds are rows of its delegations. -/
theorem Db.Delegations.stored_rows {d d' : Delegations} {news : List NewDelegation} {ids : List Nat}
    {found : List (Option Nat)} (h : d.insertAll (news.zipWith NewDelegation.row ids) = some (found, d')) :
    ∀ r ∈ d'.rows, r ∈ d.rows ∨ ∃ n ∈ news, ∃ id, r = n.row id := by
  obtain ⟨added,hr,hm⟩ := insertAll_rows h
  intro r hmem
  rw [hr] at hmem
  rcases List.mem_append.mp hmem with hmem | hmem
  · exact .inl hmem
  · have hz := hm r hmem
    rw [← List.map_uncurry_zip_eq_zipWith] at hz
    obtain ⟨⟨n,id⟩,hpair,rfl⟩ := List.mem_map.mp hz
    exact .inr ⟨n,(List.of_mem_zip hpair).1,id,rfl⟩

theorem Changes.evolves {q : Query P} (h : Changes w q w') : w.Evolves w' := by
  have keep := World.Evolves.refl w
  cases h with
  | same => exact keep
  | inserted new id createdAt commitments added =>
    refine ⟨?_,keep.delegations,keep.accepted⟩
    rcases insert_kind added with ⟨hn,_⟩ | ⟨_,hr,_⟩
    · cases hn
    · intro r hm
      exact ⟨r,by rw [hr]; exact List.mem_append_left _ hm,rfl,fun h => h⟩
  | marked hashes =>
    exact ⟨fun r hm => ⟨_,List.mem_map_of_mem hm,r.later_processed hashes⟩,keep.delegations,keep.accepted⟩
  | stored news ids kept delegations long added =>
    obtain ⟨rows,hr,_⟩ := Delegations.insertAll_rows added
    refine ⟨keep.commitments,?_,keep.accepted⟩
    intro r hm
    exact ⟨r,by rw [hr]; exact List.mem_append_left _ hm,rfl,fun h => h⟩
  | switchedOff _ p _ =>
    exact ⟨keep.commitments,fun r hm => ⟨_,List.mem_map_of_mem hm,r.later_off p⟩,keep.accepted⟩
  | recorded => exact ⟨keep.commitments,keep.delegations,keep.accepted⟩
  | counted => exact ⟨keep.commitments,keep.delegations,keep.accepted⟩
  | taken constraints => exact ⟨keep.commitments,keep.delegations,List.prefix_append _ _⟩

theorem Answers.evolves {op : Op P} {r : op.Reply} (h : (world P limits relay).Answers t w op r w') :
    w.Evolves w' := (Changes.of_answers h).evolves

/-- A statement that answers has done what it says. -/
theorem Answers.executed {s : Statement P} {v : s.Value}
    (h : (world P limits relay).Answers t w (.plain (.sql s)) (.ok v) w') :
    ∃ c, s.execute w c = some (v, w') := by
  obtain ⟨c,h⟩ := h
  rcases respond_sql h with ⟨v',c',hx,hv | ⟨e,he,_⟩⟩ | ⟨_,e,he⟩
  · cases hv
    exact ⟨c',hx⟩
  · cases he
  · cases he

theorem Answers.selectDelegations {slot : Int64} {rows : List DelegationRow}
    (h : (world P limits relay).Answers t w (.plain (.sql (.selectDelegations slot))) (.ok rows) w') :
    rows.Perm (w.delegations.activeForSlot slot) ∧ w' = w := by
  obtain ⟨c,hx⟩ := Answers.executed h
  cases c with
  | delegations rows' =>
    obtain ⟨hp,he⟩ := Option.ite_none_right_eq_some.mp hx
    cases he
    exact ⟨List.isPerm_iff.mp hp,rfl⟩
  | _ => cases hx

theorem Answers.selectUnprocessed {slot : Int64} {rows : List CommitmentRow}
    (h : (world P limits relay).Answers t w (.plain (.sql (.selectUnprocessed slot))) (.ok rows) w') :
    rows.Perm (w.commitments.unprocessed slot) ∧
      rows.Pairwise (fun r s => r.createdAt ≤ s.createdAt) ∧ w' = w := by
  obtain ⟨c,hx⟩ := Answers.executed h
  cases c with
  | commitments rows' =>
    obtain ⟨⟨hp,hs⟩,he⟩ := Option.ite_none_right_eq_some.mp hx
    cases he
    exact ⟨List.isPerm_iff.mp hp,hs,rfl⟩
  | _ => cases hx

/-- An insert that returns an id has added the row, and no row had its hash before. -/
theorem Answers.insertCommitment {new : NewCommitment} {id : Nat}
    (h : (world P limits relay).Answers t w (.plain (.sql (.insertCommitment new))) (.ok (some id)) w') :
    ∃ createdAt, w'.commitments.rows = w.commitments.rows ++ [new.row id createdAt] ∧
      ∀ r ∈ w.commitments.rows, r.requestHash ≠ new.requestHash := by
  obtain ⟨c,hx⟩ := Answers.executed h
  cases c with
  | row rowId createdAt =>
    obtain ⟨⟨found,rows⟩,hi,he⟩ := Option.map_eq_some_iff.mp hx
    cases he
    rcases insert_kind hi with ⟨hn,_⟩ | ⟨hid,hr,hf⟩
    · cases hn
    · cases hid
      refine ⟨createdAt,hr,?_⟩
      intro r hm hh
      exact hf (List.mem_map.mpr ⟨r,hm,hh⟩)
  | _ => cases hx

/-- An insert that returns nothing has found the hash taken and changed nothing. -/
theorem Answers.insertCommitment_none {new : NewCommitment}
    (h : (world P limits relay).Answers t w (.plain (.sql (.insertCommitment new))) (.ok none) w') : w' = w := by
  obtain ⟨c,hx⟩ := Answers.executed h
  cases c with
  | row rowId createdAt =>
    obtain ⟨⟨found,rows⟩,hi,he⟩ := Option.map_eq_some_iff.mp hx
    cases he
    rcases insert_kind hi with ⟨_,rfl,_⟩ | ⟨hid,_⟩
    · rfl
    · cases hid
  | _ => cases hx

theorem Answers.selectCommitment {hash : String} {row : Option CommitmentRow}
    (h : (world P limits relay).Answers t w (.plain (.sql (.selectCommitment hash))) (.ok row) w') :
    row = w.commitments.withHash hash ∧ w' = w := by
  obtain ⟨c,hx⟩ := Answers.executed h
  cases c <;> cases hx
  exact ⟨rfl,rfl⟩

/-- The clock shows the whole seconds of the moment. -/
theorem Answers.now {r : UInt64} (h : (world P limits relay).Answers t w (.plain .now) r w') :
    r.toNat = t / 1000 ∧ w' = w := by
  obtain ⟨c,h⟩ := h
  change Query.respond t w .now c = some (r, w') at h
  cases c <;> try cases h
  obtain ⟨small,he⟩ := Option.ite_none_right_eq_some.mp h
  cases he
  refine ⟨?_,rfl⟩
  rw [UInt64.toNat_ofNat']
  omega

theorem Answers.instant {r : Nat} (h : (world P limits relay).Answers t w (.plain .instant) r w') :
    r = t ∧ w' = w := by
  obtain ⟨c,h⟩ := h
  change Query.respond t w .instant c = some (r, w') at h
  cases c <;> cases h
  exact ⟨rfl,rfl⟩

end PreconfGateway
