import PreconfGateway.Fixture

/-! When the lookup of a delegation depends on the order of the rows. It checks the
first match only, so it is complete where the matches are all good or all bad. -/
namespace PreconfGateway.Properties.DelegationLookup
open Encoding Types Db Crypto Interleaving Rpc Services Fixture
variable {P : Platform} {g : Gateway P} {w : World P} {slot : UInt64} {committer : String}
  {duty : Except String (Option ValidatorDuty)}

/-- The delegation is in an active row of the slot. -/
def Held (w : World P) (slot : UInt64) (d : SignedDelegation) : Prop :=
  ∃ row ∈ w.delegations.activeForSlot slot.toInt64, signedDelegationOf row = .ok d

def Matches (slot : UInt64) (committer : String) (d : SignedDelegation) : Prop :=
  d.message.slot = slot ∧ normalizeAddress d.message.committer = normalizeAddress committer

/-- The delegation verifies, and its proposer is the one the beacon client names. -/
def Good (duty : Except String (Option ValidatorDuty)) (d : SignedDelegation) : Prop :=
  Verifies P d ∧ Names duty d.message.proposer

/-- The lookup may end like this: the table is read in some order, and the beacon client
gives this answer if it is asked. -/
def Answers (g : Gateway P) (w : World P) (slot : UInt64) (committer : String)
    (duty : Except String (Option ValidatorDuty)) (r : Except String String) : Prop :=
  ∃ t es t', Run g.machine Eq (verifyDelegationAuthority g.config slot committer) w t es r w t' ∧
    (∀ e, ¬ Told es (.sql (.selectDelegations slot.toInt64)) (.error e)) ∧
      ∀ duty', Told es (.proposerForSlot slot) duty' → duty' = duty

/-- Success is independent of the order: it means that a good match is held. -/
def Complete (g : Gateway P) (w : World P) (slot : UInt64) (committer : String)
    (duty : Except String (Option ValidatorDuty)) : Prop :=
  ∀ r, Answers g w slot committer duty r →
    ((∃ c, r = .ok c) ↔ ∃ d, Held w slot d ∧ Matches slot committer d ∧ Good (P := P) duty d)

/-- A lookup that succeeds still does when the table holds more. -/
def Stable (g : Gateway P) (w more : World P) (slot : UInt64) (committer : String)
    (duty : Except String (Option ValidatorDuty)) : Prop :=
  ∀ c r, Answers g w slot committer duty (.ok c) → Answers g more slot committer duty r → ∃ c', r = .ok c'

theorem findDelegation_some {ds : List SignedDelegation} {d : SignedDelegation}
    (h : findDelegation slot committer ds = some d) : d ∈ ds ∧ Matches slot committer d := by
  have found := List.find?_some h
  simp only [SignedDelegation.isValidForSlot,Bool.and_eq_true,decide_eq_true_eq] at found
  exact ⟨List.mem_of_find?_eq_some h,found.2,found.1⟩

theorem findDelegation_head {ds : List SignedDelegation} {d : SignedDelegation} (h : Matches slot committer d) :
    findDelegation slot committer (d :: ds) = some d := by
  refine List.find?_cons_of_pos ?_
  simp only [SignedDelegation.isValidForSlot,Bool.and_eq_true,decide_eq_true_eq]
  exact ⟨h.2,h.1⟩

theorem findDelegation_isSome {ds : List SignedDelegation} {d : SignedDelegation} (hd : d ∈ ds)
    (h : Matches slot committer d) : ∃ found, findDelegation slot committer ds = some found := by
  refine Option.isSome_iff_exists.mp (List.find?_isSome.mpr ⟨d,hd,?_⟩)
  simp only [SignedDelegation.isValidForSlot,Bool.and_eq_true,decide_eq_true_eq]
  exact ⟨h.2,h.1⟩

theorem mapM_checked {rows : List DelegationRow} (h : ∀ row ∈ rows, row.checks = true) :
    ∃ ds, rows.mapM signedDelegationOf = .ok ds := by
  refine mapM_total fun row hr => ?_
  obtain ⟨d,hd,_⟩ := signedDelegationOf_checked (h row hr)
  exact ⟨d,hd⟩

/-- The active rows of a slot can be read, in any order, as the delegations that are held. -/
theorem active_read {rows : List DelegationRow} (perm : rows.Perm (w.delegations.activeForSlot slot.toInt64)) :
    ∃ ds, rows.mapM signedDelegationOf = .ok ds ∧ ∀ d, d ∈ ds ↔ Held w slot d := by
  have checked : ∀ row ∈ rows, row.checks = true := fun row hr =>
    w.delegations.checked row (List.mem_of_mem_filter (perm.mem_iff.mp hr))
  obtain ⟨ds,hds⟩ := mapM_checked checked
  refine ⟨ds,hds,fun d => ?_⟩
  rw [mem_mapM_ok hds]
  unfold Held
  simp only [perm.mem_iff]

/-- However the first match fares, the beacon client is asked at most once. -/
theorem checkDelegations_run (g : Gateway P) (slot : UInt64) (committer : String)
    (duty : Except String (Option ValidatorDuty)) (ds : List SignedDelegation) (w : World P) (t : Nat) :
    ∃ r es, Run g.machine Eq (checkDelegations g.config slot committer ds) w t es r w t ∧
      (∀ duty', Told es (.proposerForSlot slot) duty' → duty' = duty) ∧
        ∀ e ∈ es, e.op.query ≠ .sql (.selectDelegations slot.toInt64) := by
  unfold checkDelegations
  split
  · exact ⟨_,[],.ret _ _ _,fun _ h => absurd h told_nil,fun _ h => (by cases h)⟩
  · split
    · exact ⟨_,[],.ret _ _ _,fun _ h => absurd h told_nil,fun _ h => (by cases h)⟩
    · have asked : g.machine.Answers t w (.plain (.proposerForSlot slot)) duty w := ⟨.duty duty,rfl⟩
      refine ⟨_,_,ask_step asked (.ret _ _ _),?_,?_⟩
      · intro duty' h
        exact ((told_here.mp h).resolve_right told_nil).symm
      · intro e he
        cases List.mem_singleton.mp he
        nofun

/-- The lookup ends with a success exactly if its first match is good. -/
theorem checkDelegations_inv {M : Machine (requests P) (World P)} {between : World P → World P → Prop}
    {ds : List SignedDelegation} {w w' : World P} {t t' : Nat} {es : Trace P} {r : Except String String}
    (h : Run M between (checkDelegations g.config slot committer ds) w t es r w' t')
    (told : ∀ duty', Told es (.proposerForSlot slot) duty' → duty' = duty) :
    (∃ c, r = .ok c) ↔ ∃ d, findDelegation slot committer ds = some d ∧ Good (P := P) duty d := by
  unfold checkDelegations at h
  split at h
  · rename_i none
    obtain ⟨rfl,rfl,_⟩ := h.ret_inv
    simp [none]
  · rename_i d found
    rw [found]
    unfold Good
    simp only [Option.some.injEq,exists_eq_left']
    split at h
    · rename_i e check
      have bad : ¬ Verifies P d := by
        rw [← checkDelegationSignature_ok g slot committer,check]
        nofun
      obtain ⟨rfl,rfl,_⟩ := h.ret_inv
      simp [bad]
    · rename_i check
      have verifies := (checkDelegationSignature_ok g slot committer).mp check
      obtain ⟨w₁,u,duty',w₂,rest,rfl,_,_,_,_,h⟩ := run_ask h
      obtain ⟨rfl,rfl,_⟩ := h.ret_inv
      rw [told duty' (told_here.mpr (.inl rfl)),← checkProposer_ok slot]
      cases checkProposer slot d duty <;> simp [Except.map,verifies]

/-- Read in this order, the lookup ends with a success exactly if its first match is good. -/
theorem answers_read (g : Gateway P) (committer : String) (duty : Except String (Option ValidatorDuty))
    {rows : List DelegationRow} {ds : List SignedDelegation}
    (perm : rows.Perm (w.delegations.activeForSlot slot.toInt64)) (read : rows.mapM signedDelegationOf = .ok ds) :
    ∃ r, Answers g w slot committer duty r ∧
      ((∃ c, r = .ok c) ↔ ∃ d, findDelegation slot committer ds = some d ∧ Good (P := P) duty d) := by
  have select : g.machine.Answers 0 w (.plain (.sql (.selectDelegations slot.toInt64))) (.ok rows) w :=
    ⟨.delegations rows,by simp [Gateway.machine,world,Op.respond,Query.respond,Statement.execute,
      List.isPerm_iff,perm]⟩
  obtain ⟨r,es,hrun,told,quiet⟩ := checkDelegations_run g slot committer duty ds w 0
  have whole : Run g.machine Eq (verifyDelegationAuthority g.config slot committer) w 0
      (⟨.plain (.sql (.selectDelegations slot.toInt64)), .ok rows, 0, 0, w, w⟩ :: es) r w 0 := by
    refine ask_step select ?_
    dsimp only [Program.bind,Program.pure_eq_ret]
    rw [read]
    exact hrun
  refine ⟨r,⟨0,_,0,whole,?_,?_⟩,checkDelegations_inv hrun told⟩
  · intro e h
    rcases told_here.mp h with h | h
    · cases h
    · exact told_never quiet h
  · intro duty' h
    exact told duty' ((told_other (by rintro ⟨⟩)).mp h)

theorem answers_inv {r : Except String String} (h : Answers g w slot committer duty r) :
    ∃ ds, (∀ d, d ∈ ds ↔ Held w slot d) ∧
      ((∃ c, r = .ok c) ↔ ∃ d, findDelegation slot committer ds = some d ∧ Good (P := P) duty d) := by
  obtain ⟨t,es,t',hrun,answered,told⟩ := h
  rw [verifyDelegationAuthority_split] at hrun
  obtain ⟨es₁,read,w₁,t₁,es₂,rfl,hread,hcheck⟩ := hrun.bind_inv
  obtain ⟨w₂,u,reply,w₃,rest,rfl,hw,_,_,select,hback⟩ := run_ask hread
  rcases reply with e | rows
  · exact absurd (told_here.mpr (.inl rfl)) (answered e)
  · subst hw
    obtain ⟨perm,rfl⟩ := Answers.selectDelegations select
    obtain ⟨rfl,rfl,rfl,rfl⟩ := hback.ret_inv
    obtain ⟨ds,hds,listed⟩ := active_read perm
    rw [hds] at hcheck
    refine ⟨ds,listed,checkDelegations_inv hcheck fun duty' h => told duty' ?_⟩
    exact (told_other (by nofun)).mpr h

/-- The held delegations can be read with any of them first. -/
theorem held_first {d : SignedDelegation} (held : Held w slot d) :
    ∃ (rows : List DelegationRow) (ds : List SignedDelegation), rows.Perm (w.delegations.activeForSlot slot.toInt64) ∧
      rows.mapM signedDelegationOf = .ok (d :: ds) := by
  obtain ⟨row,hr,hd⟩ := held
  have checked : ∀ r ∈ (w.delegations.activeForSlot slot.toInt64).erase row, r.checks = true := fun r hm =>
    w.delegations.checked r (List.mem_of_mem_filter (List.mem_of_mem_erase hm))
  obtain ⟨ds,hds⟩ := mapM_checked checked
  refine ⟨_,ds,(List.perm_cons_erase hr).symm,?_⟩
  rw [List.mapM_cons,hd,hds]
  rfl

theorem answers_first (g : Gateway P) (duty : Except String (Option ValidatorDuty)) {d : SignedDelegation}
    (held : Held w slot d) (matches_ : Matches slot committer d) :
    ∃ r, Answers g w slot committer duty r ∧ ((∃ c, r = .ok c) ↔ Good (P := P) duty d) := by
  obtain ⟨rows,ds,perm,read⟩ := held_first held
  obtain ⟨r,ha,hok⟩ := answers_read g committer duty perm read
  refine ⟨r,ha,?_⟩
  rw [hok,findDelegation_head matches_]
  simp

/-- The lookup is complete and stable under additions exactly when all the matches that
more rows hold are good, or none of those at hand is. -/
theorem lookup_complete_iff (g : Gateway P) {w more : World P} (slot : UInt64) (committer : String)
    (duty : Except String (Option ValidatorDuty)) (grows : ∀ d, Held w slot d → Held more slot d) :
    Complete g w slot committer duty ∧ Stable g w more slot committer duty ↔
      (∀ d, Held w slot d → Matches slot committer d → ¬ Good (P := P) duty d) ∨
        ∀ d, Held more slot d → Matches slot committer d → Good (P := P) duty d := by
  constructor
  · rintro ⟨complete,stable⟩
    by_contra mixed
    push Not at mixed
    obtain ⟨⟨d,held,match_,good⟩,b,held',match_',bad⟩ := mixed
    obtain ⟨r,answers,hok⟩ := answers_first g duty held match_
    obtain ⟨c,rfl⟩ := hok.mpr good
    obtain ⟨r',answers',hok'⟩ := answers_first g duty held' match_'
    exact bad (hok'.mp (stable c r' answers answers'))
  · intro alike
    have first {w' : World P} {ds : List SignedDelegation} {d : SignedDelegation}
        (mem : ∀ d, d ∈ ds ↔ Held w' slot d) (found : findDelegation slot committer ds = some d) :
        Held w' slot d ∧ Matches slot committer d := by
      obtain ⟨hd,match_⟩ := findDelegation_some found
      exact ⟨(mem d).mp hd,match_⟩
    refine ⟨fun r answers => ?_,fun c r answers answers' => ?_⟩
    · obtain ⟨ds,mem,hok⟩ := answers_inv answers
      rw [hok]
      constructor
      · rintro ⟨d,found,good⟩
        exact ⟨d,(first mem found).1,(first mem found).2,good⟩
      · rintro ⟨d,held,match_,good⟩
        obtain ⟨found,hf⟩ := findDelegation_isSome ((mem d).mpr held) match_
        obtain ⟨held',match_'⟩ := first mem hf
        refine ⟨found,hf,?_⟩
        rcases alike with bad | all
        · exact absurd good (bad d held match_)
        · exact all found (grows found held') match_'
    · obtain ⟨ds,mem,hok⟩ := answers_inv answers
      obtain ⟨ds',mem',hok'⟩ := answers_inv answers'
      obtain ⟨d,found,good⟩ := hok.mp ⟨c,rfl⟩
      obtain ⟨held,match_⟩ := first mem found
      rcases alike with bad | all
      · exact absurd good (bad d held match_)
      · obtain ⟨found',hf⟩ := findDelegation_isSome ((mem' d).mpr (grows d held)) match_
        obtain ⟨held',match_'⟩ := first mem' hf
        exact hok'.mpr ⟨found',hf,all found' held' match_'⟩

theorem scheduled_names : scheduled.parsePubkey = .ok (key 2) := by decide +kernel

/-- Two active delegations of the slot, with different committers. -/
def twoHeld : World (platform offer) := { stored with delegations := several }

/-- One more for the other committer. -/
def threeHeld : World (platform offer) where
  commitments := .empty
  delegations := ⟨several.rows ++ [(newDelegationOf (delegation 7 stranger 5)).row 6],
    by decide +kernel, by decide +kernel, by decide +kernel⟩
  congestion := .empty
  accepted := []

/-- The one match is good, so the lookup is complete whatever else there is. -/
theorem lookup_complete_several : Complete small twoHeld 5 own (.ok (some scheduled)) ∧
    Stable small twoHeld threeHeld 5 own (.ok (some scheduled)) := by
  have grows : ∀ d, Held twoHeld 5 d → Held threeHeld 5 d := by
    rintro d ⟨row,hr,hd⟩
    obtain ⟨listed,active⟩ := List.mem_filter.mp hr
    exact ⟨row,List.mem_filter.mpr ⟨List.mem_append_left _ listed,active⟩,hd⟩
  refine (lookup_complete_iff small 5 own (.ok (some scheduled)) grows).mpr (.inr ?_)
  rintro d ⟨row,hr,hd⟩ ⟨_,committer⟩
  have other : normalizeAddress stranger ≠ normalizeAddress own := by decide +kernel
  have held : (threeHeld.delegations.activeForSlot (UInt64.toInt64 5)).map signedDelegationOf =
      [.ok (delegation 3 stranger 5), .ok (delegation 2 own 5), .ok (delegation 7 stranger 5)] := by
    decide +kernel
  have listed := List.mem_map_of_mem (f := signedDelegationOf) hr
  rw [held,hd] at listed
  simp only [List.mem_cons,List.not_mem_nil,or_false,Except.ok.injEq] at listed
  rcases listed with rfl | rfl | rfl
  · exact absurd committer other
  · exact ⟨by decide +kernel,scheduled,rfl,scheduled_names⟩
  · exact absurd committer other

/-- With the scheduled proposer's delegation behind another one, the lookup can fail. -/
theorem lookup_misses_second : ¬ Complete contest contested 5 own (.ok (some scheduled)) := by
  intro complete
  have held (i : Nat) (d : SignedDelegation) (h : (polled rivals)[i]?.map signedDelegationOf = some (.ok d))
      (active : (polled rivals)[i]?.any (fun r => r.slotNumber = 5 && r.isActive) = true) :
      Held contested 5 d := by
    obtain ⟨row,hr,hd⟩ := Option.map_eq_some_iff.mp h
    rw [hr] at active
    exact ⟨row,List.mem_filter.mpr ⟨List.mem_of_getElem? hr,active⟩,hd⟩
  have first := held 0 (delegation 3 own 5) (by decide +kernel) (by decide +kernel)
  have second := held 1 (delegation 2 own 5) (by decide +kernel) (by decide +kernel)
  have claimed : Matches 5 own (delegation 3 own 5) := ⟨rfl,rfl⟩
  obtain ⟨r,answers,hok⟩ := answers_first contest (.ok (some scheduled)) first claimed
  have good : Good (P := platform rivals) (.ok (some scheduled)) (delegation 2 own 5) :=
    ⟨by decide +kernel,scheduled,rfl,scheduled_names⟩
  obtain ⟨_,found,hf,hp⟩ := hok.mp ((complete r answers).mpr ⟨_,second,⟨rfl,rfl⟩,good⟩)
  cases hf
  rw [scheduled_names] at hp
  exact absurd hp (by decide +kernel)

end PreconfGateway.Properties.DelegationLookup
