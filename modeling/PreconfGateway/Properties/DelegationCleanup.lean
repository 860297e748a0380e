import PreconfGateway.Fixture

/-! One cleanup of the delegations, with the same answer for a proposer whenever its status is asked:
which rows stay active, also when the cleanup breaks off. -/
namespace PreconfGateway.Properties.DelegationCleanup
open Encoding Types Db Interleaving Services Fixture
variable {P : Platform}

/-- The answers of the status cache. -/
abbrev Statuses := BlsPublicKey → Except String ValidatorInfo

/-- A proposer is left alone if its status is not known, or active and not slashed. -/
def healthy : Except String ValidatorInfo → Bool
  | .error _ => true
  | .ok status => status.isActive && !status.isSlashed

/-- The proposer of a row; the table has no other keys than those of 48 bytes. -/
def proposerHealthy (answers : Statuses) (proposer : Bytes) : Bool :=
  if h : proposer.length = 48 then healthy (answers ⟨proposer, h⟩) else true

/-- The row was active, has not expired, and its proposer is left alone. -/
def stays (currentSlot : UInt64) (answers : Statuses) (row : DelegationRow) : Bool :=
  row.isActive && decide ((currentSlot.toNat : Int) ≤ row.slotNumber.toInt) && proposerHealthy answers row.proposerPubkey

/-- The status requests were answered like this. -/
def AnsweredBy (answers : Statuses) (es : Trace P) : Prop :=
  ∀ pubkey reply, Told es (.validatorStatus pubkey) reply → reply = answers pubkey

section Tables
variable {d : Delegations} {p q : DelegationRow → Bool} {row : DelegationRow}

theorem off_off : (row.off p).off q = row.off (fun r => p r || q (r.off p)) := by
  unfold DelegationRow.off
  cases hp : p row
  · simp [hp]
  · simp only [hp,if_true,Bool.true_or,ite_self]

/-- Switching off twice is switching off once. -/
theorem switchOff_switchOff : (d.switchOff p).switchOff q = d.switchOff (fun r => p r || q (r.off p)) := by
  apply Delegations.ext
  simp only [Delegations.switchOff,List.map_map]
  exact List.map_congr_left fun r _ => off_off

theorem switchOff_none (none : ∀ r, p r = false) : d.switchOff p = d := by
  apply Delegations.ext
  have kept : DelegationRow.off p = id := by
    funext r
    rw [DelegationRow.off,none r]
    rfl
  change d.rows.map (DelegationRow.off p) = d.rows
  rw [kept,List.map_id]

end Tables

/-- The rows with these numbers switched off. -/
def without (ids : List Nat) (w : World P) : World P :=
  { w with delegations := w.delegations.switchOff (fun r => decide (r.id ∈ ids)) }

theorem without_nil (w : World P) : without [] w = w := by
  have same : w.delegations.switchOff (fun r => decide (r.id ∈ ([] : List Nat))) = w.delegations :=
    switchOff_none (fun r => by simp)
  rw [without,same]

theorem without_cons (id : Nat) (ids : List Nat) (w : World P) : without ids (without [id] w) = without (id :: ids) w := by
  simp only [without,switchOff_switchOff,DelegationRow.off_id]
  congr 2
  funext r
  simp

/-- The numbers of the delegations in a list whose proposers are not left alone. -/
def unhealthy (answers : Statuses) (listed : List (Nat × Bytes)) : List Nat :=
  (listed.filter (fun d => !proposerHealthy answers d.2)).map Prod.fst

theorem mem_unhealthy {answers : Statuses} {listed : List (Nat × Bytes)} {id : Nat} :
    id ∈ unhealthy answers listed ↔ ∃ proposer, (id,proposer) ∈ listed ∧ proposerHealthy answers proposer = false := by
  simp only [unhealthy,List.mem_map,List.mem_filter,Bool.not_eq_true',Prod.exists,exists_and_right,exists_eq_right]

/-- What is active after a switch was active before and was not meant. -/
theorem mem_active_off {d : Delegations} {p : DelegationRow → Bool} {row : DelegationRow} :
    row ∈ (d.switchOff p).active ↔ row ∈ d.rows ∧ row.isActive = true ∧ p row = false := by
  simp only [Delegations.active,Delegations.switchOff,List.mem_filter,List.mem_map]
  constructor
  · rintro ⟨⟨old,hold,rfl⟩,active⟩
    unfold DelegationRow.off at active ⊢
    cases meant : p old
    · rw [meant] at active
      exact ⟨hold,active,meant⟩
    · rw [meant] at active
      cases active
  · rintro ⟨hrow,active,spared⟩
    refine ⟨⟨row,hrow,?_⟩,active⟩
    rw [DelegationRow.off,spared]
    rfl

section Loop
variable {limits : Limits} {relay : ConstraintsApiConfig} {answers : Statuses} {listed : List (Nat × Bytes)}
  {w w' : World P} {t t' : Nat} {es : Trace P} {r : Result Unit}

/-- An update takes effect, and may not when it fails. -/
theorem update_effect {id : Nat} {reply : Except DbError Unit}
    (h : (world P limits relay).Answers t w (.plain (.sql (.updateInactive id))) reply w') :
    w' = without [id] w ∨ w' = w ∧ ∃ e, reply = .error e := by
  have only : (fun r : DelegationRow => decide (r.id ∈ [id])) = fun r : DelegationRow => decide (r.id = id) := by
    funext r
    simp
  rw [without,only]
  rcases reply with e | ⟨⟩
  · have changes := Changes.of_answers h
    change Changes w (.sql (.updateInactive id)) w' at changes
    cases changes with
    | same => exact .inr ⟨rfl,e,rfl⟩
    | switchedOff _ p how =>
      rcases how with ⟨_,hq,_⟩ | ⟨_,hq,rfl⟩
      · cases hq
      · cases hq
        exact .inl rfl
  · obtain ⟨c,hx⟩ := Answers.executed h
    cases c <;> cases hx
    exact .inl rfl

theorem status_still {pubkey : BlsPublicKey} {reply : Except String ValidatorInfo}
    (h : (world P limits relay).Answers t w (.plain (.validatorStatus pubkey)) reply w') : w' = w := by
  have changes := Changes.of_answers h
  change Changes w (.validatorStatus pubkey) w' at changes
  cases changes with
  | same => rfl
  | switchedOff _ _ how => rcases how with ⟨_,hq,_⟩ | ⟨_,hq,_⟩ <;> cases hq

theorem AnsweredBy.later {es' : Trace P} (h : AnsweredBy answers (es ++ es')) : AnsweredBy answers es' := by
  rintro pubkey reply ⟨_,_,_,_,hm⟩
  exact h pubkey reply ⟨_,_,_,_,List.mem_append_right _ hm⟩

theorem AnsweredBy.tail {e : Event (requests P) (World P)} (h : AnsweredBy answers (e :: es)) : AnsweredBy answers es :=
  @AnsweredBy.later P answers [e] es h

theorem unhealthy_cons (id : Nat) (proposer : Bytes) : unhealthy answers ((id,proposer) :: listed) =
    if proposerHealthy answers proposer then unhealthy answers listed else id :: unhealthy answers listed := by
  cases kept : proposerHealthy answers proposer <;> simp [unhealthy,kept]

/-- The proposers of a list are gone through in order, up to an update that fails. -/
theorem check_run (h : Run (world P limits relay) Eq (DelegationPolling.checkActiveDelegations listed) w t es r w' t')
    (answered : AnsweredBy answers es) :
    ∃ ids, ids <+: unhealthy answers listed ∧ w' = without ids w ∧ (r = .ok () → ids = unhealthy answers listed) := by
  induction listed generalizing w t es with
  | nil =>
    obtain ⟨_,rfl,rfl,_⟩ := h.ret_inv
    exact ⟨[],List.prefix_refl _,(without_nil w').symm,fun _ => rfl⟩
  | cons d listed ih =>
    obtain ⟨id,proposer⟩ := d
    unfold DelegationPolling.checkActiveDelegations at h
    split at h
    · rename_i long
      obtain ⟨_,_,reply,_,rest,rfl,rfl,_,_,status,next⟩ := run_ask h
      obtain rfl := status_still status
      obtain rfl := answered _ _ (told_here.mpr (.inl rfl))
      have later : AnsweredBy answers rest := answered.tail
      have judged : proposerHealthy answers proposer = healthy (answers ⟨proposer,long⟩) := dif_pos long
      rw [unhealthy_cons,judged]
      cases known : answers ⟨proposer,long⟩ with
      | error e =>
        rw [known] at next
        exact ih next later
      | ok status =>
        simp only [known] at next
        split at next
        · rename_i bad
          have ill : healthy (.ok status) = false := by
            simp only [healthy]
            revert bad
            cases status.isSlashed <;> cases status.isActive <;> simp
          rw [ill]
          obtain ⟨_,_,reply,_,rest',rfl,rfl,_,_,updated,last⟩ := run_ask next
          rcases update_effect updated with rfl | ⟨rfl,e,rfl⟩
          · rcases reply with e | ⟨⟩
            · obtain ⟨_,rfl,rfl,_⟩ := last.ret_inv
              exact ⟨[id],by simp,rfl,fun failed => by cases failed⟩
            · obtain ⟨ids,initial,rfl,all⟩ := ih last later.tail
              refine ⟨id :: ids,(List.prefix_cons_inj id).mpr initial,without_cons id ids _,fun done => ?_⟩
              rw [all done]
              rfl
          · obtain ⟨_,rfl,rfl,_⟩ := last.ret_inv
            exact ⟨[],List.nil_prefix,(without_nil _).symm,fun failed => by cases failed⟩
        · rename_i good
          have well : healthy (.ok status) = true := by
            simp only [healthy]
            revert good
            cases status.isSlashed <;> cases status.isActive <;> simp
          rw [well]
          exact ih next later
    · rename_i short
      have kept : proposerHealthy answers proposer = true := dif_neg short
      rw [unhealthy_cons,kept]
      exact ih h answered

theorem expire_effect {slot : Int64} {reply : Except DbError Nat}
    (h : (world P limits relay).Answers t w (.plain (.sql (.updateExpired slot))) reply w') :
    w' = { w with delegations := w.delegations.switchOff (fun r => r.slotNumber < slot) } ∨ w' = w ∧ ∃ e, reply = .error e := by
  rcases reply with e | count
  · have changes := Changes.of_answers h
    change Changes w (.sql (.updateExpired slot)) w' at changes
    cases changes with
    | same => exact .inr ⟨rfl,e,rfl⟩
    | switchedOff _ p how =>
      rcases how with ⟨_,hq,rfl⟩ | ⟨_,hq,_⟩
      · cases hq
        exact .inl rfl
      · cases hq
  · obtain ⟨c,hx⟩ := Answers.executed h
    cases c <;> cases hx
    exact .inl rfl

theorem active_listed {reply : Except DbError (List DelegationRow)}
    (h : (world P limits relay).Answers t w (.plain (.sql .selectActive)) reply w') :
    w' = w ∧ ∀ rows, reply = .ok rows → rows.Perm w.delegations.active := by
  rcases reply with e | rows
  · have changes := Changes.of_answers h
    change Changes w (.sql .selectActive) w' at changes
    cases changes with
    | same => exact ⟨rfl,nofun⟩
    | switchedOff _ p how => rcases how with ⟨_,hq,_⟩ | ⟨_,hq,_⟩ <;> cases hq
  · obtain ⟨c,hx⟩ := Answers.executed h
    cases c with
    | delegations rows' =>
      obtain ⟨hp,he⟩ := Option.ite_none_right_eq_some.mp hx
      cases he
      refine ⟨rfl,?_⟩
      rintro _ ⟨⟩
      exact List.isPerm_iff.mp hp
    | _ => cases hx

end Loop

/-- The current slot fits the column. -/
theorem current_small (genesisTime now : UInt64) : (BeaconTiming.currentSlotEstimate genesisTime now).toNat < 2 ^ 63 := by
  unfold BeaconTiming.currentSlotEstimate
  split
  · decide
  · have size := (now - genesisTime).toNat_lt
    have duration : BeaconTiming.SLOT_DURATION_SECONDS.toNat = 12 := rfl
    rw [UInt64.toNat_div,duration]
    omega

theorem expired_iff {currentSlot : UInt64} (small : currentSlot.toNat < 2 ^ 63) (slot : Int64) :
    slot < currentSlot.toInt64 ↔ slot.toInt < currentSlot.toNat := by
  have same : currentSlot.toInt64.toInt = currentSlot.toNat := BitVec.toInt_eq_toNat_of_lt (x := currentSlot.toBitVec) (by
    change 2 * currentSlot.toNat < 2 ^ 64
    omega)
  rw [Int64.lt_iff_toInt_lt,same]

section Cleanup
variable {limits : Limits} {relay : ConstraintsApiConfig} {config : Config P} {answers : Statuses}
  {w w' : World P} {t t' : Nat} {es : Trace P} {r : Result Unit} {now : UInt64}

/-- The part of a cleanup that is about one slot. -/
def cleanupBefore (P : Platform) (currentSlot : UInt64) : Async P (Result Unit) := do
  match ← deactivateExpiredDelegations P currentSlot with
  | .error e => pure (.error e)
  | .ok _ =>
    match ← sql .selectActive with
    | .error e => pure (bail e.message)
    | .ok rows => DelegationPolling.checkActiveDelegations (rows.map (fun r => (r.id, r.proposerPubkey)))

private theorem cleanupBefore_silent (currentSlot : UInt64) :
    (cleanupBefore P currentSlot).Obeys (fun op : Op P => op.query ≠ .now) (fun _ => True) := by
  refine obeys_asked (by nofun) fun r => ?_
  rcases r with e | count
  · exact trivial
  · refine obeys_asked (by nofun) fun r => ?_
    rcases r with e | rows
    · exact trivial
    · exact checkActiveDelegations_obeys (fun _ => by nofun) (fun _ => by nofun)

/-- What is switched off for a slot: some of the rows that must not stay, and when it goes through all of them. -/
theorem cleanupBefore_run {currentSlot : UInt64} (small : currentSlot.toNat < 2 ^ 63)
    (h : Run (world P limits relay) Eq (cleanupBefore P currentSlot) w t es r w' t') (answered : AnsweredBy answers es) :
    ∃ p : DelegationRow → Bool, w' = { w with delegations := w.delegations.switchOff p } ∧
      (∀ row ∈ w.delegations.rows, p row = true → row.isActive = true → stays currentSlot answers row = false) ∧
      (r = .ok () → ∀ row ∈ w.delegations.rows, row.isActive = true → stays currentSlot answers row = false →
        p row = true) := by
  have untouched : ∃ p : DelegationRow → Bool, w = { w with delegations := w.delegations.switchOff p } ∧
      ∀ row ∈ w.delegations.rows, p row = true → row.isActive = true → stays currentSlot answers row = false :=
    ⟨fun _ => false,by rw [switchOff_none (fun _ => rfl)],fun _ _ => nofun⟩
  have expired (row : DelegationRow) (past : decide (row.slotNumber < currentSlot.toInt64) = true) :
      stays currentSlot answers row = false := by
    have late := (expired_iff small _).mp (of_decide_eq_true past)
    simp only [stays,Bool.and_eq_false_iff,decide_eq_false_iff_not]
    exact .inl (.inr (Int.not_le.mpr late))
  obtain ⟨_,found,_,_,es₂,rfl,hexpire,hrest⟩ := h.bind_inv
  obtain ⟨_,_,reply,_,_,rfl,rfl,_,_,updated,hback⟩ := run_ask hexpire
  obtain ⟨rfl,rfl,rfl,_⟩ := hback.ret_inv
  rcases reply with e | count
  · obtain ⟨_,rfl,rfl,_⟩ := hrest.ret_inv
    rcases expire_effect updated with rfl | ⟨rfl,_⟩
    · exact ⟨_,rfl,fun row _ past _ => expired row past,nofun⟩
    · obtain ⟨p,same,none⟩ := untouched
      exact ⟨p,same,none,nofun⟩
  · obtain rfl := (expire_effect updated).resolve_right (fun ⟨_,_,failed⟩ => nomatch failed)
    obtain ⟨_,_,reply,_,_,rfl,rfl,_,_,selected,next⟩ := run_ask hrest
    obtain ⟨rfl,listed⟩ := active_listed selected
    rcases reply with e | rows
    · obtain ⟨_,rfl,rfl,_⟩ := next.ret_inv
      exact ⟨_,rfl,fun row _ past _ => expired row past,nofun⟩
    · have perm := listed rows rfl
      obtain ⟨ids,initial,rfl,all⟩ := check_run next answered.later.tail
      refine ⟨fun row => decide (row.slotNumber < currentSlot.toInt64) || decide (row.id ∈ ids),?_,?_,?_⟩
      · simp only [without,switchOff_switchOff,DelegationRow.off_id]
      · intro row hrow off _
        rcases Bool.or_eq_true_iff.mp off with past | off
        · exact expired row past
        · obtain ⟨proposer,inList,ill⟩ := mem_unhealthy.mp (initial.subset (of_decide_eq_true off))
          obtain ⟨row',inRows,same⟩ := List.mem_map.mp inList
          obtain ⟨hrow',_,_⟩ := mem_active_off.mp (perm.mem_iff.mp inRows)
          simp only [Prod.mk.injEq] at same
          obtain rfl : row' = row := List.inj_on_of_nodup_map w.delegations.ids hrow' hrow same.1
          rw [← same.2] at ill
          simp only [stays,ill,Bool.and_false]
      · intro done row hrow active gone
        cases past : decide (row.slotNumber < currentSlot.toInt64)
        · have soon : decide ((currentSlot.toNat : Int) ≤ row.slotNumber.toInt) = true := by
            have late := of_decide_eq_false past
            rw [expired_iff small] at late
            exact decide_eq_true (Int.not_lt.mp late)
          have ill : proposerHealthy answers row.proposerPubkey = false := by
            simpa only [stays,active,soon,Bool.true_and] using gone
          have kept : row ∈ rows := perm.mem_iff.mpr (mem_active_off.mpr ⟨hrow,active,past⟩)
          rw [all done]
          have inList : (row.id,row.proposerPubkey) ∈ rows.map (fun r => (r.id, r.proposerPubkey)) := List.mem_map_of_mem kept
          have meant := mem_unhealthy.mpr ⟨row.proposerPubkey,inList,ill⟩
          exact Bool.or_eq_true_iff.mpr (.inr (decide_eq_true meant))
        · exact Bool.or_eq_true_iff.mpr (.inl past)

/-- A cleanup is about the slot that the clock shows. -/
theorem cleanup_before (h : Run (world P limits relay) Eq (DelegationPolling.cleanupExpiredDelegations config) w t es r w' t')
    (told : Told es .now now) : ∃ u es', (∃ e, es = e :: es') ∧ Run (world P limits relay) Eq
      (cleanupBefore P (BeaconTiming.currentSlotEstimate config.beaconApi.genesisTime now)) w u es' r w' t' := by
  obtain ⟨_,u,shown,_,rest,rfl,rfl,_,_,answers,next⟩ := run_ask h
  obtain ⟨_,rfl⟩ := Answers.now answers
  have silent := (Run.obeys (cleanupBefore_silent _) next).1
  rcases told_here.mp told with rfl | told
  · exact ⟨u,rest,⟨_,rfl⟩,next⟩
  · exact absurd told (told_never silent)

end Cleanup

/-- The row with its mark as it has to be. -/
def settled (currentSlot : UInt64) (answers : Statuses) (row : DelegationRow) : DelegationRow :=
  { row with isActive := stays currentSlot answers row }

section Settled
variable {currentSlot : UInt64} {answers : Statuses} {d : Delegations} {p : DelegationRow → Bool}

theorem stays_active {row : DelegationRow} (h : row.isActive = false) : stays currentSlot answers row = false := by
  simp only [stays,h,Bool.false_and]

/-- Switching off all the rows that must not stay, and no other, settles the table. -/
theorem settled_rows (only : ∀ row ∈ d.rows, p row = true → row.isActive = true → stays currentSlot answers row = false)
    (all : ∀ row ∈ d.rows, row.isActive = true → stays currentSlot answers row = false → p row = true) :
    (d.switchOff p).rows = d.rows.map (settled currentSlot answers) := by
  apply List.map_congr_left
  intro row hrow
  unfold settled DelegationRow.off
  cases active : row.isActive with
  | false =>
    rw [stays_active active,← active,ite_self]
  | true =>
    cases meant : p row
    · have kept : stays currentSlot answers row = true := by
        by_contra gone
        rw [all row hrow active (Bool.not_eq_true _ ▸ gone)] at meant
        cases meant
      rw [kept,if_neg Bool.false_ne_true,← active]
    · rw [only row hrow meant active]
      rfl

/-- In a settled table nothing more is switched off. -/
theorem settled_still (settled_ : ∃ rows : List DelegationRow, d.rows = rows.map (settled currentSlot answers))
    (only : ∀ row ∈ d.rows, p row = true → row.isActive = true → stays currentSlot answers row = false) :
    d.switchOff p = d := by
  apply Delegations.ext
  change d.rows.map (DelegationRow.off p) = d.rows
  obtain ⟨rows,made⟩ := settled_
  refine (List.map_congr_left fun row hrow => ?_).trans (List.map_id _)
  have kept : row.isActive = true → stays currentSlot answers row = true := by
    rw [made] at hrow
    obtain ⟨old,_,rfl⟩ := List.mem_map.mp hrow
    intro active
    have before : stays currentSlot answers old = true := active
    simp only [stays,Bool.and_eq_true] at before ⊢
    exact ⟨⟨active,before.1.2⟩,before.2⟩
  unfold DelegationRow.off
  cases meant : p row
  · rfl
  · cases active : row.isActive
    · rw [if_pos rfl,← active]
      rfl
    · have gone := only row hrow meant active
      rw [kept active] at gone
      cases gone

end Settled

/-- A cleanup that goes through leaves exactly the rows active that were, have not expired, and whose proposer is
left alone, changes nothing else, and has nothing left to do; one that breaks off has switched off only rows that
must not stay. -/
theorem cleanup_exact {config : Config P} {answers : Statuses} {limits : Limits} {relay : ConstraintsApiConfig}
    {w w' : World P} {t t' : Nat} {es : Trace P} {r : Result Unit} {now : UInt64}
    (h : Run (world P limits relay) Eq (DelegationPolling.cleanupExpiredDelegations config) w t es r w' t')
    (told : Told es .now now) (answered : AnsweredBy answers es) :
    w' = { w with delegations := w'.delegations } ∧
    (r = .ok () → w'.delegations.rows = w.delegations.rows.map
        (settled (BeaconTiming.currentSlotEstimate config.beaconApi.genesisTime now) answers) ∧
      ∀ es₂ r₂ w₂ t₂ t₃ now₂, Run (world P limits relay) Eq (DelegationPolling.cleanupExpiredDelegations config) w' t₂ es₂ r₂ w₂ t₃ →
        Told es₂ .now now₂ → BeaconTiming.currentSlotEstimate config.beaconApi.genesisTime now₂ =
          BeaconTiming.currentSlotEstimate config.beaconApi.genesisTime now → AnsweredBy answers es₂ → w₂ = w') ∧
    ∃ p : DelegationRow → Bool, w'.delegations.rows = w.delegations.rows.map (DelegationRow.off p) ∧
      ∀ row ∈ w.delegations.rows, p row = true → row.isActive = true →
        stays (BeaconTiming.currentSlotEstimate config.beaconApi.genesisTime now) answers row = false := by
  have small := current_small config.beaconApi.genesisTime now
  obtain ⟨u,es',⟨_,rfl⟩,run⟩ := cleanup_before h told
  obtain ⟨p,rfl,only,all⟩ := cleanupBefore_run small run answered.tail
  refine ⟨rfl,fun done => ?_,p,rfl,only⟩
  have rows := settled_rows only (all done)
  refine ⟨rows,?_⟩
  intro es₂ r₂ w₂ t₂ t₃ now₂ h₂ told₂ same answered₂
  obtain ⟨u₂,es₂',⟨_,rfl⟩,run₂⟩ := cleanup_before h₂ told₂
  rw [same] at run₂
  obtain ⟨p₂,rfl,only₂,_⟩ := cleanupBefore_run small run₂ answered₂.tail
  rw [settled_still ⟨_,rows⟩ only₂]

/-- The third proposer is slashed, and of the sixth nothing is known. -/
def known (proposer : BlsPublicKey) : Except String ValidatorInfo :=
  if proposer = key 3 then .ok ⟨true, true⟩ else if proposer = key 6 then .error "timeout" else .ok eligible

/-- Whether the clock showed 61 seconds and the statuses were answered so. -/
def knownAt61 (es : Trace (platform offer)) : Bool :=
  es.any (fun e =>
    match e with
    | ⟨.plain .now, shown, _, _, _, _⟩ => shown = 61
    | _ => false) &&
  es.all (fun e =>
    match e with
    | ⟨.plain (.validatorStatus proposer), reply, _, _, _, _⟩ => reply = known proposer
    | _ => true)

private theorem knownAt61_told {es : Trace (platform offer)} (h : knownAt61 es = true) :
    Told es .now 61 ∧ AnsweredBy known es := by
  obtain ⟨clock,told⟩ := Bool.and_eq_true_iff.mp h
  constructor
  · obtain ⟨e,he,shown⟩ := List.any_eq_true.mp clock
    split at shown
    · obtain rfl := of_decide_eq_true shown
      exact ⟨_,_,_,_,he⟩
    · cases shown
  · rintro pubkey reply ⟨_,_,_,_,he⟩
    exact of_decide_eq_true (List.all_eq_true.mp told _ he)

/-- The delegation of the slashed proposer goes and the one that is too old; those of proposers in good standing or not
known stay. -/
theorem cleanup_exact_several : ∃ es w', Run small.machine Eq (DelegationPolling.cleanupExpiredDelegations small.config)
    { stored with delegations := several } 61000 es (.ok ()) w' 61000 ∧
      w'.delegations.rows = several.rows.map (settled 5 known) ∧
      w'.delegations.rows.map DelegationRow.isActive = [false, true, false, true, false, true] := by
  have run : (small.machine.play [(.done, 61000), (.done, 61000), (.delegations [(newDelegationOf (delegation 3 stranger 5)).row 0,
      (newDelegationOf (delegation 2 own 5)).row 1, (newDelegationOf (delegation 2 own 6)).row 3,
      (newDelegationOf (delegation 6 own 6)).row 5], 61000), (.status (known (key 3)), 61000), (.done, 61000),
      (.status (known (key 2)), 61000), (.status (known (key 2)), 61000), (.status (known (key 6)), 61000)]
        (DelegationPolling.cleanupExpiredDelegations small.config) { stored with delegations := several } 61000).any
          (fun out => knownAt61 out.1 && out.2.1 = .ok () && out.2.2.2 = 61000 &&
            out.2.2.1.delegations.rows.map DelegationRow.isActive = [false, true, false, true, false, true]) = true := by
    decide +kernel
  obtain ⟨⟨es,r,w',t'⟩,hplay,hp⟩ := (Option.any_eq_true _ _).mp run
  simp only [Bool.and_eq_true,decide_eq_true_eq] at hp
  obtain ⟨⟨⟨slashed,rfl⟩,rfl⟩,gone⟩ := hp
  obtain ⟨told,answered⟩ := knownAt61_told slashed
  have ran := Machine.play_run _ hplay
  obtain ⟨rows,_⟩ := (cleanup_exact ran told answered).2.1 rfl
  exact ⟨es,w',ran,rows,gone⟩

end PreconfGateway.Properties.DelegationCleanup
