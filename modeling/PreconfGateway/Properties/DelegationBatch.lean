import PreconfGateway.Fixture

/-! One poll of a slot against any reply of the relay. The entries that the poll accepts go
into the table in one transaction, so one of them that the table refuses keeps all of them out. -/
namespace PreconfGateway.Properties.DelegationBatch
open Encoding Types Db Crypto Services Interleaving Fixture
variable {P : Platform}

section Firsts
variable {α β κ : Type} [DecidableEq κ]

/-- The first of each key that is not taken yet. -/
def firsts (key : α → κ) (taken : List κ) : List α → List α
  | [] => []
  | a :: as => if key a ∈ taken then firsts key taken as else a :: firsts key (taken ++ [key a]) as

/-- What is attached to the elements does not decide which are the first ones. -/
theorem firsts_zipWith (row : α → β → γ) (key : α → κ) (key' : γ → κ) (same : ∀ a b, key' (row a b) = key a)
    (taken : List κ) (as : List α) (bs : List β) (long : bs.length = as.length) :
    ∃ bs', bs'.length = (firsts key taken as).length ∧
      firsts key' taken (as.zipWith row bs) = (firsts key taken as).zipWith row bs' := by
  induction as generalizing taken bs with
  | nil => exact ⟨[],rfl,by simp [firsts]⟩
  | cons a as ih =>
    cases bs with
    | nil => cases long
    | cons b bs =>
      rw [List.length_cons,List.length_cons,Nat.add_right_cancel_iff] at long
      simp only [List.zipWith_cons_cons,firsts,same]
      split
      · exact ih taken bs long
      · obtain ⟨bs',hl,he⟩ := ih (taken ++ [key a]) bs long
        exact ⟨b :: bs',by simp [hl],by rw [List.zipWith_cons_cons,he]⟩

theorem firsts_map (f : α → β) {key : β → κ} (taken : List κ) (as : List α) :
    firsts key taken (as.map f) = (firsts (fun a => key (f a)) taken as).map f := by
  induction as generalizing taken with
  | nil => rfl
  | cons a as ih =>
    simp only [List.map_cons,firsts]
    split
    · exact ih taken
    · rw [List.map_cons,ih]

end Firsts

theorem insert_checked {d d' : Delegations} {r : DelegationRow} {found : Option Nat}
    (h : d.insert r = some (found, d')) : r.checks = true := by
  unfold Delegations.insert at h
  split at h
  · assumption
  · cases h

theorem insert_firsts {d d' : Delegations} {r : DelegationRow} {found : Option Nat}
    (h : d.insert r = some (found, d')) :
    (r.key ∈ d.rows.map DelegationRow.key ∧ found = none ∧ d' = d) ∨
      (r.key ∉ d.rows.map DelegationRow.key ∧ found = some r.id ∧ d'.rows = d.rows ++ [r]) := by
  unfold Delegations.insert at h
  split at h
  · split at h
    · rename_i key
      cases h
      exact .inl ⟨key,rfl,rfl⟩
    · rename_i key
      split at h
      · cases h
      · cases h
        exact .inr ⟨key,rfl,rfl⟩
  · cases h

/-- A batch that goes through has been checked row by row, and adds the first of each new key. -/
theorem insertAll_firsts {d d' : Delegations} {rs : List DelegationRow} {found : List (Option Nat)}
    (h : d.insertAll rs = some (found, d')) : (∀ r ∈ rs, r.checks = true) ∧
      d'.rows = d.rows ++ firsts DelegationRow.key (d.rows.map DelegationRow.key) rs ∧
        found.filterMap id = (firsts DelegationRow.key (d.rows.map DelegationRow.key) rs).map DelegationRow.id := by
  induction rs generalizing d found with
  | nil =>
    cases h
    exact ⟨by simp,by simp [firsts],rfl⟩
  | cons r rs ih =>
    simp only [Delegations.insertAll,Option.bind_eq_bind,Option.bind_eq_some_iff,Prod.exists] at h
    obtain ⟨first,d₁,h₁,ids,d₂,h₂,he⟩ := h
    cases he
    obtain ⟨checked,rows,returned⟩ := ih h₂
    refine ⟨?_,?_⟩
    · intro x hx
      rcases List.mem_cons.mp hx with rfl | hx
      · exact insert_checked h₁
      · exact checked x hx
    · rcases insert_firsts h₁ with ⟨key,rfl,rfl⟩ | ⟨key,rfl,hr⟩
      · rw [firsts,if_pos key]
        exact ⟨rows,returned⟩
      · rw [hr,List.map_append] at rows returned
        rw [firsts,if_neg key]
        constructor
        · rw [rows,List.append_assoc]
          rfl
        · exact congrArg (r.id :: ·) returned

section Spec
variable (config : Config P) (status : BlsPublicKey → Except String ValidatorInfo)

/-- The proposer is known to be active and not slashed. -/
def goodProposer (d : SignedDelegation) : Bool :=
  match status d.message.proposer with
  | .ok info => DelegationPolling.eligible info
  | .error _ => false

/-- An entry that names the own key, verifies and comes from a good proposer. -/
def entitled (d : SignedDelegation) : Bool :=
  d.message.delegate = config.signing.blsPublicKey && decide (Verifies P d) && goodProposer status d

/-- The constraints of the table, which do not read the id. -/
def storable (d : SignedDelegation) : Bool := ((newDelegationOf d).row 0).checks

def entryKey (d : SignedDelegation) : Bytes × Int64 := ((newDelegationOf d).row 0).key

/-- The first entry for each proposer and slot without a row, among those to be stored. -/
def wanted (w : World P) (ds : List SignedDelegation) : List SignedDelegation :=
  firsts entryKey (w.delegations.rows.map DelegationRow.key) (ds.filter (fun d => entitled config status d && storable d))

/-- The table has its old rows and those that are wanted. -/
def Stores (w w' : World P) (ds : List SignedDelegation) : Prop :=
  ∃ ids : List Nat, ids.length = (wanted config status w ds).length ∧
    w'.delegations.rows = w.delegations.rows ++
      List.zipWith NewDelegation.row ((wanted config status w ds).map newDelegationOf) ids

end Spec

section Poll
variable {limits : Limits} {relay : ConstraintsApiConfig} {config : Config P} {slot : UInt64}
  {status : BlsPublicKey → Except String ValidatorInfo} {w w' : World P} {t t' : Nat} {es : Trace P}

/-- The statuses that a run was told are those of the oracle. -/
def Consulted (status : BlsPublicKey → Except String ValidatorInfo) (es : Trace P) : Prop :=
  ∀ key reply, Told es (.validatorStatus key) reply → reply = status key

/-- The relay has sent this body, and nothing else. -/
def Heard (slot : UInt64) (body : Bytes) (es : Trace P) : Prop :=
  ∀ reply, Told es (.getDelegations slot) reply → reply = .ok ⟨200, some body⟩

/-- Only a constraint of the table makes an insert fail. -/
def Available (es : Trace P) : Prop :=
  ∀ news e, Told es (.sql (.insertDelegations news)) (.error e) → ∃ n ∈ news, (n.row 0).checks = false

/-- Asking the relay or a client of a chain changes nothing here. -/
theorem asking_same {q : Query P} {r : q.Reply} (h : (world P limits relay).Answers t w (.plain q) r w')
    (sql : ∀ s, q ≠ .sql s) (post : ∀ m, q ≠ .postConstraints m) : w' = w := by
  have changes := Changes.of_answers h
  change Changes w q w' at changes
  cases changes with
  | same => rfl
  | switchedOff _ p how => rcases how with ⟨_,he,_⟩ | ⟨_,he,_⟩ <;> exact absurd he (sql _)
  | taken m => exact absurd rfl (post m)
  | _ => exact absurd rfl (sql _)

/-- The third filter keeps the entries of good proposers. -/
theorem filter_run {ds kept : List SignedDelegation} (consulted : Consulted status es)
    (h : Run (world P limits relay) Eq (DelegationPolling.filterEligibleDelegations ds) w t es kept w' t') :
    kept = ds.filter (goodProposer status) ∧ w' = w := by
  induction ds generalizing w w' t t' es kept with
  | nil =>
    obtain ⟨_,rfl,rfl,_⟩ := h.ret_inv
    exact ⟨rfl,rfl⟩
  | cons d ds ih =>
    obtain ⟨w₁,u,reply,w₂,rest,rfl,rfl,_,_,answers,next⟩ := run_ask h
    have here := consulted d.message.proposer reply (told_here.mpr (.inl rfl))
    subst here
    obtain rfl := asking_same answers nofun nofun
    obtain ⟨es₁,others,w₃,t₁,es₂,rfl,hothers,last⟩ := next.bind_inv
    have after (key : BlsPublicKey) (reply : Except String ValidatorInfo) (told : Told es₁ (.validatorStatus key) reply) :
        reply = status key := by
      obtain ⟨_,_,_,_,hm⟩ := told
      exact consulted key reply ⟨_,_,_,_,List.mem_cons_of_mem _ (List.mem_append_left _ hm)⟩
    obtain ⟨rfl,rfl⟩ := ih after hothers
    rw [List.filter_cons,goodProposer]
    generalize status d.message.proposer = answer at last ⊢
    cases answer with
    | error e =>
      obtain ⟨_,rfl,rfl,_⟩ := last.ret_inv
      exact ⟨rfl,rfl⟩
    | ok info =>
      obtain ⟨_,rfl,rfl,_⟩ := last.ret_inv
      exact ⟨rfl,rfl⟩

/-- What the first three filters leave. -/
def batch (config : Config P) (status : BlsPublicKey → Except String ValidatorInfo) (ds : List SignedDelegation) :
    List SignedDelegation := ds.filter (entitled config status)

private theorem batch_filters (ds : List SignedDelegation) : batch config status ds =
    ((ds.filter (fun d => d.message.delegate = config.signing.blsPublicKey)).filter
      (fun d => BlsManager.verifyDelegationSignature P d = .ok true)).filter (goodProposer status) := by
  rw [List.filter_filter,List.filter_filter]
  refine List.filter_congr fun d _ => ?_
  rw [Bool.eq_iff_iff]
  simp only [entitled,Bool.and_eq_true,decide_eq_true_eq]
  unfold Verifies
  tauto

theorem checkDelegation_verified {d : SignedDelegation} (h : Verifies P d) : checkDelegation P d = .ok () := by
  have valid : BlsManager.verifyDelegationSignature P d = .ok true := h
  rw [checkDelegation,valid]
  rfl

/-- A batch of verified entries is sent as one statement. -/
theorem save_run {ds : List SignedDelegation} {r : Result (List Nat)} (verified : ∀ d ∈ ds, Verifies P d)
    (h : Run (world P limits relay) Eq (saveDelegationsBatch P ds) w t es r w' t') : ∃ reply u,
      Told es (.sql (.insertDelegations (ds.map newDelegationOf))) reply ∧
        (world P limits relay).Answers u w (.plain (.sql (.insertDelegations (ds.map newDelegationOf)))) reply w' := by
  obtain ⟨oks,checked⟩ := mapM_total fun d hd => ⟨(),checkDelegation_verified (verified d hd)⟩
  rw [saveDelegationsBatch,checked] at h
  obtain ⟨w₁,u,reply,w₂,rest,rfl,rfl,_,_,answers,next⟩ := run_ask h
  have same : w' = w₂ := by
    cases reply with
    | error e => exact next.ret_inv.2.2.1
    | ok ids => exact next.ret_inv.2.2.1
  subst same
  exact ⟨reply,u,told_here.mpr (.inl rfl),answers⟩

/-- A poll of one slot sends at most one statement, with the whole batch. -/
theorem poll_run {body : Bytes} {ds : List SignedDelegation} {r : Result Nat} (heard : Heard slot body es)
    (parsed : P.delegationsResponseFromJson body = .ok ds) (consulted : Consulted status es)
    (h : Run (world P limits relay) Eq (DelegationPolling.pollDelegationsForSlot config slot) w t es r w' t') :
    (batch config status ds = [] ∧ w' = w) ∨ ∃ reply u,
      Told es (.sql (.insertDelegations ((batch config status ds).map newDelegationOf))) reply ∧
        (world P limits relay).Answers u w
          (.plain (.sql (.insertDelegations ((batch config status ds).map newDelegationOf)))) reply w' := by
  obtain ⟨es₁,fetched,w₁,t₁,es₂,rfl,fetch,rest⟩ := h.bind_inv
  obtain ⟨w₂,u,reply,w₃,es₃,rfl,rfl,_,_,answers,next⟩ := run_ask fetch
  have here := heard reply ⟨_,_,_,_,List.mem_append_left _ List.mem_cons_self⟩
  subst here
  obtain rfl := asking_same answers nofun nofun
  simp only [if_true,parsed,Except.mapError] at next
  obtain ⟨rfl,rfl,rfl,rfl⟩ := next.ret_inv
  dsimp only at rest
  rw [batch_filters]
  have verified (d : SignedDelegation) (hd : d ∈ (ds.filter (fun d => d.message.delegate = config.signing.blsPublicKey)).filter
      (fun d => BlsManager.verifyDelegationSignature P d = .ok true)) : Verifies P d :=
    of_decide_eq_true (List.mem_filter.mp hd).2
  generalize ((ds.filter (fun d => d.message.delegate = config.signing.blsPublicKey)).filter
    (fun d => BlsManager.verifyDelegationSignature P d = .ok true)) = candidates at rest verified
  split at rest
  · rename_i none
    obtain ⟨_,_,rfl,_⟩ := rest.ret_inv
    rw [List.isEmpty_iff.mp none]
    exact .inl ⟨rfl,rfl⟩
  · obtain ⟨es₄,kept,w₄,t₄,es₅,rfl,filtering,storing⟩ := rest.bind_inv
    have asked : Consulted status es₄ := by
      rintro key reply ⟨_,_,_,_,hm⟩
      exact consulted key reply ⟨_,_,_,_,List.mem_append_right _ (List.mem_append_left _ hm)⟩
    obtain ⟨rfl,rfl⟩ := filter_run asked filtering
    split at storing
    · rename_i none
      obtain ⟨_,_,rfl,_⟩ := storing.ret_inv
      exact .inl ⟨List.isEmpty_iff.mp none,rfl⟩
    · obtain ⟨es₆,saved,w₅,t₅,es₇,rfl,saving,ending⟩ := storing.bind_inv
      obtain ⟨_,_,rfl,_⟩ := ending.ret_inv
      obtain ⟨reply,u,⟨_,_,_,_,hm⟩,answers⟩ := save_run (fun d hd => verified d (List.mem_filter.mp hd).1) saving
      exact .inr ⟨reply,u,⟨_,_,_,_,List.mem_append_right _ (List.mem_append_right _ (List.mem_append_left _ hm))⟩,
        answers⟩

/-- An insert that is carried out has found every entry storable and stores the first of each new key. -/
theorem carried_out {news : List NewDelegation} {c : Choice} {found : List (Option Nat)}
    (h : Statement.execute w (.insertDelegations news) c = some (found, w')) :
    (∀ n ∈ news, (n.row 0).checks = true) ∧
      (found.filterMap id).length =
        (firsts (fun n => (NewDelegation.row n 0).key) (w.delegations.rows.map DelegationRow.key) news).length ∧
      w'.delegations.rows = w.delegations.rows ++ List.zipWith NewDelegation.row
        (firsts (fun n => (NewDelegation.row n 0).key) (w.delegations.rows.map DelegationRow.key) news)
          (found.filterMap id) := by
  cases c with
  | ids given =>
    obtain ⟨long,hx⟩ := Option.ite_none_right_eq_some.mp h
    obtain ⟨⟨found,rows⟩,added,he⟩ := Option.map_eq_some_iff.mp hx
    cases he
    obtain ⟨checked,kept,returned⟩ := insertAll_firsts added
    constructor
    · intro n hn
      obtain ⟨i,hi,rfl⟩ := List.getElem_of_mem hn
      have within_ : i < (news.zipWith NewDelegation.row given).length := by
        rw [List.length_zipWith]
        omega
      have row := checked _ (List.getElem_mem within_)
      rw [List.getElem_zipWith] at row
      exact row
    · obtain ⟨stored,hl,hz⟩ := firsts_zipWith NewDelegation.row (fun n => (NewDelegation.row n 0).key)
        DelegationRow.key (fun _ _ => rfl) (w.delegations.rows.map DelegationRow.key) news given long
      have own : found.filterMap id = stored := by
        rw [returned,hz,List.map_zipWith,← List.map_uncurry_zip_eq_zipWith]
        exact List.map_snd_zip (Nat.le_of_eq hl)
      rw [own,← hz]
      exact ⟨hl,kept⟩
  | _ => cases h

/-- A statement that failed although it could not be carried out has done nothing. -/
private theorem refused_same {news : List NewDelegation} {e : DbError} (bad : ∃ n ∈ news, (n.row 0).checks = false)
    (h : (world P limits relay).Answers t w (.plain (.sql (.insertDelegations news))) (.error e) w') : w' = w := by
  obtain ⟨c,h⟩ := h
  rcases respond_sql h with ⟨ids,c',hx,_⟩ | ⟨same,_⟩
  · obtain ⟨n,hn,failing⟩ := bad
    exact nomatch failing.symm.trans ((carried_out hx).1 n hn)
  · exact same

private theorem wanted_batch (ds : List SignedDelegation) : wanted config status w ds =
    firsts entryKey (w.delegations.rows.map DelegationRow.key) ((batch config status ds).filter storable) := by
  rw [wanted,batch,List.filter_filter]
  refine congrArg _ (List.filter_congr fun d _ => ?_)
  exact Bool.and_comm _ _

private theorem stores_nothing (ds : List SignedDelegation) :
    Stores config status w w ds ↔ wanted config status w ds = [] := by
  constructor
  · rintro ⟨ids,long,rows⟩
    rcases List.zipWith_eq_nil_iff.mp (List.self_eq_append_right.mp rows) with none | none
    · exact List.map_eq_nil_iff.mp none
    · rw [none,List.length_nil] at long
      exact List.length_eq_zero_iff.mp long.symm
  · intro none
    exact ⟨[],by rw [none]; rfl,by rw [none]; simp⟩

/-- One entry that the table refuses keeps the whole batch out, and nothing else does. -/
theorem batch_stored_iff {body : Bytes} {ds : List SignedDelegation} {r : Result Nat} (heard : Heard slot body es)
    (parsed : P.delegationsResponseFromJson body = .ok ds) (consulted : Consulted status es) (available : Available es)
    (h : Run (world P limits relay) Eq (DelegationPolling.pollDelegationsForSlot config slot) w t es r w' t') :
    Stores config status w w' ds ↔
      (∀ d ∈ ds, entitled config status d = true → storable d = true) ∨ wanted config status w ds = [] := by
  have whole : (∀ d ∈ ds, entitled config status d = true → storable d = true) ↔
      ∀ n ∈ (batch config status ds).map newDelegationOf, (n.row 0).checks = true := by
    simp only [batch,List.forall_mem_map,List.mem_filter,and_imp,storable]
  rcases poll_run heard parsed consulted h with ⟨none,rfl⟩ | ⟨reply,u,told,answers⟩
  · have empty : wanted config status w' ds = [] := by
      rw [wanted_batch,none]
      rfl
    rw [stores_nothing]
    simp only [empty,or_true]
  · cases reply with
    | error e =>
      have bad := available _ e told
      obtain rfl := refused_same bad answers
      rw [stores_nothing,whole]
      constructor
      · exact .inr
      · rintro (all | none)
        · obtain ⟨n,hn,failing⟩ := bad
          exact nomatch failing.symm.trans (all n hn)
        · exact none
    | ok ids =>
      obtain ⟨c,hx⟩ := Answers.executed answers
      obtain ⟨checked,long,rows⟩ := carried_out hx
      have all := whole.mpr checked
      have same : (wanted config status w ds).map newDelegationOf =
          firsts (fun n => (NewDelegation.row n 0).key) (w.delegations.rows.map DelegationRow.key)
            ((batch config status ds).map newDelegationOf) := by
        rw [wanted_batch,List.filter_eq_self.mpr,firsts_map]
        · rfl
        · intro d hd
          obtain ⟨listed,fit⟩ := List.mem_filter.mp hd
          exact all d listed fit
      rw [← same] at long rows
      rw [List.length_map] at long
      exact ⟨fun _ => .inl all,fun _ => ⟨_,long,rows⟩⟩

theorem inserted_answers {news : List NewDelegation} {ids : List Nat} {found : List (Option Nat)}
    (h : Statement.execute w (.insertDelegations news) (.ids ids) = some (found, w')) :
    (world P limits relay).Answers t w (.plain (.sql (.insertDelegations news))) (.ok found) w' := by
  refine ⟨.ids ids,?_⟩
  change (Statement.execute w (.insertDelegations news) (.ids ids)).map _ = _
  rw [h]
  rfl

/-- The clients can answer the filter as the oracle says. -/
private theorem filter_meets (status : BlsPublicKey → Except String ValidatorInfo) (ds : List SignedDelegation) :
    ∃ es, Run (world P limits relay) Eq (DelegationPolling.filterEligibleDelegations ds) w t es
        (ds.filter (goodProposer status)) w t ∧
      Consulted status es ∧ ∀ q r, Told es q r → ∃ key, q = .validatorStatus key := by
  induction ds with
  | nil => exact ⟨[],.ret _ _ _,fun _ _ told => absurd told told_nil,fun _ _ told => absurd told told_nil⟩
  | cons d ds ih =>
    obtain ⟨es,filtered,consulted,only⟩ := ih
    have ending : Run (world P limits relay) Eq (match status d.message.proposer with
        | .ok info => pure (if DelegationPolling.eligible info then d :: ds.filter (goodProposer status)
            else ds.filter (goodProposer status))
        | .error _ => pure (ds.filter (goodProposer status))) w t [] ((d :: ds).filter (goodProposer status)) w t := by
      rw [List.filter_cons,goodProposer]
      cases status d.message.proposer with
      | error e => exact .ret _ _ _
      | ok info => exact .ret _ _ _
    refine ⟨_,ask_step (r := status d.message.proposer) ⟨.status (status d.message.proposer),rfl⟩ (filtered.bind ending),?_,?_⟩
    · intro key reply told
      rw [List.append_nil] at told
      obtain ⟨_,_,_,_,hm⟩ := told
      rcases List.mem_cons.mp hm with he | hm
      · cases he
        rfl
      · exact consulted key reply ⟨_,_,_,_,hm⟩
    · intro q r told
      rw [List.append_nil] at told
      obtain ⟨_,_,_,_,hm⟩ := told
      rcases List.mem_cons.mp hm with he | hm
      · cases he
        exact ⟨_,rfl⟩
      · exact only q r ⟨_,_,_,_,hm⟩

/-- What a call returns when the database says this. -/
def savedReply : Except DbError (List (Option Nat)) → Result (List Nat)
  | .error e => .error [batchContext e.stage, e.message]
  | .ok ids => .ok (ids.filterMap id)

/-- A batch of verified entries goes to the database, whatever this answers. -/
theorem save_meets {ds : List SignedDelegation} (verified : ∀ d ∈ ds, Verifies P d)
    {reply : Except DbError (List (Option Nat))}
    (answers : (world P limits relay).Answers t w (.plain (.sql (.insertDelegations (ds.map newDelegationOf)))) reply w') :
    Run (world P limits relay) Eq (saveDelegationsBatch P ds) w t
      [⟨.plain (.sql (.insertDelegations (ds.map newDelegationOf))), reply, t, t, w, w'⟩] (savedReply reply) w' t := by
  obtain ⟨oks,checked⟩ := mapM_total fun d hd => ⟨(),checkDelegation_verified (verified d hd)⟩
  rw [saveDelegationsBatch,checked]
  cases reply with
  | error e => exact ask_step answers (.ret _ _ _)
  | ok ids => exact ask_step answers (.ret _ _ _)

/-- A poll with something to send meets its oracles, whatever the database then answers. -/
theorem poll_meets {body : Bytes} {ds : List SignedDelegation} (config : Config P)
    (parsed : P.delegationsResponseFromJson body = .ok ds) (some_ : batch config status ds ≠ [])
    {reply : Except DbError (List (Option Nat))}
    (answers : (world P limits relay).Answers t w
      (.plain (.sql (.insertDelegations ((batch config status ds).map newDelegationOf)))) reply w')
    (refused : ∀ e, reply = .error e → ∃ n ∈ (batch config status ds).map newDelegationOf, (n.row 0).checks = false) :
    ∃ es r, Run (world P limits relay) Eq (DelegationPolling.pollDelegationsForSlot config slot) w t es r w' t ∧
      Heard slot body es ∧ Consulted status es ∧ Available es := by
  let candidates := (ds.filter (fun d => d.message.delegate = config.signing.blsPublicKey)).filter
    (fun d => BlsManager.verifyDelegationSignature P d = .ok true)
  obtain ⟨es,filtered,consulted,only⟩ := @filter_meets _ limits relay w t status candidates
  have same : candidates.filter (goodProposer status) = batch config status ds := (batch_filters ds).symm
  rw [same] at filtered
  have verified (d : SignedDelegation) (hd : d ∈ batch config status ds) : Verifies P d := by
    rw [← same] at hd
    exact of_decide_eq_true (List.mem_filter.mp (List.mem_filter.mp hd).1).2
  have fetch : Run (world P limits relay) Eq (Api.getDelegationsForSlot P slot) w t
      [⟨.plain (.getDelegations slot), .ok ⟨200, some body⟩, t, t, w, w⟩] (.ok ds) w t := by
    refine ask_step (q := .getDelegations slot) (r := .ok ⟨200, some body⟩) ⟨.response (.ok ⟨200, some body⟩),rfl⟩ ?_
    simp only [if_true,parsed,Except.mapError]
    exact .ret _ _ _
  have save := save_meets verified answers
  generalize savedReply reply = saved at save
  have open_ : ¬ candidates.isEmpty := by
    intro none
    rw [List.isEmpty_iff.mp none] at same
    exact some_ same.symm
  have whole : Run (world P limits relay) Eq (DelegationPolling.pollDelegationsForSlot config slot) w t
      ([⟨.plain (.getDelegations slot), .ok ⟨200, some body⟩, t, t, w, w⟩] ++ (es ++
        ([⟨.plain (.sql (.insertDelegations ((batch config status ds).map newDelegationOf))), reply, t, t, w, w'⟩] ++ [])))
      ((saved.mapError (fun e => ("Failed to save delegations for slot " ++ toString slot) :: e)).map List.length) w' t := by
    refine fetch.bind ?_
    dsimp only
    rw [if_neg open_]
    refine filtered.bind ?_
    rw [if_neg (by simpa using some_)]
    exact save.bind (.ret _ _ _)
  refine ⟨_,_,whole,?_,?_,?_⟩
  · rintro reply' ⟨_,_,_,_,hm⟩
    rcases List.mem_append.mp hm with hm | hm
    · cases List.mem_singleton.mp hm
      rfl
    · rcases List.mem_append.mp hm with hm | hm
      · obtain ⟨key,he⟩ := only _ _ ⟨_,_,_,_,hm⟩
        cases he
      · rw [List.append_nil] at hm
        cases List.mem_singleton.mp hm
  · rintro key reply' ⟨_,_,_,_,hm⟩
    rcases List.mem_append.mp hm with hm | hm
    · cases List.mem_singleton.mp hm
    · rcases List.mem_append.mp hm with hm | hm
      · exact consulted key reply' ⟨_,_,_,_,hm⟩
      · rw [List.append_nil] at hm
        cases List.mem_singleton.mp hm
  · rintro news e ⟨_,_,_,_,hm⟩
    rcases List.mem_append.mp hm with hm | hm
    · cases List.mem_singleton.mp hm
    · rcases List.mem_append.mp hm with hm | hm
      · obtain ⟨key,he⟩ := only _ _ ⟨_,_,_,_,hm⟩
        cases he
      · rw [List.append_nil] at hm
        cases List.mem_singleton.mp hm
        exact refused e rfl

end Poll

/-- The own address without its prefix, which the signature does not mind and the table does. -/
def bare : String := "abcdabcdabcdabcdabcdabcdabcdabcdabcdabcd"

/-- Two entries from different proposers, the first with the bare address. -/
def mixed : List SignedDelegation := [delegation 3 bare 5,delegation 2 own 5]

/-- A gateway to which the relay offers both. -/
abbrev misled : Gateway (platform mixed) := gateway mixed [own] [] 2

/-- The second entry is to be stored and is not, because of the first. -/
theorem bare_blocks_other : ∃ es r, Run misled.machine Eq (DelegationPolling.pollDelegationsForSlot misled.config 5)
      (.empty _) 0 es r (.empty _) 0 ∧ Heard 5 (Json.printed (listing mixed)) es ∧ Consulted (fun _ => .ok eligible) es ∧
        Available es ∧ ¬ Stores misled.config (fun _ => .ok eligible) (.empty _) (.empty _) mixed := by
  have some_ : batch misled.config (fun _ => .ok eligible) mixed ≠ [] := by decide +kernel
  have wanted_ : wanted misled.config (fun _ => .ok eligible) (.empty _) mixed ≠ [] := by decide +kernel
  have bad : ∃ n ∈ (batch misled.config (fun _ => .ok eligible) mixed).map newDelegationOf,
      (n.row 0).checks = false := by
    decide +kernel
  have answers : misled.machine.Answers 0 (.empty _) (.plain (.sql (.insertDelegations
      ((batch misled.config (fun _ => .ok eligible) mixed).map newDelegationOf))))
        (.error ⟨.written, "violates check constraint"⟩) (.empty _) := ⟨.failed _,rfl⟩
  obtain ⟨es,r,run,heard,consulted,available⟩ := @poll_meets _ _ _ 5 _ _ _ _ _ _ misled.config (listing_read mixed) some_ _
    answers (fun _ _ => bad)
  exact ⟨es,r,run,heard,consulted,available,(stores_nothing mixed).not.mpr wanted_⟩

/-- The third proposer is slashed, and of the fourth nothing is known. -/
def said (proposer : BlsPublicKey) : Except String ValidatorInfo :=
  if proposer = key 3 then .ok ⟨true, true⟩ else if proposer = key 4 then .error "timeout" else .ok eligible

/-- An offer with a delegation listed twice, one that has its row, one that is not signed, one for another key, and
those of proposers that are slashed or not known. -/
def crowd : List SignedDelegation :=
  [delegation 3 own 5, delegation 2 own 5, delegation 2 own 5, delegation 4 own 5, delegation 5 own 5,
    { delegation 6 own 5 with signature := ⟨List.replicate 96 0, rfl⟩ },
    { delegation 8 own 5 with message := ⟨key 8, key 9, own, 5⟩ }, delegation 7 own 5]

abbrev crowded : Gateway (platform crowd) := gateway crowd [own] [] 2

/-- The fifth proposer's delegation is stored. -/
def partly : World (platform crowd) where
  commitments := .empty
  delegations := ⟨[(newDelegationOf (delegation 5 own 5)).row 0], by decide, by decide, by decide +kernel⟩
  congestion := .empty
  accepted := []

/-- Of all that is offered two delegations are stored, once each. -/
theorem batch_stored_crowd : ∃ es r w', Run crowded.machine Eq (DelegationPolling.pollDelegationsForSlot crowded.config 5)
      partly 0 es r w' 0 ∧ Stores crowded.config said partly w' crowd ∧
        w'.delegations.rows.map DelegationRow.key = [((key 5).bytes, 5), ((key 2).bytes, 5), ((key 7).bytes, 5)] := by
  have carried : (Statement.execute partly (.insertDelegations ((batch crowded.config said crowd).map newDelegationOf))
      (.ids [10, 11, 12, 13])).any (fun out => out.2.delegations.rows.map DelegationRow.key =
        [((key 5).bytes, 5), ((key 2).bytes, 5), ((key 7).bytes, 5)]) = true := by
    decide +kernel
  obtain ⟨⟨ids,w'⟩,hx,keys⟩ := (Option.any_eq_true _ _).mp carried
  have some_ : batch crowded.config said crowd ≠ [] := by decide +kernel
  have fit : ∀ d ∈ crowd, entitled crowded.config said d = true → storable d = true := by decide +kernel
  have answers := @inserted_answers _ crowded.limits crowded.config.constraintsApi _ _ 0 _ _ _ hx
  obtain ⟨es,r,run,heard,consulted,available⟩ := @poll_meets _ _ _ 5 _ _ _ _ _ _ crowded.config (listing_read crowd) some_ _
    answers nofun
  exact ⟨es,r,w',run,(batch_stored_iff heard (listing_read crowd) consulted available run).mpr (.inl fit),
    of_decide_eq_true keys⟩

end PreconfGateway.Properties.DelegationBatch
