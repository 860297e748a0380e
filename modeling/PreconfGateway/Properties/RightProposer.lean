import PreconfGateway.Properties.OrphanedCommitment
import PreconfGateway.Properties.RequestHash

/-! Whose name the messages for a slot carry. The handler asks who proposes the slot, and a pass
over the slot makes a message for every delegation to the own key. -/
namespace PreconfGateway.Properties.RightProposer
open Encoding Types Db Crypto Interleaving Rpc Services Fixture Authorisation DelegationLookup LegitimateRequest
open RequestHash OrphanedCommitment
variable {P : Platform} {g : Gateway P} {w w' : World P} {s : State (requests P) (World P) Job Outcome}
  {slot : UInt64} {row : CommitmentRow} {d : SignedDelegation} {m : SignedConstraints} {es : Trace P} {t t' : Nat}

/-- The message is for the slot, and has the constraint of a row that waited for it. -/
structure Carries (w : World P) (slot : UInt64) (m : SignedConstraints) (row : CommitmentRow) : Prop where
  waiting : Waiting w slot row
  slot_eq : m.message.slot = slot
  constraint : ⟨1, row.payload⟩ ∈ m.message.constraints

/-- The message names the proposer whose delegation has authorised its commitments. -/
def Named (g : Gateway P) (s : State (requests P) (World P) Job Outcome) (slot : UInt64) (m : SignedConstraints) : Prop :=
  ∀ row d, Carries s.world slot m row → AuthorisedBy g s row slot d → m.message.proposer = d.message.proposer

/-- Every message has authorised commitments and names their proposer, and what is marked was in
such a message that the relay had taken. -/
structure Rightly (g : Gateway P) (s : State (requests P) (World P) Job Outcome) (slot : UInt64) (es : Trace P) :
    Prop where
  messages : ∀ m reply, Told es (.postConstraints m) reply →
    (∃ row d, Carries s.world slot m row ∧ AuthorisedBy g s row slot d) ∧ Named g s slot m
  marks : ∀ before e after hashes, es = before ++ e :: after → e.op.query = .sql (.updateProcessed hashes) →
    ∀ row ∈ s.world.commitments.rows, row.requestHash ∈ hashes →
      ∃ m, Accepted before m ∧ Carries s.world slot m row ∧ Named g s slot m

/-- The active delegations that spell their committer as a waiting commitment spells its slasher are
from the proposer whose delegation has authorised the commitment. -/
def OneProposer (g : Gateway P) (s : State (requests P) (World P) Job Outcome) (slot : UInt64) : Prop :=
  ∀ d row d', Held s.world slot d → Waiting s.world slot row → d.message.committer = row.slasher →
    AuthorisedBy g s row slot d' → d.message.proposer = d'.message.proposer

section Authorised

theorem authorised_slasher (h : AuthorisedBy g s row slot d) :
    normalizeAddress row.slasher = normalizeAddress g.config.signing.committerAddress := by
  obtain ⟨request,older,new,id,createdAt,_,parts,⟨rows,ds,t,u,w,w',_,_,found⟩,later⟩ := h
  have slasher : row.slasher = new.slasher := by rw [later.1]; rfl
  rw [slasher,parts.columns.2.2,← (findDelegation_some found).2.2,parts.committer]

theorem waiting_authorised (hr : Reachable g.system (.empty P) s) (h : Waiting s.world slot row) :
    ∃ d, AuthorisedBy g s row slot d := by
  obtain ⟨slot',d,authorised⟩ := stored_authorised rfl hr h.stored (fun _ hm => nomatch hm)
  obtain ⟨_,_,_,new,_,saw,inserts,_,_,slot_eq,same,column⟩ := authorised_saw authorised
  obtain ⟨found,extracts,_,stored⟩ := SlotColumn.sent_slot rfl hr saw inserts
  rw [← same,slot_eq] at extracts
  cases extracts
  have number : slot'.toInt64 = slot.toInt64 := Option.some.inj (stored.symm.trans (column.symm.trans h.column))
  have one : slot' = slot := by
    rw [← UInt64.toUInt64_toInt64 slot',number,UInt64.toUInt64_toInt64]
  subst one
  exact ⟨d,authorised⟩

/-- Waiting commitments of one slot for the same payload are one: both are for the own address. -/
theorem waiting_unique (hr : Reachable g.system (.empty P) s) {row' : CommitmentRow} (h : Waiting s.world slot row)
    (h' : Waiting s.world slot row') (payload : row.payload = row'.payload) : row = row' := by
  obtain ⟨d,authorised⟩ := waiting_authorised hr h
  obtain ⟨d',authorised'⟩ := waiting_authorised hr h'
  have slasher := (authorised_slasher authorised).trans (authorised_slasher authorised').symm
  obtain ⟨e,he,hash⟩ := hash_of_encoding (stored_hash rfl rfl hr h.stored)
  obtain ⟨e',he',hash'⟩ := hash_of_encoding (stored_hash rfl rfl hr h'.stored)
  obtain ⟨a,ha,_⟩ := request_encoding he
  obtain ⟨a',ha',_⟩ := request_encoding he'
  have repeats : Repeats (requestOf row) (requestOf row') := by
    refine ⟨?_,payload,?_⟩
    · rw [requestOf,requestOf,h.type,h'.type]
    · rw [ha,ha',parseEthereumAddress_congr slasher ha ha']
  rw [(encoding_repeats he he').mpr repeats,← hash'] at hash
  exact Commitments.hash_injective h.stored h'.stored hash

end Authorised

section Pass

/-- Before each answer of a pass the delegations are those of its start, and the rows come from rows
of its start. -/
theorem pass_worlds {α : Type} {p : Async P α} {a : α} (h : Run g.machine Eq p w t es a w' t')
    (asked : ∀ e ∈ es, PassOp slot e.op) : ∀ e ∈ es, g.machine.Answers e.stop e.pre e.op e.reply e.post ∧
      e.pre.delegations = w.delegations ∧ ∀ r ∈ e.pre.commitments.rows, ∃ r₀ ∈ w.commitments.rows, r₀.Later r := by
  induction h with
  | ret => exact fun e he => nomatch he
  | @call op k w w₁ w₂ w' t u t' reply es a other later inTime answers rest ih =>
    cases other
    have changes := Changes.of_answers answers
    have kept : w₂.delegations = w.delegations ∧
        ∀ r ∈ w₂.commitments.rows, ∃ r₀ ∈ w.commitments.rows, r₀.Later r := by
      have own := asked _ List.mem_cons_self
      dsimp only at own
      have same (r : CommitmentRow) (hr : r ∈ w.commitments.rows) : ∃ r₀ ∈ w.commitments.rows, r₀.Later r :=
        ⟨r,hr,rfl,fun set => set⟩
      cases own with
      | mark hashes =>
        cases changes with
        | same => exact ⟨rfl,same⟩
        | marked =>
          refine ⟨rfl,fun r hr => ?_⟩
          obtain ⟨r₀,hr₀,rfl⟩ := List.mem_map.mp hr
          exact ⟨r₀,hr₀,r₀.later_processed hashes⟩
        | switchedOff _ _ how => rcases how with ⟨_,hq,_⟩ | ⟨_,hq,_⟩ <;> cases hq
      | _ =>
        cases changes with
        | switchedOff _ _ how => rcases how with ⟨_,hq,_⟩ | ⟨_,hq,_⟩ <;> cases hq
        | _ => exact ⟨rfl,same⟩
    intro e he
    rcases List.mem_cons.mp he with rfl | he
    · exact ⟨answers,rfl,fun r hr => ⟨r,hr,rfl,fun set => set⟩⟩
    · obtain ⟨answers',delegations,rows⟩ := ih (fun e he => asked e (List.mem_cons_of_mem _ he)) e he
      refine ⟨answers',delegations.trans kept.1,fun r hr => ?_⟩
      obtain ⟨r₁,hr₁,later₁⟩ := rows r hr
      obtain ⟨r₀,hr₀,later₀⟩ := kept.2 r₁ hr₁
      refine ⟨r₀,hr₀,?_,fun set => later₁.2 (later₀.2 set)⟩
      rw [later₁.1,later₀.1]

/-- What a pass has made a message from: a delegation that was held at its start, and rows that waited. -/
theorem flying_source {r : Result Unit}
    (h : Run g.machine Eq (ConstraintSubmission.processConstraintsForSlot g.blsManager g.config slot) w t es r w' t')
    {older : Trace P} (part : older ⊆ es) {committer : String} {batch : List CommitmentRow}
    (flying : InFlight g older m committer batch) : m.message.slot = slot ∧
      (∃ d, Held w slot d ∧ d.message.proposer = m.message.proposer ∧ d.message.committer = committer) ∧
        ∀ r ∈ batch, Waiting w slot r ∧ r.slasher = committer := by
  have asked := (h.obeys (pass_obeys g slot)).1
  have worlds := pass_worlds h asked
  obtain ⟨rows,u,v,pre,post,row,read,hrow,proposer,_,committed⟩ := flying.delegated
  have slot_eq : m.message.slot = slot := by
    have own := asked _ (part read)
    generalize number : m.message.slot.toInt64 = n at own
    cases own
    rw [← UInt64.toUInt64_toInt64 m.message.slot,number,UInt64.toUInt64_toInt64]
  obtain ⟨answers,delegations,_⟩ := worlds _ (part read)
  obtain ⟨perm,_⟩ := Answers.selectDelegations answers
  dsimp only at delegations perm
  rw [delegations,slot_eq] at perm
  have held := perm.mem_iff.mp hrow
  obtain ⟨d,hd,_⟩ := signedDelegationOf_checked (w.delegations.checked row (List.mem_of_mem_filter held))
  have columns := signedDelegationOf_columns hd
  refine ⟨slot_eq,⟨d,⟨row,held,hd⟩,?_,columns.2.2.symm.trans committed⟩,?_⟩
  · have bytes := columns.1.symm.trans proposer
    cases hp : d.message.proposer
    cases hm : m.message.proposer
    rw [hp,hm] at bytes
    cases bytes
    rfl
  · obtain ⟨fits,found,u',v',pre',post',read',rfl⟩ := flying.batched
    obtain ⟨answers',_,earlier⟩ := worlds _ (part read')
    obtain ⟨perm',_,_⟩ := Answers.selectUnprocessed answers'
    intro r hr
    obtain ⟨listed,kept⟩ := List.mem_filter.mp hr
    obtain ⟨there,pending⟩ := List.mem_filter.mp (perm'.mem_iff.mp listed)
    simp only [chosen,Bool.and_eq_true,Bool.not_eq_true',decide_eq_true_eq] at kept pending
    obtain ⟨r₀,hr₀,later⟩ := earlier r there
    have unmarked : r₀.constraintProcessed = false := by
      rw [← Bool.not_eq_true]
      intro set
      exact absurd (later.2 set) (by simp [pending.2])
    have same : r = r₀ := by
      rw [later.1,pending.2,← unmarked]
    rw [same] at kept pending ⊢
    exact ⟨⟨hr₀,unmarked,by rw [pending.1,slot_eq],kept.2⟩,kept.1⟩

/-- The whole pass keeps the promise of a tick. -/
theorem pass_submits {r : Result Unit}
    (h : Run g.machine Eq (ConstraintSubmission.processConstraintsForSlot g.blsManager g.config slot) w t es r w' t') :
    (submission g).Kept g.machine es.reverse := by
  have submits : (submission g).Safe g.machine (fun _ _ _ _ => True)
      (ConstraintSubmission.processConstraintsForSlot g.blsManager g.config slot) [] w t := processConstraintsForSlot_submits
  have kept := submits.run h trivial
    (fun v _ _ he => ⟨trivial,by cases he; exact World.Evolves.refl v⟩) (fun _ _ _ => trivial)
    (fun _ _ _ _ _ _ => trivial) trivial
  rw [List.append_nil] at kept
  exact kept.1

/-- A pass can turn to any delegation that it reads first, and then posts what waits for its committer. -/
theorem delegation_posts (t : Nat) (parse : BuildersParse g) (fits : i64TryFrom slot = some slot.toInt64)
    (waiting : Waiting w slot row) (spelt : d.message.committer = row.slasher) :
    ∃ es r w', Run g.machine Eq (ConstraintSubmission.processDelegationConstraints g.blsManager g.config d slot)
      w t es r w' t ∧ ∃ m reply, Told es (.postConstraints m) reply ∧ Carries w slot m row ∧
        m.message.proposer = d.message.proposer := by
  obtain ⟨es₁,batch,read,answered⟩ := batch_exists g w d.message.committer fits t
  obtain ⟨_,rows,perm,rfl⟩ := batch_run fits read answered
  have listed : row ∈ rows.filter (chosen d.message.committer) := by
    refine List.mem_filter.mpr ⟨perm.mem_iff.mpr (List.mem_filter.mpr ⟨waiting.stored,?_⟩),?_⟩
    · simp [waiting.column,waiting.unmarked]
    · simp [chosen,spelt,waiting.type]
  have filled : (rows.filter (chosen d.message.committer)).map constraintOf ≠ [] := by
    simpa using List.ne_nil_of_mem listed
  generalize rows.filter (chosen d.message.committer) = batch at read listed filled
  obtain ⟨receivers,parsed⟩ := parse
  obtain ⟨m,built,parts⟩ : ∃ m, ConstraintSubmission.buildSignedConstraints g.blsManager g.config d slot
      (batch.map constraintOf) = .ok m ∧ m.message.proposer = d.message.proposer ∧ m.message.slot = slot ∧
        m.message.constraints = batch.map constraintOf := by
    unfold ConstraintSubmission.buildSignedConstraints
    rw [parsed]
    exact ⟨_,rfl,rfl,rfl,rfl⟩
  obtain ⟨proposer,slot_eq,constraints⟩ := parts
  have asks : (ConstraintSubmission.submitAndMark g.config m (batch.map CommitmentRow.requestHash)).Obeys (PassOp slot)
      (fun _ => True) := submitAndMark_obeys (.post m (by rw [constraints]; exact filled)) .pause .mark
  obtain ⟨es₂,r,w',submits,_⟩ := undisturbed_run asks g w t
  have posted : ∃ reply, Told es₂ (.postConstraints m) reply := by
    obtain ⟨left,enough⟩ := Nat.exists_eq_add_of_le' (Nat.le_max_left 1 g.config.constraintsApi.maxRetries)
    unfold ConstraintSubmission.submitAndMark Api.submitConstraints Api.maxAttempts at submits
    rw [enough] at submits
    obtain ⟨es₃,_,_,_,es₄,rfl,first,_⟩ := submits.bind_inv
    obtain ⟨_,_,reply,_,_,rfl,_⟩ := run_ask first
    exact ⟨reply,_,_,_,_,List.mem_cons_self⟩
  obtain ⟨reply,told⟩ := posted
  refine ⟨es₁ ++ es₂,r,w',read.bind ?_,m,reply,?_,⟨waiting,slot_eq,?_⟩,proposer⟩
  · dsimp only
    rw [if_neg (by simpa using filled),built]
    exact submits
  · obtain ⟨t,u,v,v',hm⟩ := told
    exact ⟨t,u,v,v',List.mem_append_right _ hm⟩
  · rw [constraints]
    exact List.mem_map.mpr ⟨row,listed,rfl⟩

/-- Some pass posts a message in the name of any active delegation that spells its committer as a
waiting commitment spells its slasher. -/
theorem pass_posts (t : Nat) (parse : BuildersParse g) (own : d.message.delegate = g.config.signing.blsPublicKey)
    (held : Held w slot d) (waiting : Waiting w slot row) (spelt : d.message.committer = row.slasher) :
    ∃ es r w', Run g.machine Eq (ConstraintSubmission.processConstraintsForSlot g.blsManager g.config slot)
      w t es r w' t ∧ ∃ m reply, Told es (.postConstraints m) reply ∧ Carries w slot m row ∧
        m.message.proposer = d.message.proposer := by
  have fits := SlotColumn.fits_of_nonneg (held_checked held).2
  obtain ⟨rows,ds,perm,read⟩ := held_first held
  have select : g.machine.Answers t w (.plain (.sql (.selectDelegations slot.toInt64))) (.ok rows) w :=
    ⟨.delegations rows,by simp [Gateway.machine,world,Op.respond,Query.respond,Statement.execute,List.isPerm_iff,perm]⟩
  obtain ⟨es₁,r,w₁,first,m,reply,⟨a,u,v,v',told⟩,carries,proposer⟩ := delegation_posts t parse fits waiting spelt
  have others : (ConstraintSubmission.processDelegations g.blsManager g.config slot ds).Obeys (PassOp slot)
      (fun _ => True) := processDelegations_obeys .pending (fun m _ filled => .post m filled) .pause .mark
  obtain ⟨es₂,_,w',rest,_⟩ := undisturbed_run others g w₁ t
  have turns : Run g.machine Eq (ConstraintSubmission.processDelegations g.blsManager g.config slot (d :: ds)) w t
      (es₁ ++ es₂) () w' t := by
    unfold ConstraintSubmission.processDelegations
    rw [if_pos own]
    exact first.bind rest
  have fetched : Run g.machine Eq (getDelegationsForSlot P slot) w t _ (.ok (d :: ds)) w t :=
    ask_step select (by dsimp only; rw [read]; exact .ret _ _ _)
  refine ⟨_,.ok (),w',fetched.bind (turns.bind (.ret _ _ _)),m,reply,⟨a,u,v,v',?_⟩,carries,proposer⟩
  exact List.mem_append_right _ (List.mem_append_left _ (List.mem_append_left _ told))

end Pass

/-- Every pass over the slot issues its messages in the name of the proposer whose delegation has
authorised their commitments, exactly if no active delegation of another proposer spells its committer
as one of the waiting commitments spells its slasher, or the builders' keys do not parse. -/
theorem right_proposer_iff (g : Gateway P) (hr : Reachable g.system (.empty P) s) (slot : UInt64) :
    (∀ es r w' t', Run g.machine Eq (ConstraintSubmission.processConstraintsForSlot g.blsManager g.config slot)
      s.world s.clock es r w' t' → Rightly g s slot es) ↔ (BuildersParse g → OneProposer g s slot) := by
  constructor
  · intro rightly parse d row d' held waiting spelt authorised
    have trusted := ((authorisation_verified g).sound (fun _ => trusted_of_empty rfl) hr).inv .pollDelegations
    have own : d.message.delegate = g.config.signing.blsPublicKey := by
      obtain ⟨dr,hdr,hd⟩ := held
      exact (trusted dr (List.mem_of_mem_filter hdr) d hd).1
    obtain ⟨es,r,w',run,m,reply,told,carries,proposer⟩ := pass_posts s.clock parse own held waiting spelt
    rw [← proposer]
    exact ((rightly _ _ _ _ run).messages m reply told).2 row d' carries authorised
  · intro one es r w' t' run
    have kept := pass_submits run
    have posts {m : SignedConstraints} {older : Trace P} (part : older ⊆ es) {committer : String}
        {batch : List CommitmentRow} (flying : InFlight g older m committer batch) : Named g s slot m := by
      obtain ⟨slot_eq,⟨d,held,proposer,committed⟩,source⟩ := flying_source run part flying
      intro row d' carries authorised
      have listed := carries.constraint
      rw [flying.constraints] at listed
      obtain ⟨r,hb,same⟩ := List.mem_map.mp listed
      obtain ⟨waiting,slasher⟩ := source r hb
      have unique := waiting_unique hr waiting carries.waiting (Constraint.mk.inj same).2
      subst unique
      rw [← proposer]
      exact one ⟨_,flying.issued.receivers⟩ d r d' held waiting (committed.trans slasher.symm) authorised
    have past {newer older : Trace P} {e : Event (requests P) (World P)} (split : es.reverse = newer ++ e :: older) :
        older ⊆ es := by
      intro b hb
      rw [← List.mem_reverse,split]
      exact List.mem_append_right _ (List.mem_cons_of_mem _ hb)
    constructor
    · rintro m reply ⟨t,u,v,v',hm⟩
      obtain ⟨newer,older,split,_,_,_,_,owed⟩ := kept.mem (List.mem_reverse.mpr hm)
      obtain ⟨committer,batch,flying⟩ := owed.post m rfl
      refine ⟨?_,posts (past split) flying⟩
      have filled : m.message.constraints ≠ [] := by
        have own := (run.obeys (pass_obeys g slot)).1 _ hm
        cases own
        assumption
      obtain ⟨slot_eq,_,source⟩ := flying_source run (past split) flying
      rw [flying.constraints] at filled
      obtain ⟨r,hb⟩ := List.exists_mem_of_ne_nil batch (by simpa using filled)
      obtain ⟨waiting,_⟩ := source r hb
      obtain ⟨d,authorised⟩ := waiting_authorised hr waiting
      refine ⟨r,d,⟨waiting,slot_eq,?_⟩,authorised⟩
      rw [flying.constraints]
      exact List.mem_map.mpr ⟨r,hb,rfl⟩
    · intro before e after hashes split mark row hrow listed
      have turned : es.reverse = after.reverse ++ e :: before.reverse := by
        rw [split]
        simp
      rw [turned] at kept
      obtain ⟨_,_,_,_,owed⟩ := kept.split
      obtain ⟨m,committer,batch,flying,rfl,reply,⟨t,u,v,v',told⟩,ok⟩ := owed.mark hashes mark
      obtain ⟨slot_eq,_,source⟩ := flying_source run (past turned) flying
      obtain ⟨r,hb,same⟩ := List.mem_map.mp listed
      obtain ⟨waiting,_⟩ := source r hb
      have found := Commitments.hash_injective waiting.stored hrow same
      subst found
      refine ⟨m,⟨reply,⟨t,u,v,v',List.mem_reverse.mp told⟩,ok⟩,⟨waiting,slot_eq,?_⟩,posts (past turned) flying⟩
      rw [flying.constraints]
      exact List.mem_map.mpr ⟨r,hb,rfl⟩

/-- With one delegation every pass is in the name of the scheduled proposer. -/
theorem right_proposer_served : ∃ s : State (requests (platform offer)) (World (platform offer)) Job Outcome,
    Reachable small.system (.empty _) s ∧ Waiting s.world 5 servedRow ∧
      ∀ es r w' t', Run small.machine Eq
        (ConstraintSubmission.processConstraintsForSlot small.blsManager small.config 5) s.world s.clock es r w' t' →
          Rightly small s 5 es := by
  obtain ⟨s,hr,_,hw,_⟩ := Authorisation.served_reachable
  have active : ∀ d ∈ s.world.delegations.rows, d.isActive = true := by
    rw [hw]
    decide +kernel
  have waiting : Waiting s.world 5 servedRow := by
    rw [hw]
    exact ⟨List.mem_cons_self,rfl,by decide +kernel,rfl⟩
  refine ⟨s,hr,waiting,(right_proposer_iff small hr 5).mpr fun _ d row d' held _ _ authorised => ?_⟩
  have same : s.world.delegations = served.delegations := by rw [hw]
  rw [held_only same held,held_only same (authorised_held hr authorised active)]

/-- The beacon client names the second proposer. -/
def scheduling (e : Event (requests (platform rivals)) (World (platform rivals))) : Bool :=
  match e with
  | ⟨.plain (.proposerForSlot _), .ok duty, _, _, _, _⟩ => duty = some scheduled
  | _ => true

/-- What is left when the scheduled proposer's delegation was met first. -/
def disputed : World (platform rivals) where
  commitments := ⟨[(newCommitmentOf (platform rivals) signed 1).row 0 0], by decide, by decide, by decide +kernel⟩
  delegations := contested.delegations
  congestion := .empty
  accepted := []

theorem disputed_run : ∃ es, Run contest.machine Eq
    (commitmentRequestHandler contest.config (some (request 5 7 own))) contested 61000 es (.error .internalError)
      disputed 61000 ∧ es.all scheduling = true := by
  have admitted : admitRequest contest.config (request 5 7 own) = .ok (5, signed.commitment.requestHash) := by
    decide +kernel
  have order : (polled rivals).reverse.Perm (contested.delegations.activeForSlot 5) := by decide +kernel
  have read : (polled rivals).reverse.mapM signedDelegationOf = .ok rivals.reverse := by decide +kernel
  have found : findDelegation 5 own rivals.reverse = some (delegation 2 own 5) := by decide +kernel
  have verifies : Verifies (platform rivals) (delegation 2 own 5) := by decide +kernel
  have proposer : checkProposer 5 (delegation 2 own 5) (.ok (some scheduled)) = .ok () := by decide +kernel
  have signs : signRequest contest.config (request 5 7 own) signed.commitment.requestHash own = .ok signed := by
    decide +kernel
  have stores : (contest.machine.play [(.row 0 0, 61000),(.price (.error "down"), 61000)]
      (storeCommitment contest.config (request 5 7 own) 5 signed) contested 61000).any (fun out =>
        out.2.1 = .error .internalError && out.2.2.1.commitments.rows = disputed.commitments.rows &&
          out.2.2.1.delegations.rows = disputed.delegations.rows && out.2.2.1.congestion.rows = [] &&
            out.2.2.1.accepted = [] && out.2.2.2 = 61000 && out.1.all scheduling) = true := by
    decide +kernel
  have authorised : Run contest.machine Eq (authoriseRequest contest.config (request 5 7 own)) contested 61000 _
      (.ok (5, signed)) contested 61000 :=
    authoriseRequest_run admitted rfl order read found ((checkDelegationSignature_ok contest 5 own).mpr verifies)
      proposer signs 61000
  obtain ⟨⟨es,r,w,u⟩,hplay,hp⟩ := (Option.any_eq_true _ _).mp stores
  simp only [Bool.and_eq_true,decide_eq_true_eq] at hp
  obtain ⟨⟨⟨⟨⟨⟨rfl,commitments⟩,delegations⟩,congestion⟩,accepted⟩,rfl⟩,quiet⟩ := hp
  have hw : w = disputed := World.ext (Commitments.ext commitments) (Delegations.ext delegations)
    (Congestion.ext congestion) accepted
  subst hw
  rw [commitmentRequestHandler_split]
  refine ⟨_,authorised.bind (Machine.play_run _ hplay),?_⟩
  rw [List.all_append,quiet]
  simp [scheduling]

theorem disputed_reachable : ∃ s : State (requests (platform rivals)) (World (platform rivals)) Job Outcome,
    Reachable contest.system (.empty _) s ∧ s.world = disputed ∧
      ∀ id task params, s.tasks id = some task → task.job = .commitmentRequest params →
        task.trace.all scheduling = true := by
  have poll : (contest.system.script [poll rivals] (.empty _) 0).any (fun out =>
      out.2.1.commitments.rows = [] && out.2.1.delegations.rows = contested.delegations.rows &&
        out.2.1.congestion.rows = [] && out.2.1.accepted = [] && out.2.2 = 60100 && out.1.length = 1) = true := by
    decide +kernel
  obtain ⟨s,outs,hr,hi,hp,_,free,done⟩ := reach_of_script (.initial 0) (fun _ _ h => (by cases h))
    (fun i (_ : 0 ≤ i) => rfl) poll
  simp only [Bool.and_eq_true,decide_eq_true_eq] at hp
  obtain ⟨⟨⟨⟨⟨commitments,delegations⟩,congestion⟩,accepted⟩,clock⟩,played⟩ := hp
  obtain ⟨out,rfl⟩ := List.length_eq_one_iff.mp played
  obtain ⟨since,polls⟩ := done 0 (Fixture.poll rivals) out rfl rfl
  have hw : s.world = contested := World.ext (Commitments.ext commitments) (Delegations.ext delegations)
    (Congestion.ext congestion) accepted
  obtain ⟨es,serves,named⟩ := disputed_run
  have call : Run contest.machine Eq (contest.system.code (.commitmentRequest (some (request 5 7 own)))) s.world 61000
      (es ++ []) (.commitment (.error .internalError)) disputed 61000 := by
    rw [hw]
    exact serves.bind (.ret (Outcome.commitment (.error .internalError)) disputed 61000)
  obtain ⟨s',hr',_,hw',_,mine,others⟩ := (hr.wait hi (t := 61000) (by omega)).run hi (free 1 (Nat.le_refl 1)) trivial
    call (fun _ _ _ => trivial)
  refine ⟨s',hr',hw',fun id task params ht job => ?_⟩
  match id with
  | 0 =>
    cases polls.symm.trans ((others 0 (by omega)).symm.trans ht)
    cases job
  | 1 =>
    cases mine.symm.trans ht
    rw [List.append_nil,List.all_reverse]
    exact named
  | n + 2 => cases ((others (n + 2) (by omega)).trans (free (n + 2) (Nat.le_add_left 1 (n + 1)))).symm.trans ht

/-- The commitment was authorised by the scheduled proposer, and a pass sends it in the name of the other. -/
theorem rival_named : ∃ (s : State (requests (platform rivals)) (World (platform rivals)) Job Outcome) (es : Trace _)
    (r : Result Unit) (w' : World (platform rivals)), Reachable contest.system (.empty _) s ∧
      Run contest.machine Eq (ConstraintSubmission.processConstraintsForSlot contest.blsManager contest.config 5)
        s.world s.clock es r w' s.clock ∧
          ∃ m reply row d, Told es (.postConstraints m) reply ∧ Carries s.world 5 m row ∧
            AuthorisedBy contest s row 5 d ∧ m.message.proposer ≠ d.message.proposer := by
  obtain ⟨s,hr,hw,named⟩ := disputed_reachable
  have waiting : Waiting s.world 5 ((newCommitmentOf (platform rivals) signed 1).row 0 0) := by
    rw [hw]
    exact ⟨List.mem_cons_self,rfl,by decide +kernel,rfl⟩
  have held : Held s.world 5 (delegation 3 own 5) := by
    rw [hw]
    exact ⟨(newDelegationOf (delegation 3 own 5)).row 0,by decide +kernel,by decide +kernel⟩
  obtain ⟨d,authorised⟩ := waiting_authorised hr waiting
  have second : d.message.proposer = key 2 := by
    obtain ⟨_,older,_,_,_,⟨id,task,newer,e,ht,job,split,_⟩,⟨_,_,_,_,_,_,_,_,_,_,⟨duty,t,u,v,v',asked,parsed⟩,_⟩,_⟩ := authorised
    have all := named id task _ ht job
    rw [List.all_eq_true] at all
    have told := all _ (by rw [split]; exact List.mem_append_right _ (List.mem_cons_of_mem _ asked))
    cases of_decide_eq_true told
    exact Except.ok.inj (parsed.symm.trans DelegationLookup.scheduled_names)
  have parse : BuildersParse contest := ⟨[],rfl⟩
  obtain ⟨es,r,w',run,m,reply,told,carries,proposer⟩ := pass_posts s.clock parse rfl held waiting rfl
  refine ⟨s,es,r,w',hr,run,m,reply,_,d,told,carries,authorised,?_⟩
  rw [proposer,second]
  decide +kernel

end PreconfGateway.Properties.RightProposer
