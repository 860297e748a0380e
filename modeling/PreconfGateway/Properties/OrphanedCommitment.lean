import PreconfGateway.Properties.Delivery
import PreconfGateway.Properties.LegitimateRequest

/-! Which signed commitments a pass over their slot delivers. The handler takes two spellings of
an address for one committer, and the filter of a batch does not. -/
namespace PreconfGateway.Properties.OrphanedCommitment
open Encoding Types Db Crypto Interleaving Rpc Services Fixture Authorisation DelegationLookup LegitimateRequest
variable {P : Platform} {g : Gateway P}

/-- The runs of calls and polls. -/
def serving (g : Gateway P) : System (requests P) (World P) Job Outcome :=
  g.system.starting (fun job => job = .pollDelegations ∨ ∃ params, job = .commitmentRequest params)

/-- The relay accepts every POST, and the database reports no error. -/
structure Undisturbed (es : Trace P) : Prop where
  posts : ∀ m reply, Told es (.postConstraints m) reply → succeeded reply = true
  sql : ∀ s e, ¬ Told es (.sql s) (.error e)

/-- The row is marked, and its payload is in a message for the slot that the relay has taken. -/
structure Fulfilled (w : World P) (slot : UInt64) (row : CommitmentRow) : Prop where
  marked : ∃ r ∈ w.commitments.rows, row.Later r ∧ r.constraintProcessed = true
  taken : ∃ m ∈ w.accepted, m.message.slot = slot ∧ ⟨1, row.payload⟩ ∈ m.message.constraints

/-- The commitment was signed for the slot, under a delegation that is still active. -/
structure Promised (g : Gateway P) (s : State (requests P) (World P) Job Outcome) (slot : UInt64)
    (row : CommitmentRow) : Prop where
  stored : row ∈ s.world.commitments.rows
  column : row.slotNumber = some slot.toInt64
  authorised : ∃ d, AuthorisedBy g s row slot d ∧ Held s.world slot d

def BuildersParse (g : Gateway P) : Prop :=
  ∃ receivers, ConstraintSubmission.parseAuthorizedBuilders g.config.constraintsApi.authorizedBuilders = .ok receivers

/-- Some active delegation of the slot spells its committer as the commitment spells its slasher. -/
def Spelt (w : World P) (slot : UInt64) (row : CommitmentRow) : Prop :=
  ∃ d, Held w slot d ∧ d.message.committer = row.slasher

/-- The row waits for its constraint. -/
structure Waiting (w : World P) (slot : UInt64) (row : CommitmentRow) : Prop where
  stored : row ∈ w.commitments.rows
  unmarked : row.constraintProcessed = false
  column : row.slotNumber = some slot.toInt64
  type : row.commitmentType = 1

section Undisturbed
variable {es es' : Trace P}

theorem Undisturbed.mono (h : Undisturbed es) (sub : es' ⊆ es) : Undisturbed es' := by
  constructor
  · rintro m reply ⟨t,u,w,w',hm⟩
    exact h.posts m reply ⟨t,u,w,w',sub hm⟩
  · rintro s e ⟨t,u,w,w',hm⟩
    exact h.sql s e ⟨t,u,w,w',sub hm⟩

theorem Undisturbed.parts (h : Undisturbed (es ++ es')) : Undisturbed es ∧ Undisturbed es' :=
  ⟨h.mono (List.subset_append_left _ _),h.mono (List.subset_append_right _ _)⟩

end Undisturbed

/-- What a pass over the slot asks for. -/
inductive PassOp (slot : UInt64) : Op P → Prop
  | authority : PassOp slot (.plain (.sql (.selectDelegations slot.toInt64)))
  | pending (number : Int64) : PassOp slot (.plain (.sql (.selectUnprocessed number)))
  | post (m : SignedConstraints) (filled : m.message.constraints ≠ []) : PassOp slot (.plain (.postConstraints m))
  | pause (ms : Nat) : PassOp slot (.plain (.sleep ms))
  | mark (hashes : List String) : PassOp slot (.plain (.sql (.updateProcessed hashes)))

/-- Whatever it does next, a pass can go on undisturbed. -/
theorem undisturbed_run {α : Type} {slot : UInt64} {p : Async P α} {post : α → Prop} (hp : p.Obeys (PassOp slot) post)
    (g : Gateway P) (w : World P) (t : Nat) : ∃ es a w', Run g.machine Eq p w t es a w' t ∧ Undisturbed es := by
  have answerable (op : Op P) (w : World P) (t : Nat) (asked : PassOp slot op) : ∃ r w', g.machine.InTime t op t ∧
      g.machine.Answers t w op r w' ∧ Undisturbed [⟨op, r, t, t, w, w'⟩] := by
    have inTime {q : Query P} : g.machine.InTime t (.plain q) t := by
      intro b hb
      cases hb
      exact Nat.le_add_right _ _
    have answered {s : Statement P} {v : s.Value} {w' : World P} :
        Undisturbed [⟨.plain (.sql s), .ok v, t, t, w, w'⟩] := by
      constructor
      · intro m reply told
        exact absurd ((told_other (by rintro ⟨⟩)).mp told) told_nil
      · rintro s' e ⟨_,_,_,_,hm⟩
        cases List.mem_singleton.mp hm
    cases asked with
    | authority =>
      refine ⟨.ok (w.delegations.activeForSlot slot.toInt64),w,inTime,
        ⟨.delegations (w.delegations.activeForSlot slot.toInt64),?_⟩,answered⟩
      simp [Gateway.machine,world,Op.respond,Query.respond,Statement.execute,List.isPerm_iff]
    | pending number =>
      obtain ⟨rows,answers⟩ := @unprocessed_answers P g.limits g.config.constraintsApi w number t
      exact ⟨.ok rows,w,inTime,answers,answered⟩
    | post m _ =>
      refine ⟨.ok ⟨200, none⟩,_,inTime,⟨.posted (.ok ⟨200, none⟩) true,rfl⟩,?_,?_⟩
      · rintro m' reply ⟨_,_,_,_,hm⟩
        cases List.mem_singleton.mp hm
        rfl
      · intro s e told
        exact absurd ((told_other (by rintro ⟨⟩)).mp told) told_nil
    | pause ms =>
      refine ⟨(),w,inTime,⟨.done,rfl⟩,?_,?_⟩
      · intro m' reply told
        exact absurd ((told_other (by rintro ⟨⟩)).mp told) told_nil
      · intro s e told
        exact absurd ((told_other (by rintro ⟨⟩)).mp told) told_nil
    | mark hashes => exact ⟨.ok _,_,inTime,⟨.done,rfl⟩,answered⟩
  obtain ⟨es,a,w',run,calm⟩ := @Program.Obeys.completes _ _ _ g.machine _ _ (fun e => Undisturbed [e]) _ hp answerable w t
  refine ⟨es,a,w',run,?_,?_⟩
  · rintro m reply ⟨t,u,w,w',hm⟩
    exact (calm _ hm).posts m reply ⟨t,u,w,w',List.mem_cons_self⟩
  · rintro s e ⟨t,u,w,w',hm⟩
    exact (calm _ hm).sql s e ⟨t,u,w,w',List.mem_cons_self⟩

theorem pass_obeys (g : Gateway P) (slot : UInt64) :
    (ConstraintSubmission.processConstraintsForSlot g.blsManager g.config slot).Obeys (PassOp slot)
      (fun _ => True) :=
  processConstraintsForSlot_obeys .pending (fun m _ filled => .post m filled) .pause .mark .authority

theorem run_evolves {limits : Limits} {relay : ConstraintsApiConfig} {α : Type} {p : Async P α} {a : α}
    {w w' : World P} {t t' : Nat} {es : Trace P} (h : Run (world P limits relay) Eq p w t es a w' t') :
    w.Evolves w' := by
  induction h with
  | ret => exact .refl _
  | call other _ _ answers _ ih =>
    cases other
    exact (Answers.evolves answers).trans ih

theorem Fulfilled.evolves {w w' : World P} {slot : UInt64} {row : CommitmentRow} (h : Fulfilled w slot row)
    (he : w.Evolves w') : Fulfilled w' slot row := by
  obtain ⟨⟨r,hr,later,set⟩,m,taken,hm⟩ := h
  obtain ⟨r',hr',later'⟩ := he.commitments r hr
  refine ⟨⟨r',hr',⟨?_,fun _ => later'.2 set⟩,later'.2 set⟩,m,he.accepted.subset taken,hm⟩
  rw [later'.1,later.1]

/-- A row that waits is not fulfilled. -/
theorem Waiting.unfulfilled {w : World P} {slot : UInt64} {row : CommitmentRow} (h : Waiting w slot row) :
    ¬ Fulfilled w slot row := by
  rintro ⟨⟨r,hr,later,set⟩,_⟩
  have same : r = row := Commitments.hash_injective hr h.stored (by rw [later.1])
  rw [same,h.unmarked] at set
  cases set

section Pass
variable {w w' : World P} {slot : UInt64} {row : CommitmentRow} {d : SignedDelegation} {es : Trace P} {t t' : Nat}

/-- The first POST is accepted. -/
theorem submit_accepted {m : SignedConstraints} {left : Nat} {r : Result Api.ConstraintSubmissionResponse}
    (h : Run g.machine Eq (Api.submitLoop P m (left + 1) 0 none) w t es r w' t') (undisturbed : Undisturbed es) :
    (∃ response, r = .ok response) ∧ w' = { w with accepted := w.accepted ++ [m] } := by
  obtain ⟨w₁,u,reply,w₂,rest,rfl,rfl,_,_,⟨c,answers⟩,next⟩ := run_ask h
  have taken := undisturbed.posts m reply (told_here.mpr (.inl rfl))
  change Query.respond u w (.postConstraints m) c = some (reply, w₂) at answers
  have posted : w₂ = { w with accepted := w.accepted ++ [m] } := by
    cases c <;> cases answers
    simp [taken]
  cases reply with
  | error e => cases taken
  | ok response =>
    have judged : Api.judge P 1 (.ok response) = .accepted ⟨response.status⟩ := if_pos taken
    rw [Nat.zero_add,judged] at next
    obtain ⟨_,rfl,rfl,_⟩ := next.ret_inv
    exact ⟨⟨_,rfl⟩,posted⟩

theorem mark_effect {hashes : List String} {r : Result Nat} (filled : hashes ≠ [])
    (h : Run g.machine Eq (markCommitmentsAsProcessed P hashes) w t es r w' t') (undisturbed : Undisturbed es) :
    w' = { w with commitments := w.commitments.markProcessed hashes } := by
  unfold markCommitmentsAsProcessed at h
  rw [if_neg (by simpa using filled)] at h
  obtain ⟨w₁,u,reply,w₂,rest,rfl,rfl,_,_,answers,next⟩ := run_ask h
  obtain ⟨_,_,rfl,_⟩ := next.ret_inv
  cases reply with
  | error e => exact absurd (told_here.mpr (.inl rfl)) (undisturbed.sql _ e)
  | ok count =>
    obtain ⟨c,executed⟩ := Answers.executed answers
    cases c <;> cases executed
    rfl

/-- One delegation takes all the rows of its batch together, or leaves everything as it was. -/
theorem delegation_effect {r : Result Unit} (fits : i64TryFrom slot = some slot.toInt64)
    (h : Run g.machine Eq (ConstraintSubmission.processDelegationConstraints g.blsManager g.config d slot)
      w t es r w' t') (undisturbed : Undisturbed es) :
    ∃ batch : List CommitmentRow, (∀ row, row ∈ batch ↔
        row ∈ w.commitments.unprocessed slot.toInt64 ∧ chosen d.message.committer row = true) ∧
      ((¬ (BuildersParse g ∧ batch ≠ []) ∧ w' = w) ∨
        ∃ m : SignedConstraints, m.message.slot = slot ∧ m.message.constraints = batch.map constraintOf ∧
          BuildersParse g ∧ w'.commitments = w.commitments.markProcessed (batch.map CommitmentRow.requestHash) ∧
            w'.accepted = w.accepted ++ [m]) := by
  obtain ⟨es₁,read,w₁,t₁,es₂,rfl,hread,h⟩ := h.bind_inv
  obtain ⟨calm₁,calm₂⟩ := undisturbed.parts
  obtain ⟨rfl,rows,perm,rfl⟩ := batch_run fits hread (fun e => calm₁.sql _ e)
  refine ⟨rows.filter (chosen d.message.committer),fun row => by rw [List.mem_filter,perm.mem_iff],?_⟩
  dsimp only at h
  split at h
  · rename_i none
    obtain ⟨_,_,rfl,_⟩ := h.ret_inv
    exact .inl ⟨fun both => both.2 (by simpa using none),rfl⟩
  · rename_i filled
    split at h
    · rename_i e built
      obtain ⟨_,_,rfl,_⟩ := h.ret_inv
      refine .inl ⟨?_,rfl⟩
      rintro ⟨⟨receivers,parsed⟩,_⟩
      unfold ConstraintSubmission.buildSignedConstraints at built
      rw [parsed] at built
      cases built
    · rename_i m built
      have parts : m.message.slot = slot ∧
          m.message.constraints = (rows.filter (chosen d.message.committer)).map constraintOf ∧ BuildersParse g := by
        unfold ConstraintSubmission.buildSignedConstraints at built
        obtain ⟨receivers,parsed,built⟩ := bind_ok.mp built
        cases built
        exact ⟨rfl,rfl,receivers,mapError_ok.mp parsed⟩
      refine .inr ⟨m,parts.1,parts.2.1,parts.2.2,?_⟩
      obtain ⟨left,enough⟩ := Nat.exists_eq_add_of_le' (Nat.le_max_left 1 g.config.constraintsApi.maxRetries)
      unfold ConstraintSubmission.submitAndMark Api.submitConstraints Api.maxAttempts at h
      rw [enough] at h
      obtain ⟨es₃,response,w₂,t₂,es₄,rfl,submitted,h⟩ := h.bind_inv
      obtain ⟨calm₃,calm₄⟩ := calm₂.parts
      obtain ⟨⟨_,rfl⟩,rfl⟩ := submit_accepted submitted calm₃
      obtain ⟨es₅,count,w₃,t₃,es₆,rfl,marked,h⟩ := h.bind_inv
      obtain ⟨_,_,rfl,_⟩ := h.ret_inv
      rw [mark_effect (by simpa using filled) marked calm₄.parts.1]
      exact ⟨rfl,rfl⟩

/-- The turn of a delegation fulfils what its committer spells, and leaves the rest waiting. -/
theorem delegation_step {r : Result Unit} (fits : i64TryFrom slot = some slot.toInt64)
    (h : Run g.machine Eq (ConstraintSubmission.processDelegationConstraints g.blsManager g.config d slot)
      w t es r w' t') (undisturbed : Undisturbed es) (waiting : Waiting w slot row) :
    (BuildersParse g ∧ d.message.committer = row.slasher → Fulfilled w' slot row) ∧
      (¬ (BuildersParse g ∧ d.message.committer = row.slasher) → Waiting w' slot row) := by
  obtain ⟨batch,mem,effect⟩ := delegation_effect fits h undisturbed
  have pending : row ∈ w.commitments.unprocessed slot.toInt64 := by
    refine List.mem_filter.mpr ⟨waiting.stored,?_⟩
    simp [waiting.column,waiting.unmarked]
  have listed : row ∈ batch ↔ d.message.committer = row.slasher := by
    rw [mem,chosen]
    simp [pending,waiting.type,eq_comm]
  rcases effect with ⟨idle,rfl⟩ | ⟨m,slot_eq,constraints,parse,marked,taken⟩
  · refine ⟨fun both => absurd ⟨both.1,?_⟩ idle,fun _ => waiting⟩
    exact List.ne_nil_of_mem (listed.mpr both.2)
  · constructor
    · intro both
      have hb := listed.mpr both.2
      refine ⟨⟨row.processed (batch.map CommitmentRow.requestHash),?_,row.later_processed _,?_⟩,m,?_,slot_eq,?_⟩
      · rw [marked]
        exact List.mem_map_of_mem waiting.stored
      · rw [CommitmentRow.processed,if_pos (List.mem_map_of_mem hb)]
      · rw [taken]
        exact List.mem_append_right _ List.mem_cons_self
      · rw [constraints]
        exact List.mem_map.mpr ⟨row,hb,rfl⟩
    · intro other
      have unlisted : row.requestHash ∉ batch.map CommitmentRow.requestHash := by
        intro hm
        obtain ⟨r,hb,same⟩ := List.mem_map.mp hm
        have held := List.mem_of_mem_filter ((mem r).mp hb).1
        rw [Commitments.hash_injective held waiting.stored same] at hb
        exact other ⟨parse,listed.mp hb⟩
      refine ⟨?_,waiting.unmarked,waiting.column,waiting.type⟩
      rw [marked]
      exact List.mem_map.mpr ⟨row,waiting.stored,if_neg unlisted⟩

/-- After the turns of all of them the row is fulfilled exactly if one of them spells its slasher. -/
theorem delegations_step {ds : List SignedDelegation} {r : Unit} (fits : i64TryFrom slot = some slot.toInt64)
    (own : ∀ d ∈ ds, d.message.delegate = g.config.signing.blsPublicKey)
    (h : Run g.machine Eq (ConstraintSubmission.processDelegations g.blsManager g.config slot ds) w t es r w' t')
    (undisturbed : Undisturbed es) (waiting : Waiting w slot row) :
    Fulfilled w' slot row ↔ BuildersParse g ∧ ∃ d ∈ ds, d.message.committer = row.slasher := by
  induction ds generalizing w t es with
  | nil =>
    obtain ⟨_,_,rfl,_⟩ := h.ret_inv
    simp [waiting.unfulfilled]
  | cons d ds ih =>
    unfold ConstraintSubmission.processDelegations at h
    rw [if_pos (own d List.mem_cons_self)] at h
    obtain ⟨es₁,_,w₁,t₁,es₂,rfl,first,rest⟩ := h.bind_inv
    obtain ⟨calm₁,calm₂⟩ := undisturbed.parts
    obtain ⟨fulfils,leaves⟩ := delegation_step fits first calm₁ waiting
    by_cases turn : BuildersParse g ∧ d.message.committer = row.slasher
    · have done := (fulfils turn).evolves (run_evolves rest)
      exact iff_of_true done ⟨turn.1,d,List.mem_cons_self,turn.2⟩
    · rw [ih (fun d hd => own d (List.mem_cons_of_mem _ hd)) rest calm₂ (leaves turn)]
      constructor
      · rintro ⟨parse,d',hd,spelt⟩
        exact ⟨parse,d',List.mem_cons_of_mem _ hd,spelt⟩
      · rintro ⟨parse,d',hd,spelt⟩
        rcases List.mem_cons.mp hd with rfl | hd
        · exact absurd ⟨parse,spelt⟩ turn
        · exact ⟨parse,d',hd,spelt⟩

/-- A pass over the slot fulfils a waiting row exactly if an active delegation spells its slasher. -/
theorem pass_fulfils {r : Result Unit} (fits : i64TryFrom slot = some slot.toInt64)
    (own : ∀ d, Held w slot d → d.message.delegate = g.config.signing.blsPublicKey)
    (run : Run g.machine Eq (ConstraintSubmission.processConstraintsForSlot g.blsManager g.config slot) w t es r w' t')
    (undisturbed : Undisturbed es) (waiting : Waiting w slot row) :
    Fulfilled w' slot row ↔ BuildersParse g ∧ Spelt w slot row := by
  obtain ⟨es₁,read,w₁,t₁,es₂,rfl,hread,h⟩ := run.bind_inv
  obtain ⟨calm₁,calm₂⟩ := undisturbed.parts
  obtain ⟨_,u,reply,w₂,rest,rfl,rfl,_,_,select,hback⟩ := run_ask hread
  rcases reply with e | rows
  · exact absurd (told_here.mpr (.inl rfl)) (calm₁.sql _ e)
  obtain ⟨perm,rfl⟩ := Answers.selectDelegations select
  obtain ⟨rfl,rfl,rfl,_⟩ := hback.ret_inv
  obtain ⟨ds,hds,mem⟩ := active_read perm
  rw [hds] at h
  obtain ⟨es₃,_,w₂,t₂,es₄,rfl,turns,h⟩ := h.bind_inv
  obtain ⟨_,_,rfl,_⟩ := h.ret_inv
  rw [delegations_step fits (fun d hd => own d ((mem d).mp hd)) turns calm₂.parts.1 waiting]
  unfold Spelt
  simp only [mem]

end Pass

section Serving
variable {w₀ : World P} {s : State (requests P) (World P) Job Outcome} {slot : UInt64} {row : CommitmentRow}
  {d : SignedDelegation}

/-- Calls and polls mark nothing, and every commitment of theirs is of type 1. -/
theorem Promised.waiting (hr : Reachable (serving g) (.empty P) s) (h : Promised g s slot row) :
    Waiting s.world slot row := by
  have wide := (g.system.starting_narrows _).reachable hr
  refine ⟨h.stored,?_,h.column,?_⟩
  · rw [← Bool.not_eq_true]
    intro set
    obtain ⟨id,task,_,_,ht,tick,_⟩ := Delivery.processed_origin wide (fun _ hm => nomatch hm) h.stored set
    rcases hr.started ht with poll | ⟨params,call⟩
    · cases poll.symm.trans tick
    · cases call.symm.trans tick
  · obtain ⟨d,⟨request,older,new,id,createdAt,_,authorised,_,later⟩,_⟩ := h.authorised
    rw [later.1]
    exact authorised.columns.1

theorem authorised_saw (h : AuthorisedBy g s row slot d) : ∃ id job e new older, s.Saw id job e ∧
    e.op.query = .sql (.insertCommitment new) ∧ (∀ b ∈ older, s.Saw id job b) ∧ ReadActive older slot d ∧
      PayloadParser.extractSlot P 1 row.payload = .ok slot ∧ row.payload = new.payload ∧
        row.slotNumber = new.slotNumber := by
  obtain ⟨request,older,new,rowId,createdAt,⟨id,task,newer,e,ht,_,split,inserts⟩,parts,_,later⟩ := h
  have seen {b : Event (requests P) (World P)} (hb : b = e ∨ b ∈ older) : s.Saw id task.job b := by
    refine ⟨task,ht,rfl,?_⟩
    rw [split]
    exact List.mem_append_right _ (List.mem_cons.mpr hb)
  have payload : row.payload = new.payload := by rw [later.1]; rfl
  exact ⟨id,task.job,e,new,older,seen (.inl rfl),inserts,fun b hb => seen (.inr hb),parts.read,
    by rw [payload]; exact parts.slot_eq,payload,by rw [later.1]; rfl⟩

/-- While no delegation is switched off, the one that has authorised a row is held. -/
theorem authorised_held (hr : Reachable g.system w₀ s) (h : AuthorisedBy g s row slot d)
    (active : ∀ r ∈ s.world.delegations.rows, r.isActive = true) : Held s.world slot d := by
  obtain ⟨id,job,_,_,older,_,_,seen,⟨rows,t,u,w,w',read,r,_,held,_,number,back⟩,_⟩ := authorised_saw h
  obtain ⟨_,answers,evolved⟩ := reached_event hr (seen _ read)
  obtain ⟨_,still⟩ := Answers.selectDelegations answers
  dsimp only at still evolved
  subst still
  obtain ⟨r',hr',later⟩ := evolved.delegations r held
  refine ⟨r',List.mem_filter.mpr ⟨hr',?_⟩,?_⟩
  · have same : r'.slotNumber = r.slotNumber := by rw [later.1]
    simp [same,number,active r' hr']
  · rw [later.1]
    exact back

theorem promised_of (hr : Reachable g.system (.empty P) s) (hrow : row ∈ s.world.commitments.rows)
    (payload : PayloadParser.extractSlot P 1 row.payload = .ok slot)
    (active : ∀ r ∈ s.world.delegations.rows, r.isActive = true) : Promised g s slot row := by
  obtain ⟨slot',d,authorised⟩ := stored_authorised rfl hr hrow (fun _ h => nomatch h)
  obtain ⟨_,_,_,new,_,saw,inserts,_,_,slot_eq,same,column⟩ := authorised_saw authorised
  cases slot_eq.symm.trans payload
  obtain ⟨found,extracts,_,stored⟩ := SlotColumn.sent_slot rfl hr saw inserts
  rw [← same,payload] at extracts
  cases extracts
  exact ⟨hrow,column.trans stored,d,authorised,authorised_held hr authorised active⟩

/-- No row of the slot that was signed under an active delegation is left behind exactly when the
builders' keys parse and each such row has its slasher spelt by an active delegation. -/
theorem no_orphan_iff (g : Gateway P) (hr : Reachable (serving g) (.empty P) s) (slot : UInt64) {t t' : Nat}
    {es : Trace P} {r : Result Unit} {w' : World P}
    (h : Run g.machine Eq (ConstraintSubmission.processConstraintsForSlot g.blsManager g.config slot) s.world t es r
      w' t') (undisturbed : Undisturbed es) :
    (∀ row, Promised g s slot row → Fulfilled w' slot row) ↔
      ∀ row, Promised g s slot row → BuildersParse g ∧ Spelt s.world slot row := by
  have wide := (g.system.starting_narrows _).reachable hr
  have trusted := ((authorisation_verified g).sound (fun _ => trusted_of_empty rfl) wide).inv .pollDelegations
  have own : ∀ d, Held s.world slot d → d.message.delegate = g.config.signing.blsPublicKey := by
    rintro d ⟨row,hrow,hd⟩
    exact (trusted row (List.mem_of_mem_filter hrow) d hd).1
  refine forall_congr' fun row => imp_congr_right fun promised => ?_
  obtain ⟨d,_,held⟩ := promised.authorised
  exact pass_fulfils (SlotColumn.fits_of_nonneg (held_checked held).2) own h undisturbed (promised.waiting hr)

end Serving
/-- The polled delegation is the only one. -/
theorem held_only {w : World (platform offer)} (same : w.delegations = served.delegations) {d : SignedDelegation}
    (h : Held w 5 d) : d = delegation 2 own 5 := by
  obtain ⟨row,hr,hd⟩ := h
  rw [same] at hr
  have only : row = (newDelegationOf (delegation 2 own 5)).row 0 :=
    List.mem_singleton.mp (List.mem_of_mem_filter hr)
  subst only
  have back : signedDelegationOf ((newDelegationOf (delegation 2 own 5)).row 0) = .ok (delegation 2 own 5) := by
    decide +kernel
  exact Except.ok.inj (hd.symm.trans back)

/-- A pass after the served call leaves nothing behind. -/
theorem no_orphan_served : ∃ (s : State (requests (platform offer)) (World (platform offer)) Job Outcome)
    (es : Trace (platform offer)) (r : Result Unit) (w' : World (platform offer)),
      Reachable (serving small) (.empty _) s ∧
        Run small.machine Eq (ConstraintSubmission.processConstraintsForSlot small.blsManager small.config 5)
          s.world s.clock es r w' s.clock ∧ Undisturbed es ∧ Promised small s 5 servedRow ∧
            ∀ row, Promised small s 5 row → Fulfilled w' 5 row := by
  obtain ⟨s,hr,_,hw,_,free,⟨poll,hpoll,polls⟩,call,hcall,calls,_⟩ := Authorisation.served_reachable
  have serves : Reachable (serving small) (.empty _) s := by
    refine hr.starting fun id task ht => ?_
    match id with
    | 0 =>
      cases hpoll.symm.trans ht
      exact .inl polls
    | 1 =>
      cases hcall.symm.trans ht
      exact .inr ⟨_,calls⟩
    | n + 2 => cases (free (n + 2) (by omega)).symm.trans ht
  have slot_eq : PayloadParser.extractSlot (platform offer) 1 servedRow.payload = .ok 5 := by decide +kernel
  have active : ∀ d ∈ s.world.delegations.rows, d.isActive = true := by
    rw [hw]
    decide +kernel
  have kept : servedRow ∈ s.world.commitments.rows := by
    rw [hw]
    exact List.mem_cons_self
  obtain ⟨es,r,w',run,undisturbed⟩ := undisturbed_run (pass_obeys small 5) small s.world s.clock
  refine ⟨s,es,r,w',serves,run,undisturbed,promised_of hr kept slot_eq active,?_⟩
  refine (no_orphan_iff small serves 5 run undisturbed).mpr fun row promised => ⟨⟨[],rfl⟩,?_⟩
  have only := promised.stored
  rw [hw] at only ⊢
  rw [List.mem_singleton.mp only]
  exact ⟨delegation 2 own 5,offer_held,rfl⟩

/-- What the client gets when it spells the slasher with a letter in upper case. -/
def respelt : SignedCommitment := ⟨{ signed.commitment with slasher := respelled }, signed.signature⟩

def respeltRow : CommitmentRow := (newCommitmentOf (platform offer) respelt 1).row 0 0

/-- What is left of a poll and that request. -/
def orphaned : World (platform offer) :=
  { served with commitments := ⟨[respeltRow], by decide, by decide, by decide +kernel⟩ }

theorem respelt_run : ∃ es, Run small.machine Eq
    (commitmentRequestHandler small.config (some (request 5 7 respelled))) stored 61000 es (.ok respelt) orphaned 61000 := by
  have admitted : admitRequest small.config (request 5 7 respelled) = .ok (5, respelt.commitment.requestHash) := by
    decide +kernel
  have found : findDelegation 5 respelled offer = some (delegation 2 own 5) := by decide +kernel
  have signs : signRequest small.config (request 5 7 respelled) respelt.commitment.requestHash own = .ok respelt := by
    decide +kernel
  have stores : (small.machine.play [(.row 0 0, 61000),(.price (.ok ⟨10⟩), 61000),(.done, 61000),(.done, 61000)]
      (storeCommitment small.config (request 5 7 respelled) 5 respelt) stored 61000).any (fun out =>
        out.2.1 = .ok respelt && out.2.2.1.commitments.rows = orphaned.commitments.rows &&
          out.2.2.1.delegations.rows = orphaned.delegations.rows &&
            out.2.2.1.congestion.rows = orphaned.congestion.rows && out.2.2.1.accepted = [] &&
              out.2.2.2 = 61000) = true := by
    decide +kernel
  obtain ⟨first,authorised,_⟩ := Atomicity.authorise_run_of admitted found signs (w := stored) rfl rfl 61000
  obtain ⟨⟨es,r,w,u⟩,hplay,hp⟩ := (Option.any_eq_true _ _).mp stores
  simp only [Bool.and_eq_true,decide_eq_true_eq] at hp
  obtain ⟨⟨⟨⟨⟨rfl,commitments⟩,delegations⟩,congestion⟩,accepted⟩,rfl⟩ := hp
  have hw : w = orphaned := World.ext (Commitments.ext commitments) (Delegations.ext delegations)
    (Congestion.ext congestion) accepted
  subst hw
  rw [commitmentRequestHandler_split]
  exact ⟨first ++ es,authorised.bind (Machine.play_run _ hplay)⟩

/-- The served request, with a slasher that is spelt in another way, is left behind. -/
theorem respelled_orphaned : ∃ (s : State (requests (platform offer)) (World (platform offer)) Job Outcome)
    (es : Trace (platform offer)) (r : Result Unit) (w' : World (platform offer)),
      Reachable (serving small) (.empty _) s ∧
        Run small.machine Eq (ConstraintSubmission.processConstraintsForSlot small.blsManager small.config 5)
          s.world s.clock es r w' s.clock ∧ Undisturbed es ∧
            ∃ row, Promised small s 5 row ∧ normalizeAddress row.slasher = normalizeAddress own ∧
              ¬ Fulfilled w' 5 row := by
  obtain ⟨s₀,hr₀,hi₀,hw₀,ht₀,free,poll,hpoll,polls,_⟩ := Authorisation.stored_reachable
  have waited := hr₀.wait hi₀ (t := 61000) (by omega)
  obtain ⟨first,serves⟩ := respelt_run
  have call : Run small.machine Eq (small.system.code (.commitmentRequest (some (request 5 7 respelled)))) s₀.world 61000
      (first ++ []) (.commitment (.ok respelt)) orphaned 61000 := by
    rw [hw₀]
    exact serves.bind (.ret (Outcome.commitment (.ok respelt)) orphaned 61000)
  obtain ⟨s,hr,_,hw,_,mine,others⟩ := waited.run hi₀ (free 1 (Nat.le_refl 1)) trivial call (fun _ _ _ => trivial)
  have calls : Reachable (serving small) (.empty _) s := by
    refine hr.starting fun id task ht => ?_
    match id with
    | 0 =>
      cases hpoll.symm.trans ((others 0 (by omega)).symm.trans ht)
      exact .inl polls
    | 1 =>
      cases mine.symm.trans ht
      exact .inr ⟨_,rfl⟩
    | n + 2 => cases ((others (n + 2) (by omega)).trans (free (n + 2) (by omega))).symm.trans ht
  have slot_eq : PayloadParser.extractSlot (platform offer) 1 respeltRow.payload = .ok 5 := by decide +kernel
  have active : ∀ d ∈ s.world.delegations.rows, d.isActive = true := by
    rw [hw]
    decide +kernel
  have kept : respeltRow ∈ s.world.commitments.rows := by
    rw [hw]
    exact List.mem_cons_self
  have promised := promised_of hr kept slot_eq active
  obtain ⟨es,r,w',run,undisturbed⟩ := undisturbed_run (pass_obeys small 5) small s.world s.clock
  refine ⟨s,es,r,w',calls,run,undisturbed,respeltRow,promised,by decide +kernel,fun fulfilled => ?_⟩
  have lone (d : SignedDelegation) : Held s.world 5 d → d = delegation 2 own 5 := held_only (by rw [hw]; rfl)
  have spelt := ((pass_fulfils rfl (fun d hd => by rw [lone d hd]; rfl) run undisturbed (promised.waiting calls)).mp
    fulfilled).2
  obtain ⟨d,held,same⟩ := spelt
  rw [lone d held] at same
  exact absurd same (by decide)

end PreconfGateway.Properties.OrphanedCommitment
