import Mathlib.Data.Fintype.EquivFin
import PreconfGateway.Properties.LegitimateRequest
import PreconfGateway.Types.PayloadEncoding

/-! Which payloads end up in the table: whatever can be stored, whether or not the
transaction in it can be included. -/
namespace PreconfGateway.Properties.SatisfiablePayload
open Encoding Types Db Crypto Interleaving Rpc Services Fixture DelegationLookup LegitimateRequest
variable {P : Platform}

/-- The payload parses, and what it says passes its check. -/
def Satisfiable (P : Platform) (payload : Bytes) : Prop :=
  ∃ p, PayloadParser.parseInclusionPayload P payload = .ok p ∧ p.validate = .ok ()

/-- One of the steps puts the row into the table. -/
def Inserts (es : Trace P) (row : CommitmentRow) : Prop :=
  ∃ e ∈ es, row ∈ e.post.commitments.rows ∧ row ∉ e.pre.commitments.rows

/-- The checks that a request passes before it is stored: admission, a fresh hash, a matching
delegation that verifies, the signature and the constraints of the table. -/
structure Stores (g : Gateway P) (w : World P) (request : CommitmentRequest) (slot : UInt64) (hash : String)
    (d : SignedDelegation) (sc : SignedCommitment) : Prop where
  admitted : admitRequest g.config request = .ok (slot, hash)
  fresh : w.commitments.withHash hash = none
  held : Held w slot d
  match_ : Matches slot request.slasher d
  verified : Verifies P d
  signed : signRequest g.config request hash d.message.committer = .ok sc
  checks : ((newCommitmentOf P sc 1).row 0 0).checks = true

section Steps
variable {limits : Limits} {relay : ConstraintsApiConfig} {between : World P → World P → Prop} {α : Type}
  {p : Async P α} {a : α} {w w' : World P} {t t' : Nat} {es es' : Trace P} {row : CommitmentRow}

theorem inserts_append : Inserts (es ++ es') row ↔ Inserts es row ∨ Inserts es' row := by
  unfold Inserts
  simp only [List.mem_append,or_and_right,exists_or]

theorem inserts_nil : ¬Inserts ([] : Trace P) row := by
  rintro ⟨_,he,_⟩
  cases he

/-- Steps that neither insert nor mark put no row into the table. -/
theorem quiet_inserts (h : Run (world P limits relay) between p w t es a w' t')
    (quiet : ∀ e ∈ es, (∀ new, e.op.query ≠ .sql (.insertCommitment new)) ∧
      ∀ hashes, e.op.query ≠ .sql (.updateProcessed hashes)) : ¬Inserts es row := by
  induction h with
  | ret => exact inserts_nil
  | call other _ _ answers _ ih =>
    rintro ⟨e,he,added,missing⟩
    rcases List.mem_cons.mp he with rfl | he
    · have changes := Changes.of_answers answers
      obtain ⟨noInsert,noMark⟩ := quiet _ List.mem_cons_self
      generalize Op.query _ = q at changes noInsert noMark
      cases changes with
      | inserted new id createdAt commitments added => exact noInsert new rfl
      | marked hashes => exact noMark hashes rfl
      | _ => exact missing added
    · exact ih (fun e he => quiet e (List.mem_cons_of_mem _ he)) ⟨e,he,added,missing⟩

/-- What an insert adds is its own row, which has passed the constraints. -/
theorem insert_adds {new : NewCommitment} {r : Except DbError (Option Nat)}
    (h : (world P limits relay).Answers t w (.plain (.sql (.insertCommitment new))) r w')
    (added : row ∈ w'.commitments.rows) (missing : row ∉ w.commitments.rows) :
    ∃ id createdAt, row = new.row id createdAt ∧ (new.row 0 0).checks = true := by
  have checked := w'.commitments.checked row added
  have changes := Changes.of_answers h
  change Changes w (.sql (.insertCommitment new)) w' at changes
  cases changes with
  | inserted _ id createdAt commitments inserted =>
    rcases insert_kind inserted with ⟨hx,_⟩ | ⟨_,rows,_⟩
    · cases hx
    · rw [rows,List.mem_append,List.mem_singleton] at added
      obtain rfl := added.resolve_left missing
      exact ⟨id,createdAt,rfl,checked⟩
  | same => exact absurd added missing
  | switchedOff _ _ how => exact absurd added missing

end Steps

section Serve
variable {g : Gateway P} {w w' : World P} {request : CommitmentRequest} {slot : UInt64} {hash : String}
  {d : SignedDelegation} {sc : SignedCommitment} {t t' : Nat} {es : Trace P} {row : CommitmentRow} {r : RpcResult SignedCommitment}

/-- A call that signs has met a delegation that lets it store. -/
theorem authorise_stores (h : Run g.machine Eq (authoriseRequest g.config request) w t es (.ok (slot, sc)) w' t')
    (checks : ((newCommitmentOf P sc 1).row 0 0).checks = true) : ∃ hash d, Stores g w request slot hash d sc := by
  unfold authoriseRequest at h
  cases admitted : admitRequest g.config request with
  | error e =>
    rw [admitted] at h
    cases h.ret_inv.2.1
  | ok parts =>
    obtain ⟨slot',hash⟩ := parts
    rw [admitted] at h
    obtain ⟨es₁,found,w₁,t₁,es₂,rfl,hexist,hrest⟩ := h.bind_inv
    obtain ⟨_,u,reply,w₂,rest,rfl,rfl,_,_,answers,hback⟩ := run_ask hexist
    obtain ⟨rfl,rfl,rfl,_⟩ := hback.ret_inv
    rcases reply with e | found
    · cases hrest.ret_inv.2.1
    obtain ⟨rfl,rfl⟩ : found = (w.commitments.withHash hash).isSome ∧ w₁ = w := by
      obtain ⟨c,hx⟩ := Answers.executed answers
      cases c <;> cases hx
      exact ⟨rfl,rfl⟩
    cases fresh : w₁.commitments.withHash hash with
    | some r =>
      rw [fresh] at hrest
      cases hrest.ret_inv.2.1
    | none =>
      rw [fresh] at hrest
      obtain ⟨es₃,looked,w₂,t₂,es₄,rfl,hlook,hend⟩ := hrest.bind_inv
      rcases looked with e | committer
      · cases hend.ret_inv.2.1
      rw [verifyDelegationAuthority_split] at hlook
      obtain ⟨es₅,read,w₃,t₃,es₆,rfl,hread,hcheck⟩ := hlook.bind_inv
      obtain ⟨_,_,reply,_,_,rfl,rfl,_,_,select,hpassed⟩ := run_ask hread
      rcases reply with e | rows
      · obtain ⟨_,rfl,_⟩ := hpassed.ret_inv
        cases hcheck.ret_inv.2.1
      obtain ⟨perm,rfl⟩ := Answers.selectDelegations select
      obtain ⟨rfl,rfl,rfl,_⟩ := hpassed.ret_inv
      obtain ⟨ds,hds,listed⟩ := active_read perm
      rw [hds] at hcheck
      obtain ⟨d,found,verified,rfl⟩ := checkDelegations_found hcheck
      obtain ⟨hm,match_⟩ := findDelegation_some found
      dsimp only at hend
      cases signed : signRequest g.config request hash d.message.committer with
      | error e =>
        rw [signed] at hend
        cases hend.ret_inv.2.1
      | ok sc' =>
        rw [signed] at hend
        cases hend.ret_inv.2.1
        exact ⟨hash,d,admitted,fresh,(listed d).mp hm,match_,verified,signed,checks⟩

/-- Whatever others do in between, a row that a call inserts is that of the commitment it has signed. -/
theorem inserts_signed {between : World P → World P → Prop}
    (run : Run g.machine between (commitmentRequestHandler g.config (some request)) w t es r w' t')
    (inserted : Inserts es row) : ∃ es₁ slot sc w₁ t₁ id createdAt,
      Run g.machine between (authoriseRequest g.config request) w t es₁ (.ok (slot, sc)) w₁ t₁ ∧
        Signed g.config request slot sc ∧ row = (newCommitmentOf P sc 1).row id createdAt ∧
          ((newCommitmentOf P sc 1).row 0 0).checks = true := by
  rw [commitmentRequestHandler_split] at run
  obtain ⟨es₁,authorised,w₁,t₁,es₂,rfl,hauthorise,hstore⟩ := run.bind_inv
  have looking : (authoriseRequest g.config request).Obeys (fun op : Op P => Looks op.query)
      (fun r => ∀ slot sc, r = .ok (slot, sc) → Signed g.config request slot sc) :=
    authoriseRequest_obeys (fun hash => .inl ⟨hash,rfl⟩) (fun slot => .inr (.inl ⟨slot,rfl⟩))
      (fun slot _ => .inr (.inr ⟨slot,rfl⟩))
  have obeys := hauthorise.obeys looking
  have before : ¬Inserts es₁ row := quiet_inserts hauthorise fun e he => by
    rcases obeys.1 e he with ⟨_,hq⟩ | ⟨_,hq⟩ | ⟨_,hq⟩ <;> rw [hq] <;> exact ⟨nofun,nofun⟩
  have storing := (inserts_append.mp inserted).resolve_left before
  rcases authorised with e | ⟨slot,sc⟩
  · obtain ⟨rfl,_⟩ := hstore.ret_inv
    exact absurd storing inserts_nil
  · have signed := obeys.2 slot sc rfl
    dsimp only at hstore
    unfold storeCommitment at hstore
    rw [saveCommitment_one P (by rw [signed.commitment])] at hstore
    obtain ⟨es₃,saved,w₂,t₂,es₄,rfl,hsave,hrest⟩ := hstore.bind_inv
    obtain ⟨_,u,reply,_,rest,rfl,_,_,_,answers,hback⟩ := run_ask hsave
    obtain ⟨rfl,rfl,rfl,_⟩ := hback.ret_inv
    have after : ¬Inserts es₄ row := by
      rcases reply with e | found
      · obtain ⟨rfl,_⟩ := hrest.ret_inv
        exact inserts_nil
      · cases found with
        | none =>
          obtain ⟨rfl,_⟩ := hrest.ret_inv
          exact inserts_nil
        | some id =>
          have quiet : (accountGas g.config request slot sc).Obeys (fun op : Op P =>
              (∀ new, op.query ≠ .sql (.insertCommitment new)) ∧ ∀ hashes, op.query ≠ .sql (.updateProcessed hashes))
                (fun r => ∀ found, r = .ok found → found = sc) :=
            accountGas_obeys ⟨nofun,nofun⟩ (fun _ _ => ⟨nofun,nofun⟩) (fun _ => ⟨nofun,nofun⟩)
              (fun _ _ => ⟨nofun,nofun⟩)
          exact quiet_inserts hrest (hrest.obeys quiet).1
    obtain ⟨e,he,added,missing⟩ := (inserts_append.mp storing).resolve_right after
    obtain rfl := List.mem_singleton.mp he
    obtain ⟨id,createdAt,same,checks⟩ := insert_adds answers added missing
    exact ⟨es₁,slot,sc,w₁,t₁,id,createdAt,hauthorise,signed,same,checks⟩

theorem inserts_payload {between : World P → World P → Prop}
    (run : Run g.machine between (commitmentRequestHandler g.config (some request)) w t es r w' t')
    (inserted : Inserts es row) : row.payload = request.payload := by
  obtain ⟨_,_,sc,_,_,_,_,_,signed,rfl,_⟩ := inserts_signed run inserted
  change sc.commitment.payload = request.payload
  rw [signed.commitment]

/-- A beacon client can name any proposer. -/
theorem duty_names (proposer : BlsPublicKey) :
    ∃ duty : ValidatorDuty, duty.parsePubkey = .ok proposer := by
  refine ⟨⟨"0x" ++ Hex.encode proposer.bytes, ""⟩,?_⟩
  unfold ValidatorDuty.parsePubkey
  simp [strip0x_prefixed,Hex.decode_encode,proposer.length_eq,bind,Except.bind]

theorem insert_new {c : Commitments} {r : CommitmentRow} (checks : r.checks = true)
    (hash : r.requestHash ∉ c.rows.map CommitmentRow.requestHash) (id : r.id ∉ c.rows.map CommitmentRow.id) :
    ∃ c', c.insert r = some (some r.id, c') ∧ c'.rows = c.rows ++ [r] := by
  unfold Commitments.insert
  rw [dif_pos checks,dif_neg hash,dif_neg id]
  exact ⟨_,rfl,rfl⟩

theorem fresh_id (ids : List Nat) : ∃ id, id ∉ ids :=
  (Infinite.exists_notMem_finset ids.toFinset).imp fun _ h => by simpa using h

/-- Where the checks pass, there is a call that stores the payload: the table is read with the
delegation first, and no price is told once the row is in. -/
theorem stores_inserts (stores : Stores g w request slot hash d sc) : ∃ t es r w' t',
    Run g.machine Eq (commitmentRequestHandler g.config (some request)) w t es r w' t' ∧
      ∃ row, Inserts es row ∧ row.payload = request.payload := by
  obtain ⟨rows,ds,order,read⟩ := held_first stores.held
  obtain ⟨duty,names⟩ := duty_names d.message.proposer
  have signature := (checkDelegationSignature_ok g slot request.slasher).mpr stores.verified
  have scheduled : checkProposer slot d (.ok (some duty)) = .ok () := (checkProposer_ok slot).mpr ⟨duty,rfl,names⟩
  have authorised : ∃ es, Run g.machine Eq (authoriseRequest g.config request) w 0 es (.ok (slot, sc)) w 0 :=
    ⟨_,authoriseRequest_run stores.admitted stores.fresh order read (findDelegation_head stores.match_) signature
      scheduled stores.signed 0⟩
  obtain ⟨first,authorised⟩ := authorised
  obtain ⟨_,commitment,_⟩ := signRequest_ok stores.signed
  obtain ⟨type,_,_⟩ := admitRequest_ok stores.admitted
  obtain ⟨id,free⟩ := fresh_id (w.commitments.rows.map CommitmentRow.id)
  have missing : hash ∉ w.commitments.rows.map CommitmentRow.requestHash := by
    intro taken
    obtain ⟨r,hm,rfl⟩ := List.mem_map.mp taken
    have free := stores.fresh
    rw [Commitments.withHash_mem hm] at free
    cases free
  have newHash : ((newCommitmentOf P sc 1).row id 0).requestHash = hash := by
    change sc.commitment.requestHash = hash
    rw [commitment]
  obtain ⟨table,inserted,rows⟩ := insert_new (c := w.commitments) (r := (newCommitmentOf P sc 1).row id 0)
    stores.checks (by rwa [newHash]) free
  have saved : g.machine.Answers 0 w (.plain (.sql (.insertCommitment (newCommitmentOf P sc 1)))) (.ok (some id))
      { w with commitments := table } := by
    refine ⟨.row id 0,?_⟩
    change ((w.commitments.insert _).map _).map _ = _
    rw [inserted]
    rfl
  have priced : g.machine.Answers 0 { w with commitments := table } (.plain .gasPrice) (.error "")
      { w with commitments := table } := ⟨.price (.error ""),rfl⟩
  have storing : ∃ es, Run g.machine Eq (storeCommitment g.config request slot sc) w 0 es (.error .internalError)
      { w with commitments := table } 0 ∧ Inserts es ((newCommitmentOf P sc 1).row id 0) := by
    unfold storeCommitment
    rw [saveCommitment_one P (by rw [commitment,type])]
    refine ⟨_,ask_step saved (ask_step priced (.ret _ _ _)),_,List.mem_cons_self,?_,?_⟩
    · change _ ∈ table.rows
      rw [rows]
      exact List.mem_append_right _ List.mem_cons_self
    · intro taken
      exact missing (List.mem_map.mpr ⟨_,taken,newHash⟩)
  obtain ⟨es,storing,inserts⟩ := storing
  refine ⟨0,first ++ es,.error .internalError,{ w with commitments := table },0,?_,_,inserts_append.mpr (.inr inserts),?_⟩
  · rw [commitmentRequestHandler_split]
    exact authorised.bind storing
  · change sc.commitment.payload = request.payload
    rw [commitment]

end Serve

/-- From any state a call inserts satisfiable payloads only exactly if its request, as far as it passes the checks
before the insert, has one: no check looks at the transaction. Nor does it matter what others do meanwhile. -/
theorem inserted_satisfiable_iff (g : Gateway P) (w : World P) (request : CommitmentRequest) :
    ((∀ t es r w' t', Run g.machine Eq (commitmentRequestHandler g.config (some request)) w t es r w' t' →
        ∀ row, Inserts es row → Satisfiable P row.payload) ↔
      ∀ slot hash d sc, Stores g w request slot hash d sc → Satisfiable P request.payload) ∧
    ∀ between t es r w' t', Run g.machine between (commitmentRequestHandler g.config (some request)) w t es r w' t' →
      ∀ row, Inserts es row → (Satisfiable P row.payload ↔ Satisfiable P request.payload) := by
  refine ⟨⟨?_,?_⟩,?_⟩
  · intro always slot hash d sc stores
    obtain ⟨t,es,r,w',t',run,row,inserted,payload⟩ := stores_inserts stores
    rw [← payload]
    exact always t es r w' t' run row inserted
  · intro known t es r w' t' run row inserted
    obtain ⟨_,slot,sc,_,_,_,_,authorised,_,_,checks⟩ := inserts_signed run inserted
    obtain ⟨hash,d,stores⟩ := authorise_stores authorised checks
    rw [inserts_payload run inserted]
    exact known slot hash d sc stores
  · intro between t es r w' t' run row inserted
    rw [inserts_payload run inserted]

/-- Slot 5 and an empty transaction. -/
def emptyRequest : CommitmentRequest := ⟨1, [0xc2, 5, 0x80], own⟩

theorem empty_stores : ∃ hash sc, Stores small stored emptyRequest 5 hash (delegation 2 own 5) sc := by
  have hashed : (generateRequestHash (platform offer) emptyRequest).toOption.isSome = true := by decide +kernel
  cases hash_eq : generateRequestHash (platform offer) emptyRequest with
  | error e =>
    rw [hash_eq] at hashed
    cases hashed
  | ok hash =>
    have legit : Legitimate small stored emptyRequest 5 hash (delegation 2 own 5) (.ok (some scheduled)) :=
      ⟨rfl,by decide +kernel,⟨own,by decide,rfl⟩,hash_eq,rfl,offer_held,rfl,offer_good⟩
    obtain ⟨sc,signs⟩ := @signRequest_own _ _ _ small.config own rfl hash_eq
    obtain ⟨_,commitment,signature⟩ := signRequest_ok signs
    have same : sc.commitment.requestHash = hash := by rw [commitment]
    have signed : Signed small.config emptyRequest 5 sc :=
      ⟨rfl,legit.slot_eq,by rw [same]; exact hash_eq,by rw [same]; exact commitment,signature⟩
    have sixtyFour (message key : Bytes) (short : message.length = 32) :
        ((platform offer).signEcdsaRecoverable message key).1.length = 64 := by
      change (message ++ Abi.bigEndian 32 _).length = 64
      rw [List.length_append,short,bigEndian_length]
    subst same
    exact ⟨_,sc,legit.admitted,rfl,offer_held,⟨rfl,rfl⟩,offer_good.1,signs,signed_checks sixtyFour legit rfl signed 0 0⟩

/-- A call stores a commitment to include nothing. -/
theorem empty_inserted : ∃ t es r w' t' row,
    Run small.machine Eq (commitmentRequestHandler small.config (some emptyRequest)) stored t es r w' t' ∧
      Inserts es row ∧ ¬Satisfiable (platform offer) row.payload := by
  obtain ⟨_,_,stores⟩ := empty_stores
  obtain ⟨t,es,r,w',t',run,row,inserted,payload⟩ := stores_inserts stores
  refine ⟨t,es,r,w',t',row,run,inserted,?_⟩
  have parsed : PayloadParser.parseInclusionPayload (platform offer) [0xc2, 5, 0x80] = .ok ⟨5, []⟩ := by decide +kernel
  rw [payload]
  rintro ⟨p,hp,valid⟩
  cases parsed.symm.trans hp
  cases valid

end PreconfGateway.Properties.SatisfiablePayload
