import PreconfGateway.Properties.Authorisation
import PreconfGateway.Submissions

/-! A processed commitment was delivered: the mark of a row is set only by a tick that has
read the row and had the message with its constraint taken by the relay. -/
namespace PreconfGateway.Properties.Delivery
open Encoding Types Db Crypto Interleaving Services Fixture
variable {P : Platform} {g : Gateway P} {w₀ : World P} {s : State (requests P) (World P) Job Outcome}

/-- The relay has said to the task of this past that it took a message with the row's constraint,
for the slot of the row, from the own key, to the configured builders and signed. -/
structure Delivered (g : Gateway P) (w : World P) (tr : Trace P) (row : CommitmentRow) (m : SignedConstraints) :
    Prop where
  accepted : Accepted tr m
  taken : m ∈ w.accepted
  slot : row.slotNumber.isSome ∧ row.slotNumber = i64TryFrom m.message.slot
  delegate : m.message.delegate = g.config.signing.blsPublicKey
  receivers : ConstraintSubmission.parseAuthorizedBuilders g.config.constraintsApi.authorizedBuilders =
    .ok m.message.receivers
  signature : BlsManager.signConstraintsMessage P g.blsManager m.message g.config.signing.blsPrivateKey =
    .ok m.signature
  constraint : ⟨1, row.payload⟩ ∈ m.message.constraints

/-- The task of this past has read the row for the message, before it was processed, and kept it
by its type and by the committer of a delegation that it has read. -/
def Selected (g : Gateway P) (tr : Trace P) (row : CommitmentRow) (m : SignedConstraints) : Prop :=
  ∃ committer rows t u pre post,
    Delegated g tr m.message.slot m.message.proposer committer ∧
      ⟨.plain (.sql (.selectUnprocessed m.message.slot.toInt64)), .ok rows, t, u, pre, post⟩ ∈ tr ∧
      ∃ r ∈ pre.commitments.rows, r ∈ rows ∧ r.Later row ∧ r.constraintProcessed = false ∧
        r.slotNumber = some m.message.slot.toInt64 ∧ r.slasher = committer ∧ r.commitmentType = 1

/-- Only the mark of the hash sets the flag of a row. -/
theorem marked_here {q : Query P} {w w' : World P} (h : Changes w q w') {row : CommitmentRow}
    (hrow : row ∈ w'.commitments.rows) (set : row.constraintProcessed = true)
    (unset : ∀ r ∈ w.commitments.rows, r.requestHash = row.requestHash → r.constraintProcessed = false) :
    ∃ hashes, q = .sql (.updateProcessed hashes) ∧ row.requestHash ∈ hashes := by
  have clash {r : CommitmentRow} (hr : r ∈ w.commitments.rows) (same : r = row) : False := by
    subst same
    rw [unset r hr rfl] at set
    cases set
  cases h with
  | inserted new id createdAt commitments added =>
    rcases insert_kind added with ⟨hn,_⟩ | ⟨_,rows,_⟩
    · cases hn
    · change row ∈ commitments.rows at hrow
      rw [rows] at hrow
      rcases List.mem_append.mp hrow with old | new
      · exact (clash old rfl).elim
      · rw [List.mem_singleton.mp new] at set
        cases set
  | marked hashes =>
    obtain ⟨r,hr,rfl⟩ := List.mem_map.mp hrow
    rw [CommitmentRow.processed_hash] at unset ⊢
    unfold CommitmentRow.processed at set
    split at set
    · rename_i listed
      exact ⟨hashes,rfl,listed⟩
    · rw [unset r hr rfl] at set
      cases set
  | same | stored | switchedOff | recorded | counted | taken => exact (clash hrow rfl).elim

private theorem later_same {a b c : CommitmentRow} (h : a.Later c) (k : b.Later c)
    (unset : a.constraintProcessed = false) : a.Later b := by
  obtain ⟨ha,_⟩ := h
  obtain ⟨hb,_⟩ := k
  obtain ⟨_,_,_,_,_,_,_,_,_⟩ := a
  obtain ⟨_,_,_,_,_,_,_,_,_⟩ := b
  obtain ⟨_,_,_,_,_,_,_,_,_⟩ := c
  cases ha
  cases hb
  refine ⟨rfl,fun set => ?_⟩
  rw [unset] at set
  cases set

/-- A row that is marked was in the batch whose message was taken. -/
theorem marked_delivered (hr : Reachable g.system w₀ s) {id : Nat} {job : Job} {e : Event (requests P) (World P)}
    (saw : s.Saw id job e) {hashes : List String} (mark : e.op.query = .sql (.updateProcessed hashes))
    {row : CommitmentRow} (hrow : row ∈ e.post.commitments.rows) (listed : row.requestHash ∈ hashes) :
    ∃ task newer older m, s.tasks id = some task ∧ task.job = .processPendingConstraints ∧
      task.trace = newer ++ e :: older ∧ Delivered g s.world older row m ∧ Selected g older row m := by
  obtain ⟨task,ht,rfl,he⟩ := saw
  have sound := (g.submitting.sound (fun _ => trivial) hr).tasks id task ht
  obtain ⟨newer,older,split,_,_,_,_,asks,owed⟩ := sound.kept.mem he
  have tick : task.job = .processPendingConstraints := by
    rw [mark] at asks
    generalize task.job = job at asks
    cases asks
    rfl
  rw [tick] at owed
  obtain ⟨m,committer,batch,flying,rfl,accepted⟩ := owed.mark hashes mark
  obtain ⟨r,hb,same⟩ := List.mem_map.mp listed
  obtain ⟨fits,rows,t,u,pre,post,read,rfl⟩ := flying.batched
  have old {d : Event (requests P) (World P)} (hd : d ∈ older) : s.Saw id task.job d :=
    ⟨task,ht,rfl,by rw [split]; exact List.mem_append_right _ (List.mem_cons_of_mem _ hd)⟩
  obtain ⟨_,answers,evolved⟩ := reached_event hr (old read)
  obtain ⟨perm,_,still⟩ := Answers.selectUnprocessed answers
  dsimp only at still perm
  subst still
  obtain ⟨hm,kept⟩ := List.mem_filter.mp hb
  obtain ⟨held,waiting⟩ := List.mem_filter.mp (perm.mem_iff.mp hm)
  simp only [Bool.and_eq_true,Bool.not_eq_true',decide_eq_true_eq] at waiting
  simp only [chosen,Bool.and_eq_true,decide_eq_true_eq] at kept
  -- Both the row that was read and the marked row are earlier forms of one row of today.
  obtain ⟨now,hn,later⟩ := evolved.commitments r held
  obtain ⟨now',hn',later'⟩ := (sound.evolved e he).commitments row hrow
  have one : now' = now := Commitments.hash_injective hn' hn (by rw [later.1,later'.1]; exact same.symm)
  subst one
  have was := later_same later later' waiting.2
  refine ⟨task,newer,older,m,ht,tick,split,⟨accepted,?_,?_,flying.issued.delegate,flying.issued.receivers,
    flying.issued.signature,?_⟩,committer,rows,t,u,post,post,flying.delegated,read,r,held,hm,was,waiting.2,
    waiting.1,kept.1,kept.2⟩
  · obtain ⟨reply,⟨t,u,v,v',told⟩,ok⟩ := accepted
    obtain ⟨_,⟨c,posted⟩,since⟩ := reached_event hr (old told)
    change Query.respond u v (.postConstraints m) c = some (reply, v') at posted
    refine since.accepted.subset ?_
    cases c <;> cases posted
    simp [ok]
  · have slot : row.slotNumber = some m.message.slot.toInt64 := by
      rw [was.1]
      exact waiting.1
    exact ⟨by rw [slot]; rfl,by rw [slot,fits]⟩
  · rw [flying.constraints,List.mem_map]
    refine ⟨r,hb,?_⟩
    rw [was.1]
    rfl

/-- Behind every processed row there is a tick that had selected it for a message that was taken. -/
theorem processed_origin (hr : Reachable g.system w₀ s)
    (fresh : ∀ r ∈ w₀.commitments.rows, r.constraintProcessed = false) {row : CommitmentRow}
    (hrow : row ∈ s.world.commitments.rows) (set : row.constraintProcessed = true) :
    ∃ id task older m, s.tasks id = some task ∧ task.job = .processPendingConstraints ∧ older <:+ task.trace ∧
      Delivered g s.world older row m ∧ Selected g older row m := by
  have none : ¬ ∃ r ∈ w₀.commitments.rows, r.requestHash = row.requestHash ∧ r.constraintProcessed = true := by
    rintro ⟨r,hm,_,was⟩
    rw [fresh r hm] at was
    cases was
  obtain ⟨id,job,e,saw,before,r,hm,same,was⟩ := hr.provenance
    (fun w => ∃ r ∈ w.commitments.rows, r.requestHash = row.requestHash ∧ r.constraintProcessed = true)
    none ⟨row,hrow,rfl,set⟩
  obtain ⟨_,answers,evolved⟩ := reached_event hr saw
  have unset : ∀ d ∈ e.pre.commitments.rows, d.requestHash = r.requestHash → d.constraintProcessed = false := by
    intro d hd he
    rw [← Bool.not_eq_true]
    exact fun h => before ⟨d,hd,he.trans same,h⟩
  obtain ⟨hashes,mark,listed⟩ := marked_here (Changes.of_answers answers) hm was unset
  obtain ⟨task,newer,older,m,ht,tick,split,delivered,selected⟩ := marked_delivered hr saw mark hm listed
  obtain ⟨now,hn,later⟩ := evolved.commitments r hm
  have one : now = row := Commitments.hash_injective hn hrow (by rw [later.1]; exact same)
  rw [one] at later
  have equal : row = r := by
    rw [later.1,set,← was]
  rw [equal]
  refine ⟨id,task,older,m,ht,tick,?_,delivered,selected⟩
  rw [split]
  exact (List.suffix_cons _ _).trans (List.suffix_append _ _)

/-- Every processed row was delivered, and every row that a step marks had been selected for
a message that was taken. -/
theorem processed_delivered (hr : Reachable g.system w₀ s)
    (fresh : ∀ r ∈ w₀.commitments.rows, r.constraintProcessed = false) :
    (∀ row ∈ s.world.commitments.rows, row.constraintProcessed = true →
      ∃ id task m, s.tasks id = some task ∧ task.job = .processPendingConstraints ∧
        Delivered g s.world task.trace row m) ∧
    ∀ id job e, s.Saw id job e → ∀ row ∈ e.post.commitments.rows, row.constraintProcessed = true →
      (∀ r ∈ e.pre.commitments.rows, r.requestHash = row.requestHash → r.constraintProcessed = false) →
        ∃ task newer older m, s.tasks id = some task ∧ task.trace = newer ++ e :: older ∧
          Delivered g s.world older row m ∧ Selected g older row m := by
  constructor
  · intro row hrow set
    obtain ⟨id,task,older,m,ht,tick,suffix,delivered,_⟩ := processed_origin hr fresh hrow set
    exact ⟨id,task,m,ht,tick,{ delivered with accepted := delivered.accepted.later suffix }⟩
  · intro id job e saw row hrow set unset
    obtain ⟨_,answers,_⟩ := reached_event hr saw
    obtain ⟨hashes,mark,listed⟩ := marked_here (Changes.of_answers answers) hrow set unset
    obtain ⟨task,newer,older,m,ht,_,split,delivered,selected⟩ := marked_delivered hr saw mark hrow listed
    exact ⟨task,newer,older,m,ht,split,delivered,selected⟩

/-- A tick that follows the served call. -/
theorem reach_of_tick {scene : Scene Job Choice}
    {p : Trace (platform offer) × Outcome → World (platform offer) → Bool}
    (h : (small.system.script [scene] served 61000).any (fun out =>
      out.1.length = 1 && out.1.all (fun run => p run out.2.1)) = true) :
    ∃ (s : State (requests (platform offer)) (World (platform offer)) Job Outcome) (out : Trace (platform offer) × Outcome)
        (since : Nat),
      Reachable small.system (.empty _) s ∧ p out s.world = true ∧
        s.tasks 2 = some ⟨scene.job, .ret out.2, since, out.1.reverse, false⟩ ∧
          ∀ i task, s.tasks i = some task → i = 2 ∨ task.job = .pollDelegations ∨
            task.job = .commitmentRequest (some (request 5 7 own)) := by
  obtain ⟨s₀,hr₀,hi₀,hw,ht,free,⟨poll,hpoll,polls⟩,call,hcall,calls,_⟩ := Authorisation.served_reachable
  rw [← hw,← ht] at h
  obtain ⟨s,outs,hr,_,hp,kept,rest,done⟩ := reach_of_script hr₀ hi₀ free h
  simp only [Bool.and_eq_true,decide_eq_true_eq] at hp
  obtain ⟨one,hp⟩ := hp
  obtain ⟨out,rfl⟩ := List.length_eq_one_iff.mp one
  obtain ⟨since,mine⟩ := done 0 scene out rfl rfl
  refine ⟨s,out,since,hr,List.all_eq_true.mp hp out List.mem_cons_self,mine,?_⟩
  intro i task hi
  by_cases h0 : i = 0
  · subst h0
    cases hpoll.symm.trans ((kept 0 (by omega)).symm.trans hi)
    exact .inr (.inl polls)
  · by_cases h1 : i = 1
    · subst h1
      cases hcall.symm.trans ((kept 1 (by omega)).symm.trans hi)
      exact .inr (.inr calls)
    · by_cases h2 : i = 2
      · exact .inl h2
      · have later : 2 + 1 ≤ i := by omega
        cases (rest i later).symm.trans hi

/-- A tick marks the row of a call that was served before it, once the relay has taken its message. -/
theorem processed_delivered_tick : ∃ s : State (requests (platform offer)) (World (platform offer)) Job Outcome,
    Reachable small.system (.empty _) s ∧ ∃ row ∈ s.world.commitments.rows, row.constraintProcessed = true ∧
      ∃ id task m, s.tasks id = some task ∧ task.job = .processPendingConstraints ∧
        Delivered small s.world task.trace row m := by
  have run : (small.system.script [tick 62000] served 61000).any (fun out => out.1.length = 1 && out.1.all
      (fun _ => out.2.1.commitments.rows.any (fun row => row.constraintProcessed))) = true := by decide +kernel
  obtain ⟨s,_,_,hr,marked,_⟩ := reach_of_tick
    (p := fun _ w => w.commitments.rows.any (fun row => row.constraintProcessed)) run
  obtain ⟨row,hrow,set⟩ := List.any_eq_true.mp marked
  exact ⟨s,hr,row,hrow,set,(processed_delivered hr (fun _ h => by cases h)).1 row hrow set⟩

end PreconfGateway.Properties.Delivery
