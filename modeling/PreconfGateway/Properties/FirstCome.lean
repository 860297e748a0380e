import PreconfGateway.Properties.CommitmentGas
import PreconfGateway.Properties.Delivery
import PreconfGateway.Properties.RequestHash

/-! First come, first served: of two commitments for one committer the relay never has the
later one without the earlier one in front of it. -/
namespace PreconfGateway.Properties.FirstCome
open Encoding Types Db Crypto Interleaving Services Fixture Delivery RequestHash
variable {P : Platform} {g : Gateway P}

section Lists
variable {α β : Type}

/-- A place in a concatenation is a place in one of its parts. -/
theorem flatMap_split {f : α → List β} {as : List α} {xs ys : List β} {b : β} (h : as.flatMap f = xs ++ b :: ys) :
    ∃ before a after u v, as = before ++ a :: after ∧ f a = u ++ b :: v ∧ xs = before.flatMap f ++ u := by
  induction as generalizing xs with
  | nil =>
    rw [List.flatMap_nil] at h
    exact absurd h.symm (List.append_ne_nil_of_right_ne_nil _ (List.cons_ne_nil _ _))
  | cons a as ih =>
    rw [List.flatMap_cons] at h
    rcases List.append_eq_append_iff.mp h with ⟨zs,hx,hr⟩ | ⟨zs,ha,hr⟩
    · obtain ⟨before,a',after,u,v,rfl,hf,rfl⟩ := ih hr
      exact ⟨a :: before,a',after,u,v,rfl,hf,by rw [hx,List.flatMap_cons,List.append_assoc]⟩
    · cases zs with
      | nil =>
        rw [List.nil_append] at hr
        have rest : as.flatMap f = [] ++ b :: ys := hr.symm
        obtain ⟨before,a',after,u,v,rfl,hf,hx⟩ := ih rest
        obtain ⟨nothing,rfl⟩ := List.append_eq_nil_iff.mp hx.symm
        rw [List.append_nil] at ha
        exact ⟨a :: before,a',after,[],v,rfl,hf,by simp [nothing,ha]⟩
      | cons z zs =>
        cases hr
        exact ⟨[],a,as,xs,zs,rfl,ha,rfl⟩

/-- What stands before every place of another element comes first. -/
theorem idxOf_lt_of_before [DecidableEq β] {l : List β} {a b : β}
    (before : ∀ xs ys, l = xs ++ b :: ys → a ∈ xs) (hb : b ∈ l) : a ∈ l ∧ l.idxOf a < l.idxOf b := by
  obtain ⟨xs,ys,rfl,first⟩ := List.eq_append_cons_of_mem hb
  have ha := before xs ys rfl
  refine ⟨List.mem_append_left _ ha,?_⟩
  rw [List.idxOf_append_of_mem ha,List.idxOf_append_of_notMem first,List.idxOf_cons_self,Nat.add_zero]
  exact List.idxOf_lt_length_of_mem ha

end Lists

/-- A constraint in a message, with the slot of the message and the committer it is for. -/
structure Sent where
  slot : Option Int64
  committer : Option String
  constraint : Constraint
  deriving DecidableEq

/-- The committer of the delegation that the proposer of the message has given for its slot. -/
def committerOf (w : World P) (m : SignedConstraints) : Option String :=
  (w.delegations.rows.find? (fun row => row.key = (m.message.proposer.bytes, m.message.slot.toInt64))).map
    DelegationRow.committerAddress

def sentIn (w : World P) (m : SignedConstraints) : List Sent :=
  m.message.constraints.map (fun constraint => ⟨i64TryFrom m.message.slot, committerOf w m, constraint⟩)

/-- All constraints the relay has taken, in the order of their messages and within each. -/
def acceptedOrder (w : World P) : List Sent := w.accepted.flatMap (sentIn w)

/-- A commitment's own place among them. -/
def sentFor (row : CommitmentRow) : Sent := ⟨row.slotNumber, some row.slasher, ⟨1, row.payload⟩⟩

/-- Inserts become visible in the order of their times, without ties. -/
def InsertsOrdered (s : State (requests P) (World P) Job Outcome) : Prop :=
  ∀ id job e new rowId createdAt, s.Saw id job e → e.op.query = .sql (.insertCommitment new) →
    e.post.commitments.rows = e.pre.commitments.rows ++ [new.row rowId createdAt] →
      ∀ r ∈ e.pre.commitments.rows, r.createdAt < createdAt

section Committer
variable {w w' : World P} {m : SignedConstraints} {committer : String}

theorem committerOf_row {row : DelegationRow} (hrow : row ∈ w.delegations.rows)
    (key : row.key = (m.message.proposer.bytes, m.message.slot.toInt64)) :
    committerOf w m = some row.committerAddress := by
  obtain ⟨found,hf⟩ : ∃ found, w.delegations.rows.find? (fun row => row.key =
      (m.message.proposer.bytes, m.message.slot.toInt64)) = some found :=
    Option.isSome_iff_exists.mp (List.find?_isSome.mpr ⟨row,hrow,by simpa using key⟩)
  have same := List.find?_some hf
  rw [decide_eq_true_eq] at same
  rw [committerOf,hf,Delegations.key_injective (List.mem_of_find?_eq_some hf) hrow (same.trans key.symm)]
  rfl

theorem committerOf_evolves (h : w.Evolves w') (hc : committerOf w m = some committer) :
    committerOf w' m = some committer := by
  obtain ⟨row,hf,rfl⟩ := Option.map_eq_some_iff.mp hc
  have key := List.find?_some hf
  rw [decide_eq_true_eq] at key
  obtain ⟨row',hrow',later,_⟩ := h.delegations row (List.mem_of_find?_eq_some hf)
  have same : row'.committerAddress = row.committerAddress := by rw [later]
  rw [← same]
  exact committerOf_row hrow' (by rw [later]; exact key)

/-- The delegation that a message was made for tells its committer. -/
theorem committerOf_delegated {w₀ : World P} {s : State (requests P) (World P) Job Outcome}
    (hr : Reachable g.system w₀ s) {id : Nat} {job : Job} {tr : Trace P} (seen : ∀ d ∈ tr, s.Saw id job d)
    (h : Delegated g tr m.message.slot m.message.proposer committer) : committerOf s.world m = some committer := by
  obtain ⟨rows,t,u,pre,post,row,read,hrow,proposer,_,rfl⟩ := h
  obtain ⟨_,answers,evolved⟩ := reached_event hr (seen _ read)
  obtain ⟨perm,still⟩ := Answers.selectDelegations answers
  dsimp only at perm still
  subst still
  obtain ⟨held,active⟩ := List.mem_filter.mp (perm.mem_iff.mp hrow)
  simp only [Bool.and_eq_true,decide_eq_true_eq] at active
  refine committerOf_evolves evolved (committerOf_row held ?_)
  rw [DelegationRow.key,proposer,active.1]

end Committer

section Order
variable {s : State (requests P) (World P) Job Outcome}

/-- A message that the relay has taken was posted when it had just those before it. -/
theorem taken_post {w₀ : World P} (empty : w₀.accepted = []) (hr : Reachable g.system w₀ s)
    {before after : List SignedConstraints} {m : SignedConstraints} (split : s.world.accepted = before ++ m :: after) :
    ∃ id job e, s.Saw id job e ∧ e.op.query = .postConstraints m ∧ e.pre.accepted = before := by
  have none : ¬ before ++ [m] <+: w₀.accepted := by
    rw [empty,List.prefix_nil]
    exact List.append_ne_nil_of_right_ne_nil _ (List.cons_ne_nil _ _)
  have now : before ++ [m] <+: s.world.accepted := ⟨after,by rw [split,List.append_assoc]; rfl⟩
  obtain ⟨id,job,e,saw,hpre,hpost⟩ := hr.provenance (fun w => before ++ [m] <+: w.accepted) none now
  have changes := Changes.of_answers (reached_event hr saw).2.1
  generalize hq : e.op.query = q at changes
  generalize e.post = w' at changes hpost
  cases changes with
  | taken c =>
    rcases List.prefix_concat_iff.mp hpost with whole | old
    · obtain ⟨rfl,one⟩ := List.append_inj' whole rfl
      cases one
      exact ⟨id,job,e,saw,hq,rfl⟩
    · exact absurd old hpre
  | _ => exact absurd hpost hpre

/-- A tick that posts has made the message in its past. -/
theorem posted_flying {w₀ : World P} (hr : Reachable g.system w₀ s) {id : Nat} {e : Event (requests P) (World P)}
    (saw : s.Saw id .processPendingConstraints e) {m : SignedConstraints} (post : e.op.query = .postConstraints m) :
    ∃ u tr committer batch, Reachable g.system w₀ u ∧ u.world = e.pre ∧
      (∀ d ∈ tr, u.Saw id .processPendingConstraints d) ∧ (∀ i j d, u.Saw i j d → s.Saw i j d) ∧
        InFlight g tr m committer batch := by
  obtain ⟨u,v,old,new,hu,hv,ho,hn,jo,jn,trace,pre,_,kept⟩ := hr.moment saw
  have sound := (g.submitting.sound (fun _ => trivial) (hu.step hv)).tasks id new hn
  have events := sound.kept
  rw [trace] at events
  have owed := events.1.2.2.2.2.2
  rw [jn] at owed
  obtain ⟨committer,batch,flying⟩ := owed.post m post
  exact ⟨u,old.trace,committer,batch,hu,pre,fun d hd => ⟨old,ho,jo,hd⟩,kept,flying⟩

variable {c₁ c₂ : CommitmentRow}

/-- Commitments for the same constraint and committer are one. -/
theorem one_row (hr : Reachable g.system (.empty P) s) {r : CommitmentRow} (hrow : r ∈ s.world.commitments.rows)
    (h₂ : c₂ ∈ s.world.commitments.rows) (type : r.commitmentType = c₂.commitmentType)
    (payload : r.payload = c₂.payload) (slasher : r.slasher = c₂.slasher) : r = c₂ := by
  have hash := stored_hash rfl rfl hr hrow
  rw [requestOf,type,payload,slasher] at hash
  exact Commitments.hash_injective hrow h₂ (Except.ok.inj (hash.symm.trans (stored_hash rfl rfl hr h₂)))

/-- When a read has found the later commitment, the earlier one was there too. -/
theorem present (hr : Reachable g.system (.empty P) s) (ordered : InsertsOrdered s)
    (h₁ : c₁ ∈ s.world.commitments.rows) (earlier : c₁.createdAt < c₂.createdAt) {id : Nat} {job : Job}
    {slot : Int64} {rows : List CommitmentRow} {t u : Nat} {w : World P}
    (saw : s.Saw id job ⟨.plain (.sql (.selectUnprocessed slot)), .ok rows, t, u, w, w⟩) {r : CommitmentRow}
    (hrow : r ∈ w.commitments.rows) (later : r.Later c₂) : ∃ r₁ ∈ w.commitments.rows, r₁.Later c₁ := by
  obtain ⟨i,j,e,new,rowId,createdAt,inserted,hq,added,later₁⟩ := reached_added hr h₁ (fun _ h => nomatch h)
  have birth {r c : CommitmentRow} (h : r.Later c) : c.createdAt = r.createdAt := by rw [h.1]
  rcases (g.evolving.ordered (fun _ => trivial) hr inserted saw) with ⟨_,rfl⟩ | before | after
  · cases hq
  · obtain ⟨r₁,held,grown⟩ := before.commitments (new.row rowId createdAt)
      (by rw [added]; exact List.mem_append_right _ List.mem_cons_self)
    have evolved := (reached_event hr saw).2.2
    obtain ⟨now,hn,grown'⟩ := evolved.commitments r₁ held
    have one : now = c₁ := Commitments.hash_injective hn h₁ (by rw [grown'.1,later₁.1,grown.1])
    rw [one] at grown'
    exact ⟨r₁,held,grown'⟩
  · obtain ⟨old,ho,grown⟩ := after.commitments r hrow
    have less := ordered i j e new rowId createdAt inserted hq added old ho
    rw [birth grown,← birth later] at less
    rw [birth later₁] at earlier
    exact absurd earlier (Nat.lt_asymm less)

theorem sentFor_later {r r' : CommitmentRow} (h : r.Later r') : sentFor r' = sentFor r := by
  rw [h.1]
  rfl

theorem sentIn_evolves {w w' : World P} {m : SignedConstraints} {row : CommitmentRow} (h : w.Evolves w')
    (hm : sentFor row ∈ sentIn w m) : sentFor row ∈ sentIn w' m := by
  obtain ⟨constraint,hc,same⟩ := List.mem_map.mp hm
  obtain ⟨slot,committer,rfl⟩ := Sent.mk.inj same
  refine List.mem_map.mpr ⟨⟨1, row.payload⟩,hc,?_⟩
  rw [committerOf_evolves h committer,slot]
  rfl

/-- A processed commitment has its place. -/
theorem processed_sent (hr : Reachable g.system (.empty P) s) {row : CommitmentRow}
    (hrow : row ∈ s.world.commitments.rows) (set : row.constraintProcessed = true) :
    ∃ m ∈ s.world.accepted, sentFor row ∈ sentIn s.world m := by
  obtain ⟨id,task,older,m,ht,tick,suffix,delivered,committer,rows,t,u,pre,post,delegated,_,r,_,_,later,_,_,rfl,_⟩ :=
    processed_origin hr (fun _ h => nomatch h) hrow set
  have named := committerOf_delegated hr (fun d hd => ⟨task,ht,tick,suffix.subset hd⟩) delegated
  refine ⟨m,delivered.taken,List.mem_map.mpr ⟨_,delivered.constraint,?_⟩⟩
  have slasher : row.slasher = r.slasher := by rw [later.1]
  rw [named,sentFor,delivered.slot.2,slasher]

/-- A batch keeps the order of the rows that were read. -/
theorem sorted_before {rows x z : List CommitmentRow} {p : CommitmentRow → Bool} {r r₁ : CommitmentRow}
    (sorted : rows.Pairwise (fun r s => r.createdAt ≤ s.createdAt)) (batch : rows.filter p = x ++ r :: z)
    (h : r₁ ∈ rows.filter p) (earlier : r₁.createdAt < r.createdAt) : r₁ ∈ x := by
  have kept := sorted.filter p
  rw [batch] at kept h
  rcases List.mem_append.mp h with h | h
  · exact h
  · have least := (List.pairwise_append.mp kept).2.1
    rcases List.mem_cons.mp h with rfl | h
    · exact absurd earlier (Nat.lt_irrefl _)
    · exact absurd earlier (Nat.not_lt.mpr (List.rel_of_pairwise_cons least h))

/-- Wherever the later commitment stands, the earlier one stands before it. -/
theorem earlier_before (hr : Reachable g.system (.empty P) s)
    (ticks : ∀ id task, s.tasks id = some task → ∀ slot payload committer,
      task.job ≠ .submitConstraintNow slot payload committer)
    (ordered : InsertsOrdered s) (h₁ : c₁ ∈ s.world.commitments.rows) (h₂ : c₂ ∈ s.world.commitments.rows)
    (type₁ : c₁.commitmentType = 1) (type₂ : c₂.commitmentType = 1) (slot : c₁.slotNumber = c₂.slotNumber)
    (slasher : c₁.slasher = c₂.slasher) (earlier : c₁.createdAt < c₂.createdAt)
    {before after : List SignedConstraints} {m : SignedConstraints} {u v : List Sent}
    (split : s.world.accepted = before ++ m :: after) (place : sentIn s.world m = u ++ sentFor c₂ :: v) :
    sentFor c₁ ∈ before.flatMap (sentIn s.world) ∨ sentFor c₁ ∈ u := by
  obtain ⟨id,job,e,saw,post,rfl⟩ := taken_post rfl hr split
  have tick : job = .processPendingConstraints := by
    have asks := (reached_event hr saw).1
    obtain ⟨task,ht,rfl,_⟩ := saw
    have other := ticks id task ht
    rw [post] at asks
    generalize task.job = job at asks other
    cases asks with
    | tickPost => rfl
    | submitPost => exact absurd rfl (other _ _ _)
  subst tick
  obtain ⟨s',tr,committer,batch,hr',pre,seen,kept,flying⟩ := posted_flying hr saw post
  have named := committerOf_delegated hr (fun d hd => kept _ _ _ (seen d hd)) flying.delegated
  obtain ⟨fits,rows,t,stop,_,w,read,rfl⟩ := flying.batched
  obtain ⟨_,answers,next⟩ := reached_event hr' (seen _ read)
  obtain ⟨perm,sorted,still⟩ := Answers.selectUnprocessed answers
  dsimp only at perm sorted still next
  subst still
  rw [pre] at next
  have known := kept _ _ _ (seen _ read)
  have now := (reached_event hr known).2.2
  dsimp only at now
  have waiting (r : CommitmentRow) : r ∈ rows ↔ r ∈ w.commitments.rows ∧
      r.slotNumber = some m.message.slot.toInt64 ∧ r.constraintProcessed = false := by
    rw [perm.mem_iff,Commitments.unprocessed,List.mem_filter]
    simp
  -- The place in the message is the place of one row in the batch, and that row is the later commitment.
  rw [sentIn,named,flying.constraints,List.map_map] at place
  obtain ⟨x,_,batch,rfl,hz⟩ := List.map_eq_append_iff.mp place
  obtain ⟨r,z,rfl,here,_⟩ := List.map_eq_cons_iff.mp hz
  obtain ⟨column,committed,constraint⟩ := Sent.mk.inj here
  cases committed
  have kept₂ : r ∈ rows.filter (chosen c₂.slasher) := by
    rw [batch]
    exact List.mem_append_right _ List.mem_cons_self
  obtain ⟨listed,picked⟩ := List.mem_filter.mp kept₂
  simp only [chosen,Bool.and_eq_true,decide_eq_true_eq] at picked
  have held := ((waiting r).mp listed).1
  obtain ⟨r₂,hn,later⟩ := now.commitments r held
  have one : r₂ = c₂ := by
    refine one_row hr hn h₂ ?_ ?_ ?_
    · rw [later.1,type₂]
      exact picked.2
    · rw [later.1]
      exact (Constraint.mk.inj constraint).2
    · rw [later.1]
      exact picked.1
  subst one
  obtain ⟨r₁,held₁,later₁⟩ := present hr ordered h₁ earlier known held later
  rw [sentFor_later later₁]
  cases mark : r₁.constraintProcessed with
  | true =>
    obtain ⟨v,_,_,_,hv,_,_,_,_,_,_,was,_,_⟩ := hr.moment known
    dsimp only at was
    rw [← was] at held₁
    obtain ⟨m',taken,place'⟩ := processed_sent hv held₁ mark
    rw [was] at taken place'
    exact .inl (List.mem_flatMap.mpr ⟨m',next.accepted.subset taken,sentIn_evolves now place'⟩)
  | false =>
    have column₁ : r₁.slotNumber = some m.message.slot.toInt64 := by
      rw [← fits]
      exact (congrArg Sent.slot (sentFor_later later₁)).symm.trans (slot.trans column.symm)
    have slasher₁ : r₁.slasher = r₂.slasher := by
      rw [← slasher,later₁.1]
    have picked₁ : chosen r₂.slasher r₁ = true := by
      have type : r₁.commitmentType = 1 := by
        rw [← type₁,later₁.1]
      simp [chosen,slasher₁,type]
    have before₁ : r₁.createdAt < r.createdAt := by
      have birth : c₁.createdAt = r₁.createdAt := by rw [later₁.1]
      have birth₂ : r₂.createdAt = r.createdAt := by rw [later.1]
      rwa [birth,birth₂] at earlier
    have first := sorted_before sorted batch (List.mem_filter.mpr ⟨(waiting r₁).mpr ⟨held₁,column₁,mark⟩,picked₁⟩) before₁
    refine .inr (List.mem_map.mpr ⟨r₁,first,?_⟩)
    rw [sentFor,column₁,slasher₁,← fits]
    rfl

/-- Of two commitments of one slot to one committer, the relay has the later one only when it
has the earlier one, and the earlier one first. -/
theorem first_come_first_served (hr : Reachable g.system (.empty P) s)
    (ticks : ∀ id task, s.tasks id = some task → ∀ slot payload committer,
      task.job ≠ .submitConstraintNow slot payload committer)
    (ordered : InsertsOrdered s) (h₁ : c₁ ∈ s.world.commitments.rows) (h₂ : c₂ ∈ s.world.commitments.rows)
    (type₁ : c₁.commitmentType = 1) (type₂ : c₂.commitmentType = 1) (slot : c₁.slotNumber = c₂.slotNumber)
    (slasher : c₁.slasher = c₂.slasher) (earlier : c₁.createdAt < c₂.createdAt)
    (accepted : sentFor c₂ ∈ acceptedOrder s.world) :
    sentFor c₁ ∈ acceptedOrder s.world ∧
      (acceptedOrder s.world).idxOf (sentFor c₁) < (acceptedOrder s.world).idxOf (sentFor c₂) := by
  refine idxOf_lt_of_before ?_ accepted
  intro xs ys split
  obtain ⟨before,m,after,u,v,messages,place,rfl⟩ := flatMap_split split
  rcases earlier_before hr ticks ordered h₁ h₂ type₁ type₂ slot slasher earlier messages place with old | here
  · exact List.mem_append_left _ old
  · exact List.mem_append_right _ here

end Order

/-- The table of commitments grew at its end. -/
def Grows (w w' : World P) : Prop :=
  w.commitments.rows.map CommitmentRow.createdAt <+: w'.commitments.rows.map CommitmentRow.createdAt

theorem Grows.refl (w : World P) : Grows w w := List.prefix_refl _

theorem Grows.trans {a b c : World P} (h : Grows a b) (k : Grows b c) : Grows a c := List.IsPrefix.trans h k

theorem grows_event {w₀ : World P} {s : State (requests P) (World P) Job Outcome} (hr : Reachable g.system w₀ s)
    {id : Nat} {job : Job} {e : Event (requests P) (World P)} (saw : s.Saw id job e) : Grows e.pre e.post := by
  have changes := Changes.of_answers (reached_event hr saw).2.1
  generalize e.op.query = q at changes
  generalize e.post = w' at changes ⊢
  cases changes with
  | inserted new rowId createdAt commitments added =>
    rcases insert_kind added with ⟨hn,_⟩ | ⟨_,rows,_⟩
    · cases hn
    · exact ⟨[createdAt],by rw [rows,List.map_append]; rfl⟩
  | marked hashes =>
    have same : (fun r : CommitmentRow => (r.processed hashes).createdAt) = CommitmentRow.createdAt := by
      funext r
      rw [(r.later_processed hashes).1]
    have times : (e.pre.commitments.markProcessed hashes).rows.map CommitmentRow.createdAt =
        e.pre.commitments.rows.map CommitmentRow.createdAt := by
      rw [Commitments.markProcessed,List.map_map,Function.comp_def,same]
    exact ⟨[],by rw [times,List.append_nil]⟩
  | _ => exact List.prefix_refl _

/-- A table that lists its rows by their times was filled in that order. -/
theorem insertsOrdered_of_rows {w₀ : World P} {s : State (requests P) (World P) Job Outcome}
    (hr : Reachable g.system w₀ s)
    (sorted : s.world.commitments.rows.Pairwise (fun r r' => r.createdAt < r'.createdAt)) : InsertsOrdered s := by
  intro id job e new rowId createdAt saw _ added r hrow
  have grows : Grows e.post s.world :=
    hr.since Grows.refl Grows.trans (fun hu _ _ _ seen => grows_event hu seen) saw
  have all := (List.pairwise_map.mpr sorted).sublist grows.sublist
  rw [added,List.map_append,List.pairwise_append] at all
  exact all.2.2 _ (List.mem_map_of_mem hrow) createdAt List.mem_cons_self

/-- A tick that sends both commitments. -/
def pairTick : Scene Job Choice where
  job := .processPendingConstraints
  time := 62000
  choices := [(.done, 62000),(.done, 62000),(.delegations (polled offer), 62000),
    (.commitments [servedRow, CommitmentGas.nextRow], 62000),(.posted (.ok ⟨200, some []⟩) true, 62000),
    (.done, 62000)] ++ idleSlots 62000

/-- Two calls and a tick that sends both. -/
theorem first_come_first_served_pair :
    ∃ (s : State (requests (platform offer)) (World (platform offer)) Job Outcome) (c₁ c₂ : CommitmentRow),
      Reachable small.system (.empty _) s ∧ c₁ ∈ s.world.commitments.rows ∧ c₂ ∈ s.world.commitments.rows ∧
        c₁.createdAt < c₂.createdAt ∧ sentFor c₂ ∈ acceptedOrder s.world ∧ sentFor c₁ ∈ acceptedOrder s.world ∧
          (acceptedOrder s.world).idxOf (sentFor c₁) < (acceptedOrder s.world).idxOf (sentFor c₂) := by
  let c₁ := { servedRow with constraintProcessed := true }
  let c₂ := { CommitmentGas.nextRow with constraintProcessed := true }
  have run : (small.system.script [pairTick] CommitmentGas.servedBoth 61000).any (fun out =>
      out.1.length = 1 && out.2.1.commitments.rows = [c₁, c₂] && decide (sentFor c₂ ∈ acceptedOrder out.2.1)) =
        true := by decide +kernel
  obtain ⟨s₀,hr₀,hi₀,hw,ht,free,jobs⟩ := CommitmentGas.both_reachable
  rw [← hw,← ht] at run
  obtain ⟨s,outs,hr,_,hp,kept,rest,done⟩ := reach_of_script hr₀ hi₀ free run
  simp only [Bool.and_eq_true,decide_eq_true_eq] at hp
  obtain ⟨⟨one,rows⟩,accepted⟩ := hp
  obtain ⟨out,rfl⟩ := List.length_eq_one_iff.mp one
  have ticks : ∀ i task, s.tasks i = some task → ∀ slot payload committer,
      task.job ≠ .submitConstraintNow slot payload committer := by
    intro i task hi slot payload committer
    by_cases old : i < 3
    · rw [kept i old] at hi
      rcases jobs i task hi with polls | ⟨params,calls⟩
      · rw [polls]
        nofun
      · rw [calls]
        nofun
    · by_cases new : i = 3
      · obtain ⟨since,mine⟩ := done 0 pairTick out rfl rfl
        subst new
        cases mine.symm.trans hi
        nofun
      · have none : 3 + 1 ≤ i := by omega
        cases (rest i none).symm.trans hi
  have h₁ : c₁ ∈ s.world.commitments.rows := by
    rw [rows]
    exact List.mem_cons_self
  have h₂ : c₂ ∈ s.world.commitments.rows := by
    rw [rows]
    exact List.mem_cons_of_mem _ List.mem_cons_self
  have ordered : InsertsOrdered s := insertsOrdered_of_rows hr (by rw [rows]; decide)
  obtain ⟨first,before⟩ := first_come_first_served hr ticks ordered h₁ h₂ rfl rfl rfl rfl (by decide) accepted
  exact ⟨s,c₁,c₂,hr,h₁,h₂,by decide,accepted,first,before⟩

end PreconfGateway.Properties.FirstCome
