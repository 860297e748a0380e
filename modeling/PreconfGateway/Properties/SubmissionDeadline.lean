import PreconfGateway.Properties.Delivery
import PreconfGateway.Times

/-! A submission that was asked for directly gives up at the deadline. A tick tests the
window once for each slot, and its messages are in time when that leaves time for all of them. -/
namespace PreconfGateway.Properties.SubmissionDeadline
open Encoding Types Db Crypto Interleaving Rpc Services Fixture
variable {P : Platform} {g : Gateway P}

/-- The rows with the own key as delegate. -/
def ownRows (config : Config P) (rows : List DelegationRow) : List DelegationRow :=
  rows.filter (fun r => r.delegatePubkey = config.signing.blsPublicKey.bytes)

/-- When a tick learns of the delegations of a slot, its last attempt can still start before the deadline. -/
def Roomy (g : Gateway P) (job : Job) (e : Event (requests P) (World P)) : Prop :=
  job = .processPendingConstraints →
    ∀ slot rows t u w w', e = ⟨.plain (.sql (.selectDelegations (UInt64.toInt64 slot))), .ok rows, t, u, w, w'⟩ →
      ownRows g.config rows ≠ [] → g.Open slot (u + g.lastPostMs (ownRows g.config rows).length)

abbrev inTime (g : Gateway P) (job : Job) : Contract (requests P) (World P) :=
  Gateway.schedule (fun _ => Roomy g job) (fun _ _ => True) g.Due

/-- A program without messages is never late. -/
theorem silent_inTime {α : Type} {post : α → Prop} {p : Async P α} {job : Job}
    (hp : p.Obeys (fun op : Op P => ∀ m, op.query ≠ .postConstraints m) post) {tr : Trace P} {w : World P} {t : Nat} :
    (inTime g job).Safe g.machine (fun _ _ _ _ => True) p tr w t := by
  have due : ∀ (op : Op P) (t : Nat), (∀ m, op.query ≠ .postConstraints m) → g.Due op t :=
    fun op t h m hm => absurd hm (h m)
  exact (Contract.Safe.of_obeys (C := inTime g job) hp (fun _ op _ t h => ⟨trivial,due op t h⟩)
    (fun _ e h => ⟨trivial,due e.op e.start h⟩)).mono (fun _ _ _ _ _ => trivial)

/-- A timely program is never late. -/
theorem timely_inTime {α : Type} {p : Async P α} {job : Job} {last : Nat} {tr : Trace P} {w : World P} {t : Nat}
    (hp : p.Timely g.machine g.Due last t) : (inTime g job).Safe g.machine (fun _ _ _ _ => True) p tr w t := by
  have free : ((Gateway.discipline (P := P) (fun _ => True) (fun _ _ => True)).permitting
      (fun _ => Roomy g job)).Safe g.machine (fun _ _ _ _ => True) p tr w t :=
    (Contract.Safe.of_obeys (C := (Gateway.discipline (fun _ => True) (fun _ _ => True)).permitting
      (fun _ => Roomy g job)) p.obeys_true (fun _ _ _ _ _ => trivial) (fun _ _ _ => trivial)).mono
        (fun _ _ _ _ _ => trivial)
  exact (free.punctual hp (Nat.le_refl t)).mono (fun _ _ _ _ _ => trivial)

theorem ownDelegations_length {rows : List DelegationRow} {ds : List SignedDelegation}
    (h : rows.mapM signedDelegationOf = .ok ds) :
    (ownDelegations g.config ds).length = (ownRows g.config rows).length := by
  induction rows generalizing ds with
  | nil =>
    cases h
    rfl
  | cons row rows ih =>
    rw [List.mapM_cons] at h
    obtain ⟨d,hd,h⟩ := bind_ok.mp h
    obtain ⟨ds',hds,h⟩ := bind_ok.mp h
    cases h
    have same : d.message.delegate = g.config.signing.blsPublicKey ↔
        row.delegatePubkey = g.config.signing.blsPublicKey.bytes := by
      rw [← signedDelegationOf_delegate hd]
      obtain ⟨key,_⟩ := d.message.delegate
      obtain ⟨key',_⟩ := g.config.signing.blsPublicKey
      simp
    by_cases own : d.message.delegate = g.config.signing.blsPublicKey
    · simpa [ownDelegations,ownRows,own,same.mp own] using ih hds
    · simpa [ownDelegations,ownRows,own,mt same.mpr own] using ih hds

theorem processConstraintsForSlot_inTime {slot : UInt64} {tr : Trace P} {w : World P} {t : Nat} :
    (inTime g .processPendingConstraints).Safe g.machine (fun _ _ _ _ => True)
      (ConstraintSubmission.processConstraintsForSlot g.blsManager g.config slot) tr w t := by
  unfold ConstraintSubmission.processConstraintsForSlot getDelegationsForSlot
  rw [bind_assoc]
  refine Gateway.safe_request ⟨trivial,fun _ => nofun⟩ fun w₁ u r w₂ _ _ _ _ _ roomy => ⟨⟨trivial,fun _ => nofun⟩,?_⟩
  rcases r with e | rows
  · exact trivial
  · cases hds : rows.mapM signedDelegationOf with
    | error e =>
      simp only [hds]
      exact trivial
    | ok ds =>
      simp only [hds]
      have same := ownDelegations_length (g := g) hds
      have opened := roomy rfl slot rows t u w₁ w₂ rfl
      refine (timely_inTime (processDelegations_timely ?_)).bind (fun _ _ _ _ _ => trivial)
      intro others
      rw [same]
      refine opened (List.length_eq_zero_iff.not.mp ?_)
      rw [← same]
      exact List.length_eq_zero_iff.not.mpr others

theorem processSlots_inTime {slots : List UInt64} {tr : Trace P} {w : World P} {t : Nat} :
    (inTime g .processPendingConstraints).Safe g.machine (fun _ _ _ _ => True)
      (ConstraintSubmission.processSlots g.blsManager g.config slots) tr w t := by
  induction slots generalizing tr w t with
  | nil => exact trivial
  | cons slot slots ih =>
    refine Gateway.safe_request ⟨trivial,fun _ => nofun⟩ fun _ _ _ _ _ _ _ _ _ _ => ⟨⟨trivial,fun _ => nofun⟩,?_⟩
    split
    · exact processConstraintsForSlot_inTime.bind fun _ _ _ _ _ => ih
    · exact ih

theorem processPendingConstraints_inTime {tr : Trace P} {w : World P} {t : Nat} :
    (inTime g .processPendingConstraints).Safe g.machine (fun _ _ _ _ => True)
      (ConstraintSubmission.processPendingConstraints g.blsManager g.config) tr w t := by
  refine Gateway.safe_request ⟨trivial,fun _ => nofun⟩ fun _ _ _ _ _ _ _ _ _ _ => ⟨⟨trivial,fun _ => nofun⟩,?_⟩
  exact processSlots_inTime.bind fun _ _ _ _ _ => trivial

/-- The timeout ends with the second of the deadline. -/
theorem timeout_ends {deadline now : UInt64} {started t : Nat} (before : ¬ now ≥ deadline)
    (shown : now.toNat = started / 1000) (ht : t ≤ started + (deadline - now).toNat * 1000) :
    t / 1000 ≤ deadline.toNat := by
  have bound := UInt64.lt_iff_toNat_lt.mp (UInt64.not_le.mp before)
  have rest := UInt64.toNat_sub_of_le _ _ (UInt64.le_of_lt (UInt64.not_le.mp before))
  omega

theorem submitBefore_inTime {slot : UInt64} {m : SignedConstraints} {job : Job} (hslot : m.message.slot = slot)
    {tr : Trace P} {w : World P} {t : Nat} :
    (inTime g job).Safe g.machine (fun _ _ _ _ => True) (ConstraintSubmission.submitBefore g.config slot m) tr w t := by
  refine Gateway.safe_request ⟨trivial,fun _ => nofun⟩ fun w₁ u now w₂ _ _ hu hin answers _ =>
    ⟨⟨trivial,fun _ => nofun⟩,?_⟩
  obtain ⟨shown,_⟩ := Answers.now answers
  split
  · exact trivial
  · rename_i before
    refine Gateway.safe_request ⟨trivial,fun _ => nofun⟩ fun w₃ u' started w₄ _ _ hu' hin' answers' _ =>
      ⟨⟨trivial,fun _ => nofun⟩,?_⟩
    obtain ⟨rfl,_⟩ := Answers.instant answers'
    have at_once : started ≤ u := hin' _ rfl
    refine (timely_inTime (timeoutAt_timely (Nat.le_add_right _ _) (submitLoop_obeys ?_ ?_))).bind
      (fun _ r _ _ _ => ?_)
    · refine ⟨_,rfl,fun v hv m' hm => ?_⟩
      cases hm
      rw [hslot]
      exact timeout_ends before (shown.trans (by rw [Nat.le_antisymm hu' at_once])) hv
    · exact fun ms => ⟨_,rfl,fun _ _ => nofun⟩
    · rcases r with _ | (e | response) <;> exact trivial

theorem submitConstraint_inTime {slot : UInt64} {payload : Bytes} {committer : String} {job : Job} {tr : Trace P}
    {w : World P} {t : Nat} : (inTime g job).Safe g.machine (fun _ _ _ _ => True)
      (ConstraintSubmission.submitConstraint g.blsManager g.config slot payload committer) tr w t := by
  unfold ConstraintSubmission.submitConstraint
  split
  · exact trivial
  · have read : (getDelegationsForSlot P slot).Obeys (fun op : Op P => ∀ m, op.query ≠ .postConstraints m)
        (fun _ => True) := getDelegationsForSlot_obeys (fun _ => nofun)
    refine (silent_inTime read).bind fun _ r _ _ _ => ?_
    rcases r with e | delegations
    · exact trivial
    · dsimp only
      split
      · exact trivial
      · rename_i d hd
        have found := List.find?_some hd
        rw [Bool.and_eq_true] at found
        split
        · exact trivial
        · rename_i m hm
          obtain ⟨_,_,hslot,_⟩ := buildSignedConstraints_issued (of_decide_eq_true found.1) hm
          exact (submitBefore_inTime hslot).bind fun _ _ _ _ _ => trivial

theorem deadline_verified (g : Gateway P) :
    Verified g.system (fun job => (inTime g job).assuming) World.Evolves (fun _ _ _ _ _ => True) := by
  refine Gateway.verified_assuming (Q := fun _ _ _ _ _ => True) ?_
  intro j t w
  have idle {j : Job} (hj : j ≠ .processPendingConstraints)
      (hj' : ∀ slot payload committer, j ≠ .submitConstraintNow slot payload committer) :
      (inTime g j).Safe g.machine (fun _ _ _ _ => True) (g.code j) [] w t := by
    refine silent_inTime ((g.code_obeys j).mono ?_ (fun _ h => h))
    intro op ha m hm
    rw [hm] at ha
    cases ha with
    | tickPost => exact hj rfl
    | submitPost slot payload committer => exact hj' slot payload committer rfl
  cases j with
  | processPendingConstraints => exact processPendingConstraints_inTime.bind fun _ _ _ _ _ => trivial
  | submitConstraintNow => exact submitConstraint_inTime.bind fun _ _ _ _ _ => trivial
  | _ => exact idle nofun nofun

/-- A direct submission posts no message after the deadline of its slot, answered or not, and neither does a
tick that learns of the delegations of each slot early enough, whatever runs beside them. -/
theorem no_late_post (g : Gateway P) {w₀ : World P} {s : State (requests P) (World P) Job Outcome}
    (hr : Reachable g.system w₀ s) {id : Nat} {task : Task (requests P) (World P) Job Outcome}
    (ht : s.tasks id = some task) (room : ∀ e ∈ task.trace, Roomy g task.job e) :
    (∀ e ∈ task.trace, ∀ m, e.op.query = .postConstraints m → g.Open m.message.slot e.start) ∧
      ∀ op m, task.Waits op → op.query = .postConstraints m → g.Open m.message.slot task.since := by
  have sound := ((deadline_verified g).sound (fun _ => trivial) hr).tasks id task ht
  have met : Contract.Met (fun _ => Roomy g task.job) task.trace := Contract.met_of_mem fun e he _ => room e he
  constructor
  · intro e he m hm
    obtain ⟨newer,older,split,_,_,_,_,kept⟩ := sound.kept.mem he
    rw [split] at met
    exact (kept met.older).2 m hm
  · intro op m waits hm
    have safe := sound.running ⟨op,waits⟩
    obtain ⟨_,pending⟩ := waits
    cases hp : task.program with
    | ret a =>
      rw [hp] at pending
      cases pending
    | call op' k =>
      rw [hp] at pending safe
      cases pending
      exact (safe.1 met).2 m hm

/-- The condition on one event, to be evaluated. -/
def roomy (g : Gateway P) (e : Event (requests P) (World P)) : Bool :=
  match e with
  | ⟨.plain (.sql (.selectDelegations slot)), .ok rows, _, u, _, _⟩ =>
    (ownRows g.config rows).isEmpty || decide (g.Open slot.toUInt64 (u + g.lastPostMs (ownRows g.config rows).length))
  | _ => true

def posts (run : Trace P × Outcome) : Bool :=
  run.1.any (fun e =>
    match e.op.query with
    | .postConstraints _ => true
    | _ => false)

/-- A tick seven seconds before the deadline, with a relay that has five seconds for an answer. -/
theorem no_late_post_ticked : ∃ s task, Reachable small.system (.empty _) s ∧ s.tasks 2 = some task ∧
    task.job = .processPendingConstraints ∧ (∀ e ∈ task.trace, Roomy small task.job e) ∧
      (∃ e ∈ task.trace, ∃ m, e.op.query = .postConstraints m) ∧
        ∀ e ∈ task.trace, ∀ m, e.op.query = .postConstraints m → small.Open m.message.slot e.start := by
  have run : (small.system.script [tick 61000] served 61000).any (fun out =>
      out.1.length = 1 && out.1.all (fun run => posts run && run.1.all (roomy small))) = true := by
    decide +kernel
  obtain ⟨s,out,since,hr,hp,mine,_⟩ := Delivery.reach_of_tick (p := fun run _ => posts run && run.1.all (roomy small)) run
  rw [Bool.and_eq_true] at hp
  have room : ∀ e ∈ out.1.reverse, Roomy small .processPendingConstraints e := by
    rintro e he _ slot rows t u w w' rfl
    have met := List.all_eq_true.mp hp.2 _ (List.mem_reverse.mp he)
    simp only [roomy,Bool.or_eq_true,List.isEmpty_iff,decide_eq_true_eq,UInt64.toUInt64_toInt64] at met
    exact met.resolve_left
  obtain ⟨e,he,post⟩ := List.any_eq_true.mp hp.1
  refine ⟨s,_,hr,mine,rfl,room,⟨e,List.mem_reverse.mpr he,?_⟩,(no_late_post small hr mine room).1⟩
  split at post
  · rename_i m hm
    exact ⟨m,hm⟩
  · cases post

/-- The second attempt of a message for the fifth slot. -/
def lateAttempt (e : Event (requests (platform offer)) (World (platform offer))) : Bool :=
  match e.op.query with
  | .postConstraints m => m.message.slot = 5 && decide (e.start = 69200)
  | _ => false

/-- A tick that tested the window in time posts a second after the deadline. -/
theorem late_post : ∃ s id task e m, Reachable small.system (.empty _) s ∧ s.tasks id = some task ∧
    e ∈ task.trace ∧ e.op.query = .postConstraints m ∧ ¬ small.Open m.message.slot e.start := by
  have run : (small.system.script [retry] served 61000).any (fun out =>
      out.1.length = 1 && out.1.all (fun run => run.1.any lateAttempt)) = true := by
    decide +kernel
  obtain ⟨s,out,since,hr,hp,mine,_⟩ := Delivery.reach_of_tick (p := fun run _ => run.1.any lateAttempt) run
  obtain ⟨e,he,late⟩ := List.any_eq_true.mp hp
  unfold lateAttempt at late
  split at late
  · rename_i m hm
    simp only [Bool.and_eq_true,decide_eq_true_eq] at late
    refine ⟨s,2,_,e,m,hr,mine,List.mem_reverse.mpr he,hm,?_⟩
    rw [late.1,late.2]
    decide
  · cases late

end PreconfGateway.Properties.SubmissionDeadline
