import PreconfGateway.Interleaving.Beside
import PreconfGateway.Records
import PreconfGateway.Rpc.Catalogue

/-! The whole server: beside the jobs of the gateway the two other methods of its interface, and the
refresh of the gas price. -/
namespace PreconfGateway
open Encoding Types Db Interleaving Rpc Services
variable {P : Platform}

inductive Call
  | fee (params : Option CommitmentRequest)
  | slots
  | refreshGasPrice
  deriving DecidableEq

inductive Answer
  | fee (r : RpcResult FeeInfo)
  | slots (r : RpcResult SlotInfoResponse)
  | refreshed

abbrev Entry := Job ⊕ Call

abbrev Ending := Outcome ⊕ Answer

/-- The fee that a call was answered with. -/
def Ending.fee? : Ending → Option FeeInfo
  | .inr (.fee (.ok info)) => some info
  | _ => none

theorem Ending.fee_some {ending : Ending} {info : FeeInfo} (h : ending.fee? = some info) : ending = .inr (.fee (.ok info)) := by
  unfold Ending.fee? at h
  split at h
  · cases h
    rfl
  · cases h

namespace Gateway
variable (g : Gateway P)

/-- The repertoire of the further calls. -/
inductive AsksFurther : Call → Query P → Prop
  | feeNow (params : Option CommitmentRequest) : AsksFurther (.fee params) .now
  | feePrice (params : Option CommitmentRequest) : AsksFurther (.fee params) .gasPrice
  | feeInsert (params : Option CommitmentRequest) (row : CongestionRow P) (opened : Opened g.config row) :
      AsksFurther (.fee params) (.sql (.insertCongestion row))
  | feeSelect (params : Option CommitmentRequest) (slot : Int64) : AsksFurther (.fee params) (.sql (.selectCongestion slot))
  | slotsNow : AsksFurther .slots .now
  | refreshPrice : AsksFurther .refreshGasPrice .gasPrice

/-- The repertoire of everything that runs. -/
inductive Requests : Entry → Query P → Prop
  | job {j : Job} {q : Query P} (asks : g.Asks j q) : Requests (.inl j) q
  | call {k : Call} {q : Query P} (asks : g.AsksFurther k q) : Requests (.inr k) q

variable {g} in
/-- A further call changes nothing, or opens a record. -/
theorem AsksFurther.changes {k : Call} {q : Query P} {w w' : World P} (asks : g.AsksFurther k q) (changes : Changes w q w') :
    w' = w ∨ ∃ row, q = .sql (.insertCongestion row) ∧ Opened g.config row ∧
      w' = { w with congestion := (w.congestion.insert row).2 } := by
  cases changes with
  | same => exact .inl rfl
  | recorded row =>
    cases asks with
    | feeInsert params row opened => exact .inr ⟨row,rfl,opened,rfl⟩
  | switchedOff _ _ how =>
    rcases how with ⟨_,rfl,_⟩ | ⟨_,rfl,_⟩ <;> cases asks
  | _ => cases asks

/-- The price that is refreshed goes into no cache. -/
def further : Call → Async P Answer
  | .fee params => do
    let r ← feeHandler g.config params
    pure (.fee r)
  | .slots => do
    let r ← slotsHandler g.config
    pure (.slots r)
  | .refreshGasPrice => do
    let _ ← ask .gasPrice
    pure .refreshed

def server : System (requests P) (World P) Entry Ending := g.system.beside g.further

theorem quoteFee_obeys {ok : Op P → Prop} {config : Config P} {request : CommitmentRequest} {slot : UInt64}
    (price : ok (.plain .gasPrice)) (insert : ∀ row, Opened config row → ok (.plain (.sql (.insertCongestion row))))
    (select : ∀ slot, ok (.plain (.sql (.selectCongestion slot)))) :
    (quoteFee config request slot).Obeys ok (fun _ => True) := by
  refine (calculateFee_obeys price insert select).bind fun r _ => ?_
  rcases r with e | fee
  · cases e <;> exact trivial
  · exact trivial

theorem feeHandler_obeys {ok : Op P → Prop} {config : Config P} {params : Option CommitmentRequest}
    (clock : ok (.plain .now)) (price : ok (.plain .gasPrice)) (insert : ∀ row, Opened config row → ok (.plain (.sql (.insertCongestion row))))
    (select : ∀ slot, ok (.plain (.sql (.selectCongestion slot)))) :
    (feeHandler config params).Obeys ok (fun _ => True) := by
  cases params with
  | none => exact trivial
  | some request =>
    unfold feeHandler
    dsimp only
    split
    · exact trivial
    · split
      · exact trivial
      · rename_i slot _
        have acceptable : (FeePricing.isSlotAcceptableForFees config slot).Obeys ok (fun _ => True) :=
          obeys_asked clock fun _ => trivial
        refine acceptable.bind fun a _ => ?_
        split
        · exact quoteFee_obeys price insert select
        · exact trivial

theorem further_obeys (k : Call) : (g.further k).Obeys (fun op : Op P => g.AsksFurther k op.query) (fun _ => True) := by
  cases k with
  | fee params =>
    exact (feeHandler_obeys (.feeNow params) (.feePrice params) (.feeInsert params) (.feeSelect params)).bind
      fun _ _ => trivial
  | slots => exact obeys_asked .slotsNow fun now => trivial
  | refreshGasPrice => exact obeys_asked .refreshPrice fun r => trivial

/-- Everything that runs keeps to its repertoire. -/
theorem server_obeys (entry : Entry) :
    (g.server.code entry).Obeys (fun op : Op P => g.Requests entry op.query) (fun _ => True) := by
  cases entry with
  | inl j => exact ((g.code_obeys j).mono (fun _ => .job) fun _ h => h).bind fun _ _ => trivial
  | inr k => exact ((g.further_obeys k).mono (fun _ => .call) fun _ h => h).bind fun _ _ => trivial

variable {g} {inv : World P → Prop} {guarantee : Job → Trace P → Event (requests P) (World P) → Prop}
  {guarantee' : Call → Trace P → Event (requests P) (World P) → Prop}
  {Q : Job → Trace P → Outcome → World P → Nat → Prop} {Q' : Call → Trace P → Answer → World P → Nat → Prop}

/-- The terms on which everything runs together. -/
abbrev terms (g : Gateway P) (inv : World P → Prop) (guarantee : Job → Trace P → Event (requests P) (World P) → Prop)
    (guarantee' : Call → Trace P → Event (requests P) (World P) → Prop) : Entry → Contract (requests P) (World P) :=
  Sum.elim (g.contract inv guarantee) fun k => (discipline inv (guarantee' k)).obeying (fun op : Op P => g.AsksFurther k op.query)

/-- What was verified of the jobs holds in the server, if the further calls keep the invariant. -/
theorem verified_server (hv : Verified g.system (g.contract inv guarantee) World.Evolves Q)
    (start : ∀ k t w, inv w → (discipline inv (guarantee' k)).Safe g.machine (Q' k) (g.further k) [] w t)
    (step : ∀ k tr e, inv e.pre → Changes e.pre e.op.query e.post → g.AsksFurther k e.op.query → guarantee' k tr e → inv e.post) :
    Verified g.server (g.terms inv guarantee guarantee') World.Evolves (Beside Q Q') := by
  refine hv.beside (fun _ _ _ => trivial) ?_ ?_ ?_
  · intro k t w _ hi
    exact (start k t w hi).obeying (g.further_obeys k)
  · intro j tr e hi _ answers guaranteed
    obtain ⟨kept,evolved,_⟩ := hv.step j tr e hi answers trivial guaranteed
    exact ⟨fun _ => kept j,fun _ => evolved⟩
  · intro k tr e _ hi answers guaranteed
    have changes := Changes.of_answers answers
    have kept := step k tr e (hi k) changes guaranteed.1 guaranteed.2
    exact ⟨⟨fun _ => kept,fun _ => changes.evolves⟩,fun _ => kept,changes.evolves,fun _ => changes.evolves⟩

end Gateway

section Reached
variable {g : Gateway P} {w₀ : World P} {s : State (requests P) (World P) Entry Ending}

/-- Without further demands: everything keeps to its repertoire and the world evolves. -/
theorem Gateway.server_evolving (g : Gateway P) :
    Verified g.server (g.terms (fun _ => True) (fun _ _ _ => True) (fun _ _ _ => True)) World.Evolves
      (Beside (fun _ _ _ _ _ => True) (fun _ _ _ _ _ => True)) := by
  refine Gateway.verified_server g.evolving ?_ (fun _ _ _ _ _ _ _ => trivial)
  intro k t w _
  exact (Contract.Safe.of_obeys (g.further_obeys k) (fun _ _ _ _ _ => trivial) (fun _ _ _ => trivial)).mono
    (fun _ _ _ _ _ => trivial)

/-- An event that a task of the server remembers was answered by the machine, within its repertoire. -/
theorem server_event (hr : Reachable g.server w₀ s) {id : Nat} {entry : Entry} {e : Event (requests P) (World P)}
    (h : s.Saw id entry e) :
    g.Requests entry e.op.query ∧ g.machine.Answers e.stop e.pre e.op e.reply e.post ∧ e.post.Evolves s.world := by
  obtain ⟨task,ht,rfl,he⟩ := h
  have sound := (g.server_evolving.sound (by rintro (j | k) <;> exact trivial) hr).tasks id task ht
  obtain ⟨newer,older,_,_,_,answers,_,guaranteed⟩ := sound.kept.mem he
  refine ⟨?_,answers,sound.evolved e he⟩
  generalize task.job = entry at guaranteed
  cases entry with
  | inl j => exact .job guaranteed.1
  | inr k => exact .call guaranteed.1

theorem server_added (hr : Reachable g.server w₀ s) {row : CommitmentRow} (hrow : row ∈ s.world.commitments.rows)
    (absent : ∀ r ∈ w₀.commitments.rows, r.requestHash ≠ row.requestHash) :
    ∃ id entry e new rowId createdAt, s.Saw id entry e ∧ e.op.query = .sql (.insertCommitment new) ∧
      e.post.commitments.rows = e.pre.commitments.rows ++ [new.row rowId createdAt] ∧
        (new.row rowId createdAt).Later row := by
  refine added_once hr (fun id entry e saw => ?_) hrow absent
  obtain ⟨_,answers,evolved⟩ := server_event hr saw
  exact ⟨Changes.of_answers answers,evolved⟩

end Reached

end PreconfGateway
