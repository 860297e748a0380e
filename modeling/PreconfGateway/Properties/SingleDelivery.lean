import PreconfGateway.Fixture
import PreconfGateway.Interleaving.Exclusive
import PreconfGateway.Interleaving.Schedule
import PreconfGateway.Properties.DelegationLookup
import PreconfGateway.Properties.RequestHash
import PreconfGateway.Submissions

/-! How often the constraint of a stored commitment reaches the relay, when ticks overlap or not,
when the relay's answers can be relied on or not, and when a mark is made or fails. -/
namespace PreconfGateway.Properties.SingleDelivery
open Encoding Types Db Crypto Interleaving Services Fixture RequestHash
variable {P : Platform} {g : Gateway P}

/-- The constraint of no stored commitment is in two messages that the relay has taken. -/
def Once (w : World P) : Prop :=
  ∀ row ∈ w.commitments.rows, ∀ (i j : Nat) (m m' : SignedConstraints), w.accepted[i]? = some m →
    w.accepted[j]? = some m' → constraintOf row ∈ m.message.constraints →
      constraintOf row ∈ m'.message.constraints → i = j

/-- The messages that were taken have no constraint in common. -/
def Apart (w : World P) : Prop :=
  w.accepted.Pairwise (fun m m' => ∀ c ∈ m.message.constraints, c ∉ m'.message.constraints)

/-- What was taken belongs to rows that are marked, or have one of the hashes. -/
def Covered (hashes : List String) (w : World P) : Prop :=
  ∀ m ∈ w.accepted, ∀ c ∈ m.message.constraints, ∃ row ∈ w.commitments.rows, constraintOf row = c ∧
    (row.constraintProcessed = true ∨ row.requestHash ∈ hashes)

abbrev Settled (w : World P) : Prop := Covered [] w

/-- The rows of a batch are as they were read. -/
def Waiting (batch : List CommitmentRow) (w : World P) : Prop :=
  ∀ row ∈ batch, row ∈ w.commitments.rows ∧ row.constraintProcessed = false

/-- No message is taken, and rows stay as they are. -/
structure Quiet (a b : World P) : Prop where
  accepted : b.accepted = a.accepted
  rows : a.commitments.rows ⊆ b.commitments.rows

theorem Quiet.refl (w : World P) : Quiet w w := ⟨rfl,List.Subset.refl _⟩

theorem Quiet.trans {a b c : World P} (h : Quiet a b) (k : Quiet b c) : Quiet a c :=
  ⟨k.accepted.trans h.accepted,List.Subset.trans h.rows k.rows⟩

section Worlds
variable {w w' : World P} {hashes : List String} {batch : List CommitmentRow} {m : SignedConstraints}

theorem Apart.once (h : Apart w) : Once w := by
  intro row _ i j m m' hi hj first second
  have differ {i j : Nat} {m m' : SignedConstraints} (less : i < j) (hi : w.accepted[i]? = some m)
      (hj : w.accepted[j]? = some m') (first : constraintOf row ∈ m.message.constraints) :
      constraintOf row ∉ m'.message.constraints := by
    obtain ⟨inside,rfl⟩ := List.getElem?_eq_some_iff.mp hi
    obtain ⟨inside',rfl⟩ := List.getElem?_eq_some_iff.mp hj
    exact List.pairwise_iff_getElem.mp h i j inside inside' less _ first
  rcases Nat.lt_trichotomy i j with less | same | more
  · exact absurd second (differ less hi hj first)
  · exact same
  · exact absurd first (differ more hj hi second)

theorem Covered.quiet (h : Covered hashes w) (quiet : Quiet w w') : Covered hashes w' := by
  intro m hm c hc
  rw [quiet.accepted] at hm
  obtain ⟨row,hr,made,done⟩ := h m hm c hc
  exact ⟨row,quiet.rows hr,made,done⟩

theorem Settled.covered (h : Settled w) (hashes : List String) : Covered hashes w := by
  intro m hm c hc
  obtain ⟨row,hr,made,done⟩ := h m hm c hc
  exact ⟨row,hr,made,done.imp_right nofun⟩

theorem Waiting.quiet (h : Waiting batch w) (quiet : Quiet w w') : Waiting batch w' :=
  fun row hr => ⟨quiet.rows (h row hr).1,(h row hr).2⟩

end Worlds

section Stored
variable {w₀ : World P} {s : State (requests P) (World P) Job Outcome}

end Stored

/-- A message that is posted has no constraint that was taken before. -/
def Fresh (e : Event (requests P) (World P)) : Prop :=
  ∀ m, e.op.query = .postConstraints m → ∀ m' ∈ e.pre.accepted, ∀ c ∈ m'.message.constraints,
    c ∉ m.message.constraints

section Tick
variable {α : Type} {tr : Trace P} {w : World P} {t : Nat} {slot : UInt64} {m : SignedConstraints}
  {batch : List CommitmentRow}

end Tick

section Run
variable {j : Job} {q : Query P} {w w' : World P}

end Run

section Cases

variable (alone honest marking : Bool)

/-- The first part of a tick: it has read the row and is about to post. -/
def reading (i : Nat) : List (Nat × Choice) :=
  [(i, .done),(i, .done),(i, .delegations (polled offer)),(i, .commitments [servedRow])]

/-- A tick whose mark fails. -/
def unmarked : Scene Job Choice where
  job := .processPendingConstraints
  time := 62000
  choices := [(.done, 62000),(.done, 62000),(.delegations (polled offer), 62000),(.commitments [servedRow], 62000),
    (.posted (.ok ⟨200, some []⟩) true, 62000),(.failed ⟨.begun, "connection closed"⟩, 62000)] ++ idleSlots 62000

end Cases

end PreconfGateway.Properties.SingleDelivery
