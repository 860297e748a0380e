import PreconfGateway.FixtureClients
import PreconfGateway.Reports

/-! A batch of statuses, whose lookups run side by side among everything else that uses the cache. -/
namespace PreconfGateway.Properties.BatchStatus
open Encoding Types Interleaving Api Api.Nodes Services Services.ValidatorStatusCache

abbrev Looked := BlsPublicKey × Result Beacon.ValidatorInfo

section Collect
variable {results : List Looked} {statusMap final : StatusMap}

/-- Without an error every result is in the map, and what is in the map is a result or was there before. -/
theorem collect_ok (h : collectStatuses results statusMap = .ok final) :
    (∀ r ∈ results, ∃ info, r.2 = .ok info) ∧ ∀ pubkey info, final pubkey = some info →
      (pubkey, .ok info) ∈ results ∨ statusMap pubkey = some info ∧ pubkey ∉ results.map Prod.fst := by
  induction results generalizing statusMap with
  | nil =>
    cases h
    exact ⟨nofun,fun pubkey info found => .inr ⟨found,List.not_mem_nil⟩⟩
  | cons r results ih =>
    obtain ⟨key,result⟩ := r
    cases result with
    | error e => cases h
    | ok status =>
      obtain ⟨all,only⟩ := ih h
      refine ⟨List.forall_mem_cons.mpr ⟨⟨status,rfl⟩,all⟩,fun pubkey info found => ?_⟩
      rcases only pubkey info found with listed | ⟨before,absent⟩
      · exact .inl (List.mem_cons_of_mem _ listed)
      · by_cases mine : pubkey = key
        · subst mine
          rw [Function.update_self] at before
          cases before
          exact .inl List.mem_cons_self
        · rw [Function.update_of_ne mine] at before
          exact .inr ⟨before,fun listed => (List.mem_cons.mp listed).elim mine absent⟩

/-- A key that was looked up is in the map. -/
theorem collect_mem (h : collectStatuses results statusMap = .ok final) {pubkey : BlsPublicKey}
    (asked : pubkey ∈ results.map Prod.fst ∨ (statusMap pubkey).isSome) : (final pubkey).isSome := by
  induction results generalizing statusMap with
  | nil =>
    cases h
    exact asked.resolve_left List.not_mem_nil
  | cons r results ih =>
    obtain ⟨key,result⟩ := r
    cases result with
    | error e => cases h
    | ok status =>
      apply ih h
      by_cases mine : pubkey = key
      · subst mine
        rw [Function.update_self]
        exact .inr rfl
      · rw [Function.update_of_ne mine]
        exact asked.imp_left fun listed => (List.mem_cons.mp listed).resolve_left mine

/-- The error is the first of the results that are errors. -/
theorem collect_error {e : Chain} (h : collectStatuses results statusMap = .error e) :
    ∃ before pubkey after, results = before ++ (pubkey, .error e) :: after ∧ ∀ r ∈ before, ∃ info, r.2 = .ok info := by
  induction results generalizing statusMap with
  | nil => cases h
  | cons r results ih =>
    obtain ⟨key,result⟩ := r
    cases result with
    | error e' =>
      cases h
      exact ⟨[],key,results,rfl,nofun⟩
    | ok status =>
      obtain ⟨before,pubkey,after,rfl,fine⟩ := ih h
      exact ⟨(key, .ok status) :: before,pubkey,after,rfl,List.forall_mem_cons.mpr ⟨⟨status,rfl⟩,fine⟩⟩

end Collect

/-- What others do to the nodes' part of the world before a time. -/
structure Meanwhile (J : Beacon.JsonLibrary) (config : Beacon.BeaconApiConfig) (limits : Nodes.Limits) (t : Nat)
    (a b : Peers) : Prop where
  evolves : a.Evolves b
  vouched : Vouched J config limits a → Vouched J config limits b
  past : b.Past t

variable {J : Beacon.JsonLibrary} {config : Beacon.BeaconApiConfig} {limits : Nodes.Limits} {n n' : Peers} {t t' : Nat}

/-- Each lookup of the batch by itself. -/
theorem lookup_going {pubkeys : List BlsPublicKey} {i : Nat} {thread : Thread Nodes.requests Looked}
    (ht : ((getBatchStatus J config pubkeys).threads t)[i]? = some thread) :
    Contract.Going (reporting J config limits) (machine limits) (fun _ r n u => ∀ pubkey, pubkeys[i]? = some pubkey →
      r.1 = pubkey ∧ t ≤ u ∧ ∀ info, r.2 = .ok info → Fresh J config limits n pubkey info u) n t thread := by
  simp only [Fork.threads,getBatchStatus,List.getElem?_map,Option.map_map,Option.map_eq_some_iff] at ht
  obtain ⟨pubkey,asked,rfl⟩ := ht
  refine Contract.Safe.going ((getStatus_safe.later : Contract.Safe _ _ _ _ [] n t).bind fun tr r n u fresh => ?_)
  refine Contract.Safe.ret fun other same => ?_
  cases asked.symm.trans same
  exact ⟨rfl,fresh.2,fresh.1⟩

/-- The results stand in the order of the keys, and each status is fresh. -/
theorem joined_results {pubkeys : List BlsPublicKey} {results : List Looked}
    (h : Joined (machine limits) (Meanwhile J config limits) ((getBatchStatus J config pubkeys).threads t) n t results n' t')
    (vouched : Vouched J config limits n) : results.map Prod.fst = pubkeys ∧
      ∀ pubkey info, (pubkey, .ok info) ∈ results → ∃ u, t ≤ u ∧ u ≤ t' ∧ Fresh J config limits n' pubkey info u := by
  have other (u : Nat) (a b : Peers) (inv : Vouched J config limits a) (between : Meanwhile J config limits u a b) :
      Vouched J config limits b ∧ a.Evolves b ∧ ∀ tr op r start c, (reporting J config limits).permits tr
        ⟨op, r, start, u, b, c⟩ := ⟨between.vouched inv,between.evolves,fun _ _ _ _ _ => between.past⟩
  obtain ⟨_,_,_,length,good⟩ := Contract.joined other reporting_step h vouched (fun i thread => lookup_going)
  have long : results.length = pubkeys.length := by
    rw [length]
    simp [Fork.threads,getBatchStatus]
  have each {i : Nat} {r : Looked} (hr : results[i]? = some r) : pubkeys[i]? = some r.1 ∧
      ∀ info, r.2 = .ok info → ∃ u, t ≤ u ∧ u ≤ t' ∧ Fresh J config limits n' r.1 info u := by
    have bound : i < pubkeys.length := by
      rw [← long]
      exact (List.getElem?_eq_some_iff.mp hr).1
    have asked : pubkeys[i]? = some pubkeys[i] := List.getElem?_eq_getElem bound
    obtain ⟨tr,v,u,found,rely,ended⟩ := good i r hr
    obtain ⟨same,begun,fresh⟩ := found _ asked
    rw [same]
    refine ⟨asked,fun info he => ?_⟩
    obtain ⟨x,before,reported,soon⟩ := fresh info he
    exact ⟨u,begun,ended,x,before,reported.later rely,soon⟩
  constructor
  · apply List.ext_getElem?
    intro i
    rw [List.getElem?_map]
    cases hr : results[i]? with
    | some r => exact (each hr).1.symm
    | none =>
      have past := List.getElem?_eq_none_iff.mp hr
      exact (List.getElem?_eq_none_iff.mpr (by omega)).symm
  · intro pubkey info listed
    obtain ⟨i,hr⟩ := List.getElem?_of_mem listed
    exact (each hr).2 info rfl

/-- Whatever the order of the answers, and whatever others do in between: a batch that returns a map has in it
the keys it was asked for and no others, each with a status that was reported and recent when it was taken, and
a batch that fails has the error of the first key that has one. -/
theorem batch_status {pubkeys : List BlsPublicKey} {results : List Looked}
    (h : Joined (machine limits) (Meanwhile J config limits) ((getBatchStatus J config pubkeys).threads t) n t results n' t')
    (vouched : Vouched J config limits n) : results.map Prod.fst = pubkeys ∧
      (∀ statusMap, (getBatchStatus J config pubkeys).collect results = .ok statusMap →
        (∀ pubkey, (statusMap pubkey).isSome ↔ pubkey ∈ pubkeys) ∧
          ∀ pubkey info, statusMap pubkey = some info → ∃ u, t ≤ u ∧ u ≤ t' ∧ Fresh J config limits n' pubkey info u) ∧
      ∀ e, (getBatchStatus J config pubkeys).collect results = .error e → ∃ before pubkey after,
        results = before ++ (pubkey, .error e) :: after ∧ ∀ r ∈ before, ∃ info, r.2 = .ok info := by
  obtain ⟨keys,fresh⟩ := joined_results h vouched
  refine ⟨keys,fun statusMap ok => ?_,fun e failed => collect_error failed⟩
  obtain ⟨_,only⟩ := collect_ok ok
  have listed (pubkey : BlsPublicKey) (info : Beacon.ValidatorInfo) (found : statusMap pubkey = some info) :
      (pubkey, .ok info) ∈ results := (only pubkey info found).resolve_right fun h => nomatch h.1
  refine ⟨fun pubkey => ⟨fun known => ?_,fun asked => ?_⟩,fun pubkey info found => fresh pubkey info (listed pubkey info found)⟩
  · obtain ⟨info,found⟩ := Option.isSome_iff_exists.mp known
    rw [← keys]
    exact List.mem_map_of_mem (listed pubkey info found)
  · rw [← keys] at asked
    exact collect_mem ok (.inl asked)

/-- The small gateway's lookups of these keys, with nobody else around. -/
def batch (pubkeys : List BlsPublicKey) (turns : List (Nat × Nodes.Choice × Nat)) : Option (List Looked × Peers × Nat) :=
  (machine Fixture.clients.limits).interleave turns
    ((getBatchStatus Fixture.clients.beaconJson Fixture.clients.beaconApi pubkeys).threads 0) .empty 0

theorem batch_joined {pubkeys : List BlsPublicKey} {turns : List (Nat × Nodes.Choice × Nat)} {results : List Looked}
    (h : batch pubkeys turns = some (results, n, t)) : Joined (machine Fixture.clients.limits)
      (Meanwhile Fixture.clients.beaconJson Fixture.clients.beaconApi Fixture.clients.limits)
      ((getBatchStatus Fixture.clients.beaconJson Fixture.clients.beaconApi pubkeys).threads 0) .empty 0 results n t := by
  have begun : Peers.empty.Past 0 := ⟨fun _ listed => (by cases listed),fun _ listed => (by cases listed)⟩
  refine Machine.interleave_joined _ ?_ ?_ h begun
  · intro n t u past later
    exact ⟨.refl n,id,past.later later⟩
  · intro n t u op r n' past later answers
    exact (Serves.of_answers answers).past (past.later later)

/-- An endpoint's page on a healthy validator. -/
def healthy : Nodes.Choice := .page (.ok ⟨200, Json.printed (Fixture.statusPage false)⟩)

/-- The third lookup finds what the first has put in the cache. -/
def shared : List (Nat × Nodes.Choice × Nat) :=
  [(0, .done, 1),(1, .done, 1),(1, healthy, 3),(0, healthy, 4),(0, .done, 5),(2, .done, 6),(1, .done, 8)]

/-- The endpoint does not answer the second lookup. -/
def silent : List (Nat × Nodes.Choice × Nat) :=
  [(0, .done, 1),(1, .done, 1),(0, healthy, 4),(0, .done, 5),(1, .page (.error ["timeout"]), 90)]

/-- A batch with a repeated key that returns a map, and one with the error of its second key. -/
theorem batch_status_repeating :
    (∃ results n t statusMap, batch [Fixture.key 2, Fixture.key 3, Fixture.key 2] shared = some (results, n, t) ∧
      collectStatuses results (fun _ => none) = .ok statusMap ∧
      (∀ pubkey, (statusMap pubkey).isSome ↔ pubkey ∈ [Fixture.key 2, Fixture.key 3, Fixture.key 2]) ∧
      ∀ pubkey info, statusMap pubkey = some info → ∃ u, 0 ≤ u ∧ u ≤ t ∧
        Fresh Fixture.clients.beaconJson Fixture.clients.beaconApi Fixture.clients.limits n pubkey info u) ∧
    ∃ results n t e, batch [Fixture.key 2, Fixture.key 3] silent = some (results, n, t) ∧
      collectStatuses results (fun _ => none) = .error e ∧ ∃ before pubkey after,
        results = before ++ (pubkey, .error e) :: after ∧ ∀ r ∈ before, ∃ info, r.2 = .ok info := by
  have nothing : Vouched Fixture.clients.beaconJson Fixture.clients.beaconApi Fixture.clients.limits .empty :=
    fun _ _ found => (by cases found)
  constructor
  · have played : (batch [Fixture.key 2, Fixture.key 3, Fixture.key 2] shared).any
        (fun out => (collectStatuses out.1 (fun _ => none)).isOk) = true := by decide +kernel
    obtain ⟨⟨results,n,t⟩,he,ok⟩ := (Option.any_eq_true _ _).mp played
    cases collected : collectStatuses results (fun _ => none) with
    | error e =>
      rw [collected] at ok
      cases ok
    | ok statusMap =>
      exact ⟨results,n,t,statusMap,he,collected,(batch_status (batch_joined he) nothing).2.1 statusMap collected⟩
  · have played : (batch [Fixture.key 2, Fixture.key 3] silent).any
        (fun out => !(collectStatuses out.1 (fun _ => none)).isOk) = true := by decide +kernel
    obtain ⟨⟨results,n,t⟩,he,failed⟩ := (Option.any_eq_true _ _).mp played
    cases collected : collectStatuses results (fun _ => none) with
    | error e => exact ⟨results,n,t,e,he,collected,(batch_status (batch_joined he) nothing).2.2 e collected⟩
    | ok statusMap =>
      rw [collected] at failed
      cases failed

end PreconfGateway.Properties.BatchStatus
