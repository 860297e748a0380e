import PreconfGateway.Api.GasPrice
import PreconfGateway.Interleaving.Clocked
import PreconfGateway.Services.ValidatorStatusCache

/-! Where the statuses, duties and prices come from that the clients return: each was in a reply
that is on record, and a status that was kept in the cache is not much older than it may get. -/
namespace PreconfGateway.Api.Nodes
open Encoding Types Interleaving Services

section Supply
variable {T α : Type} (J : Beacon.JsonLibrary) (read : Json → Option T) (finish : T → Result α)

/-- At this time one of the endpoints has replied with a record that gives this result. -/
def Supplied (bases : List String) (endpoint : String) (n : Peers) (t : Nat) (a : α) : Prop :=
  ∃ page ∈ n.pages, page.time = t ∧ (∃ base ∈ bases, page.url = Beacon.joinUrl base endpoint) ∧
    ∃ record, Beacon.receive J read page.url page.reply = .ok record ∧ finish record = .ok a

end Supply

def endpoints (config : Beacon.BeaconApiConfig) : List String := config.primaryEndpoint :: config.fallbackEndpoints

/-- An endpoint has said this of the validator at this time. -/
def Reported (J : Beacon.JsonLibrary) (config : Beacon.BeaconApiConfig) (n : Peers) (pubkey : BlsPublicKey)
    (info : Beacon.ValidatorInfo) (t : Nat) : Prop :=
  Supplied J Beacon.ValidatorResponse.ofJson (fun response => Beacon.parseValidatorInfo response.data) (endpoints config)
    (Beacon.statusEndpoint pubkey) n t info

/-- An endpoint has named this as the duty of the slot at this time. -/
def Assigned (J : Beacon.JsonLibrary) (config : Beacon.BeaconApiConfig) (n : Peers) (slot : UInt64)
    (duty : Beacon.ValidatorDuty) (t : Nat) : Prop :=
  Supplied J Beacon.ProposerDutiesResponse.ofJson (fun duties => Beacon.findDuty slot duties.data) (endpoints config)
    (Beacon.proposerEndpoint (BeaconTiming.slotToEpoch slot)) n t (some duty)

/-- The execution node has answered this call with this response at this time. -/
def Answered (J : Reth.JsonLibrary) (payload : Json) (n : Peers) (t : Nat) (response : Json) : Prop :=
  ∃ reply ∈ n.rpcReplies, reply.time = t ∧ reply.payload = payload ∧ Reth.outcome J reply.reply = some (.ok response)

/-- The execution node has quoted this gas price at this time. -/
def Quoted (J : Reth.JsonLibrary) (U : Reth.U256Library) (n : Peers) (price t : Nat) : Prop :=
  ∃ response, Answered J (Reth.rpcPayload "eth_gasPrice" 1) n t response ∧ Reth.gasPriceOf U response = .ok price

/-- Replies stay on record. -/
structure Peers.Evolves (a b : Peers) : Prop where
  pages : a.pages <+: b.pages
  rpcReplies : a.rpcReplies <+: b.rpcReplies

theorem Peers.Evolves.refl (n : Peers) : n.Evolves n := ⟨List.prefix_refl _,List.prefix_refl _⟩

theorem Peers.Evolves.trans {a b c : Peers} (h : a.Evolves b) (k : b.Evolves c) : a.Evolves c :=
  ⟨h.pages.trans k.pages,h.rpcReplies.trans k.rpcReplies⟩

/-- Nothing on record has arrived after this time. -/
structure Peers.Past (n : Peers) (t : Nat) : Prop where
  pages : ∀ page ∈ n.pages, page.time ≤ t
  rpcReplies : ∀ reply ∈ n.rpcReplies, reply.time ≤ t

theorem Peers.Past.later {n : Peers} {t u : Nat} (h : n.Past t) (later : t ≤ u) : n.Past u where
  pages page listed := Nat.le_trans (h.pages page listed) later
  rpcReplies reply listed := Nat.le_trans (h.rpcReplies reply listed) later

section Later
variable {T α : Type} {J : Beacon.JsonLibrary} {config : Beacon.BeaconApiConfig} {a b : Peers} {t : Nat}

theorem Supplied.later {read : Json → Option T} {finish : T → Result α} {bases : List String} {endpoint : String} {x : α}
    (h : Supplied J read finish bases endpoint a t x) (later : a.Evolves b) : Supplied J read finish bases endpoint b t x := by
  obtain ⟨page,listed,rest⟩ := h
  exact ⟨page,later.pages.subset listed,rest⟩

theorem Quoted.later {J : Reth.JsonLibrary} {U : Reth.U256Library} {price : Nat} (h : Quoted J U a price t)
    (later : a.Evolves b) : Quoted J U b price t := by
  obtain ⟨response,⟨reply,listed,rest⟩,price⟩ := h
  exact ⟨response,⟨reply,later.rpcReplies.subset listed,rest⟩,price⟩

end Later

variable {limits : Limits} {n n' : Peers} {t : Nat}

/-- All a request can do, and what is answered to it. -/
inductive Serves (limits : Limits) (t : Nat) (n : Peers) : (request : Request) → request.Reply → Peers → Prop
  | page (url : String) (reply : Result Beacon.HttpResponse) :
      Serves limits t n (.get url) reply { n with pages := n.pages ++ [⟨t, url, reply⟩] }
  | replied (payload : Json) (reply : Except String HttpResponse) :
      Serves limits t n (.rpc (.post payload)) reply { n with rpcReplies := n.rpcReplies ++ [⟨t, payload, reply⟩] }
  | slept (ms : Nat) : Serves limits t n (.rpc (.sleep ms)) () n
  | now (time : UInt64) : Serves limits t n .now time n
  | found (pubkey : BlsPublicKey) : Serves limits t n (.cached pubkey) (n.lookup limits.timeToLive pubkey t) n
  | kept (pubkey : BlsPublicKey) (info : Beacon.ValidatorInfo) :
      Serves limits t n (.cache pubkey info) ()
        { n with statuses := Function.update n.statuses pubkey (some ⟨info, t⟩) }

theorem Serves.of_answers {request : Request} {r : request.Reply}
    (h : (machine limits).Answers t n request r n') : Serves limits t n request r n' := by
  obtain ⟨c,h⟩ := h
  change respond limits t n request c = some (r, n') at h
  cases request with
  | get url =>
    cases c <;> cases h
    exact .page url _
  | rpc request =>
    cases request with
    | post payload =>
      cases c <;> cases h
      exact .replied payload _
    | sleep ms =>
      cases c <;> cases h
      exact .slept ms
  | now =>
    cases c <;> try cases h
    obtain ⟨_,he⟩ := Option.ite_none_right_eq_some.mp h
    cases he
    exact .now _
  | cached pubkey =>
    cases c <;> cases h
    exact .found pubkey
  | cache pubkey info =>
    cases c <;> cases h
    exact .kept pubkey info

theorem Serves.evolves {request : Request} {r : request.Reply} (h : Serves limits t n request r n') : n.Evolves n' := by
  cases h with
  | page => exact ⟨List.prefix_append _ _,List.prefix_refl _⟩
  | replied => exact ⟨List.prefix_refl _,List.prefix_append _ _⟩
  | slept | now | found => exact .refl _
  | kept => exact ⟨List.prefix_refl _,List.prefix_refl _⟩

theorem Serves.past {request : Request} {r : request.Reply} (h : Serves limits t n request r n') (past : n.Past t) :
    n'.Past t := by
  cases h with
  | page url reply =>
    refine ⟨fun page listed => ?_,past.rpcReplies⟩
    rcases List.mem_append.mp listed with listed | listed
    · exact past.pages page listed
    · rw [List.mem_singleton.mp listed]
  | replied payload reply =>
    refine ⟨past.pages,fun reply listed => ?_⟩
    rcases List.mem_append.mp listed with listed | listed
    · exact past.rpcReplies reply listed
    · rw [List.mem_singleton.mp listed]
  | slept | now | found => exact past
  | kept => exact ⟨past.pages,past.rpcReplies⟩

theorem Serves.found_inv {pubkey : BlsPublicKey} {r : Option Beacon.ValidatorInfo}
    (h : Serves limits t n (.cached pubkey) r n') : r = n.lookup limits.timeToLive pubkey t ∧ n' = n := by
  cases h
  exact ⟨rfl,rfl⟩

theorem lookup_some {pubkey : BlsPublicKey} {timeToLive : Nat} {info : Beacon.ValidatorInfo}
    (h : n.lookup timeToLive pubkey t = some info) :
    ∃ entry, n.statuses pubkey = some entry ∧ entry.info = info ∧ t < entry.inserted + timeToLive := by
  unfold Peers.lookup at h
  split at h
  · rename_i entry found
    obtain ⟨live,he⟩ := Option.ite_none_right_eq_some.mp h
    cases he
    exact ⟨entry,found,rfl,live⟩
  · cases h

/-- What is kept was reported shortly before it was put there. -/
def Vouched (J : Beacon.JsonLibrary) (config : Beacon.BeaconApiConfig) (limits : Limits) (n : Peers) : Prop :=
  ∀ pubkey entry, n.statuses pubkey = some entry →
    ∃ t, Reported J config n pubkey entry.info t ∧ t ≤ entry.inserted ∧ entry.inserted ≤ t + limits.memory

/-- Whoever puts a status in the cache has just had it from an endpoint. -/
def reporting (J : Beacon.JsonLibrary) (config : Beacon.BeaconApiConfig) (limits : Limits) : Contract requests Peers where
  inv := Vouched J config limits
  rely := Peers.Evolves
  permits _ e := e.pre.Past e.stop
  starts _ _ _ _ := True
  guarantee _ e := ∀ pubkey info, e.op = .cache pubkey info →
    ∃ t, Reported J config e.pre pubkey info t ∧ t ≤ e.stop ∧ e.stop ≤ t + limits.memory
  rely_refl := Peers.Evolves.refl
  rely_trans := Peers.Evolves.trans
  starts_rely h _ := h

variable {J : Beacon.JsonLibrary} {config : Beacon.BeaconApiConfig}

theorem reporting_step (tr : List (Event requests Peers)) (e : Event requests Peers) (inv : Vouched J config limits e.pre)
    (answers : (machine limits).Answers e.stop e.pre e.op e.reply e.post)
    (guarantee : (reporting J config limits).guarantee tr e) : Vouched J config limits e.post ∧ e.pre.Evolves e.post := by
  obtain ⟨op,r,start,stop,pre,post⟩ := e
  have served := Serves.of_answers answers
  dsimp only at inv served ⊢
  refine ⟨?_,served.evolves⟩
  have same (statuses : post.statuses = pre.statuses) : Vouched J config limits post := by
    intro pubkey entry found
    rw [statuses] at found
    obtain ⟨t,reported,bounds⟩ := inv pubkey entry found
    exact ⟨t,reported.later served.evolves,bounds⟩
  cases served with
  | page | replied | slept | now | found => exact same rfl
  | kept pubkey info =>
    intro other entry found
    dsimp only at found
    by_cases mine : other = pubkey
    · subst mine
      rw [Function.update_self] at found
      cases found
      exact guarantee _ _ rfl
    · rw [Function.update_of_ne mine] at found
      exact inv other entry found

section Clients
variable {T α : Type} {read : Json → Option T} {finish : T → Result α} {tr : List (Event requests Peers)}

theorem ask_safe {β : Type} {Q : List (Event requests Peers) → β → Peers → Nat → Prop} {request : Request}
    {f : request.Reply → Client β} (harmless : ∀ pubkey info, request ≠ .cache pubkey info)
    (h : ∀ n₁ u r n₂, Vouched J config limits n₁ ∧ n₁.Past u → n.Evolves n₁ → t ≤ u → Serves limits u n₁ request r n₂ →
      (reporting J config limits).Safe (machine limits) Q (f r) (⟨request, r, t, u, n₁, n₂⟩ :: tr) n₂ u) :
    (reporting J config limits).Safe (machine limits) Q (ask request >>= f) tr n t := by
  refine Contract.Safe.call trivial ?_
  intro n₁ u r n₂ inv rely later _ answers past
  refine ⟨fun pubkey info same => absurd same (harmless pubkey info),?_⟩
  exact h n₁ u r n₂ ⟨inv,past⟩ rely later (.of_answers answers)

/-- A record that is received is on record. -/
theorem makeRequest_safe {β : Type} {Q : List (Event requests Peers) → β → Peers → Nat → Prop} {base endpoint : String}
    {f : Result T → Beacon.Client β}
    (failed : ∀ e tr n t, (reporting J config limits).Safe (machine limits) Q (ofBeacon (f (.error e))) tr n t)
    (received : ∀ record tr n t, (∀ a, finish record = .ok a → Supplied J read finish [base] endpoint n t a) →
      (reporting J config limits).Safe (machine limits) Q (ofBeacon (f (.ok record))) tr n t) :
    (reporting J config limits).Safe (machine limits) Q (ofBeacon (Beacon.makeRequest J read base endpoint >>= f)) tr n t := by
  rw [makeRequest_bind]
  refine ask_safe nofun fun n₁ u r n₂ _ _ _ serves => ?_
  cases serves
  cases reply : Beacon.receive J read (Beacon.joinUrl base endpoint) r with
  | error e => exact failed e _ _ _
  | ok record =>
    refine received record _ _ _ fun a ha => ?_
    exact ⟨_,List.mem_append_right _ List.mem_cons_self,rfl,⟨base,List.mem_cons_self,rfl⟩,record,reply,ha⟩

theorem Supplied.among {bases bases' : List String} {endpoint : String} {a : α}
    (h : Supplied J read finish bases endpoint n t a) (among : bases ⊆ bases') :
    Supplied J read finish bases' endpoint n t a := by
  obtain ⟨page,listed,time,⟨base,hb,url⟩,rest⟩ := h
  exact ⟨page,listed,time,⟨base,among hb,url⟩,rest⟩

theorem tryFallbacks_safe {endpoint : String} {bases : List String} {last : Option Chain} :
    (reporting J config limits).Safe (machine limits)
      (fun _ r n t => ∀ a, r = .ok a → Supplied J read finish bases endpoint n t a)
      (ofBeacon (Beacon.tryFallbacks J read finish endpoint bases last)) tr n t := by
  induction bases generalizing last tr n t with
  | nil => exact fun a ha => nomatch ha
  | cons base bases ih =>
    refine @makeRequest_safe limits _ _ J config T α read finish _ _ _ _ _ _ ?_ ?_
    · intro e tr n t
      exact ih.mono fun _ r _ _ h a ha => (h a ha).among (List.subset_cons_self _ _)
    · intro record tr n t supplied a ha
      exact (supplied a ha).among (List.cons_subset_cons _ (List.nil_subset _))

/-- Whatever the client returns is what one of the endpoints has just replied. -/
theorem tryEndpoints_safe {endpoint : String} (config' : Beacon.BeaconApiConfig) :
    (reporting J config limits).Safe (machine limits)
      (fun _ r n t => ∀ a, r = .ok a → Supplied J read finish (endpoints config') endpoint n t a)
      (ofBeacon (Beacon.tryEndpoints J read finish config' endpoint)) tr n t := by
  refine @makeRequest_safe limits _ _ J config T α read finish _ _ _ _ _ _ ?_ ?_
  · intro e tr n t
    exact tryFallbacks_safe.mono fun _ r _ _ h a ha => (h a ha).among (List.subset_cons_self _ _)
  · intro record tr n t supplied a ha
    exact (supplied a ha).among (List.cons_subset_cons _ (List.nil_subset _))

end Clients

section Results
variable {tr : List (Event requests Peers)}

theorem getProposerForSlot_safe {slot : UInt64} :
    (reporting J config limits).Safe (machine limits)
      (fun _ r n t => ∀ duty, r = .ok (some duty) → Assigned J config n slot duty t)
      (ofBeacon (Beacon.getProposerForSlot J config slot)) tr n t := by
  have duties := @tryEndpoints_safe limits n t J config Beacon.ProposerDutiesResponse _
    Beacon.ProposerDutiesResponse.ofJson .ok tr (Beacon.proposerEndpoint (BeaconTiming.slotToEpoch slot)) config
  unfold Beacon.getProposerForSlot
  unfold ofBeacon
  rw [Program.expand_bind]
  refine duties.bind fun tr r n t supplied => ?_
  rcases r with e | duties
  · exact Contract.Safe.ret nofun
  · refine Contract.Safe.ret fun duty found => ?_
    obtain ⟨page,listed,time,url,_,received,he⟩ := supplied duties rfl
    cases he
    exact ⟨page,listed,time,url,duties,received,found⟩

/-- The status was reported, and no longer ago than an entry may live and the cache may take. -/
def Fresh (J : Beacon.JsonLibrary) (config : Beacon.BeaconApiConfig) (limits : Limits) (n : Peers) (pubkey : BlsPublicKey)
    (info : Beacon.ValidatorInfo) (t : Nat) : Prop :=
  ∃ u ≤ t, Reported J config n pubkey info u ∧ t ≤ u + limits.memory + limits.timeToLive

theorem getStatus_safe {pubkey : BlsPublicKey} :
    (reporting J config limits).Safe (machine limits)
      (fun _ r n t => ∀ info, r = .ok info → Fresh J config limits n pubkey info t)
      (ValidatorStatusCache.getStatus J config pubkey) tr n t := by
  refine ask_safe nofun fun n₁ u r n₂ vouched _ _ serves => ?_
  obtain ⟨rfl,rfl⟩ := serves.found_inv
  cases found : n₂.lookup limits.timeToLive pubkey u with
  | some info =>
    refine Contract.Safe.ret fun info' he => ?_
    cases he
    obtain ⟨entry,kept,rfl,live⟩ := lookup_some found
    obtain ⟨v,reported,_,soon⟩ := vouched.1 pubkey entry kept
    have before : v ≤ u := by
      obtain ⟨page,listed,rfl,_⟩ := reported
      exact vouched.2.pages page listed
    exact ⟨v,before,reported,by omega⟩
  | none =>
    refine (tryEndpoints_safe config).bind fun tr r n₃ v reported => ?_
    rcases r with e | info
    · exact Contract.Safe.ret nofun
    · have here := reported info rfl
      refine Contract.Safe.call trivial ?_
      intro n₄ x _ n₅ _ rely later inTime answers _
      have soon : x ≤ v + limits.memory := inTime _ rfl
      refine ⟨?_,?_⟩
      · rintro _ _ ⟨⟩
        exact ⟨v,here.later rely,later,soon⟩
      · refine Contract.Safe.ret fun info' he => ?_
        cases he
        exact ⟨v,later,(here.later rely).later (Serves.of_answers answers).evolves,by omega⟩

section Price
variable {J' : Reth.JsonLibrary} {U : Reth.U256Library} {maxRetries : UInt32}

theorem retryLoop_safe {payload : Json} {left attempts : Nat} :
    (reporting J config limits).Safe (machine limits)
      (fun _ r n t => ∀ v, r = .ok v → Answered J' payload n t v)
      (ofReth (Reth.retryLoop J' payload maxRetries left attempts)) tr n t := by
  induction left generalizing attempts tr n t with
  | zero => exact Contract.Safe.ret nofun
  | succ left ih =>
    rw [retryLoop_bind]
    refine ask_safe nofun fun n₁ u r n₂ _ _ _ serves => ?_
    cases serves
    cases decided : Reth.outcome J' r with
    | some result =>
      refine Contract.Safe.ret fun v he => ?_
      exact ⟨_,List.mem_append_right _ List.mem_cons_self,rfl,rfl,decided.trans (congrArg some he)⟩
    | none =>
      dsimp only
      split
      · exact ask_safe nofun fun _ _ _ _ _ _ _ _ => ih
      · exact ih

/-- Calls to the execution node only add to what is on record. -/
theorem ofReth_safe {α : Type} {p : Reth.Client α} :
    (reporting J config limits).Safe (machine limits) (fun _ _ n' t' => n.Evolves n' ∧ t ≤ t') (ofReth p) tr n t := by
  induction p generalizing tr n t with
  | ret a => exact ⟨.refl n,Nat.le_refl t⟩
  | call request k ih =>
    refine ask_safe nofun fun n₁ u r n₂ _ before later serves => ?_
    apply (ih r).mono
    rintro _ _ n' t' ⟨evolves,later'⟩
    exact ⟨(before.trans serves.evolves).trans evolves,Nat.le_trans later later'⟩

theorem getGasPrice_safe :
    (reporting J config limits).Safe (machine limits)
      (fun _ r n' t' => ∀ info, r = .ok info → ∃ u, t ≤ u ∧ u ≤ t' ∧ Quoted J' U n' info.gasPrice u)
      (Reth.getGasPrice J' U maxRetries) tr n t := by
  refine (@retryLoop_safe limits n t J config tr J' maxRetries _ _ _).later.bind fun tr r n t₁ answered => ?_
  obtain ⟨answered,started⟩ := answered
  rcases r with e | response
  · exact Contract.Safe.ret nofun
  dsimp only
  cases price : Reth.gasPriceOf U response with
  | error e => exact Contract.Safe.ret nofun
  | ok gasPrice =>
    have quoted : Quoted J' U n gasPrice t₁ := ⟨response,answered response rfl,price⟩
    refine ofReth_safe.bind fun tr number n' t' moved => ?_
    refine ask_safe nofun fun n₁ u timestamp n₂ _ before later serves => ?_
    refine Contract.Safe.ret fun info he => ?_
    cases he
    exact ⟨t₁,started,Nat.le_trans moved.2 later,quoted.later ((moved.1.trans before).trans serves.evolves)⟩

end Price
end Results
end PreconfGateway.Api.Nodes
