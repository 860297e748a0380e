import PreconfGateway.Api.Beacon
import Mathlib.Data.Nat.Find

/-! Failover of the beacon client: which endpoint's reply becomes the result, and which endpoints
are asked, whatever each of them replies. -/
namespace PreconfGateway.Properties.BeaconFailover
open Encoding Interleaving Api.Beacon

abbrev Reply := Result HttpResponse

/-- The requests are answered in order, each as it likes; the state counts them. -/
def network (replies : Nat → Reply) : Handler requests Nat := fun n _ => (replies n, n + 1)

section Failover
variable {J : JsonLibrary} {T α : Type} {read : Json → Option T} {finish : T → Result α} {endpoint : String}
  {bases : List String} {replies : Nat → Reply} {out : List String × Result α × Nat}

/-- The record of a reply: status 200 and well-formed JSON of the expected shape. -/
def record (J : JsonLibrary) (read : Json → Option T) : Reply → Option T
  | .ok response => if response.status = 200 then (fromSlice J read response.body).toOption else none
  | .error _ => none

theorem receive_some {reply : Reply} {t : T} (h : record J read reply = some t) (url : String) :
    receive J read url reply = .ok t := by
  cases reply with
  | error e => cases h
  | ok response =>
    obtain ⟨good,h⟩ := Option.ite_none_right_eq_some.mp h
    rw [receive,if_neg (not_not_intro good)]
    cases parsed : fromSlice J read response.body with
    | error e =>
      rw [parsed] at h
      cases h
    | ok t' =>
      rw [parsed] at h
      cases h
      rfl

theorem receive_none {reply : Reply} (h : record J read reply = none) (url : String) :
    ∃ e, receive J read url reply = .error e := by
  cases reply with
  | error e => exact ⟨_,rfl⟩
  | ok response =>
    unfold record at h
    unfold receive
    dsimp only at h ⊢
    by_cases good : response.status = 200
    · rw [if_pos good] at h
      rw [if_neg (not_not_intro good)]
      cases parsed : fromSlice J read response.body with
      | error e => exact ⟨_,rfl⟩
      | ok t =>
        rw [parsed] at h
        cases h
    · exact ⟨_,if_pos good⟩

/-- What a client does that makes the first record its result: it asks the endpoints up to that one, or all. -/
def Asked (J : JsonLibrary) (read : Json → Option T) (finish : T → Result α) (endpoint : String) (bases : List String)
    (replies : Nat → Reply) (out : List String × Result α × Nat) : Prop :=
  (∃ i t, i < bases.length ∧ record J read (replies i) = some t ∧ (∀ j < i, record J read (replies j) = none) ∧
      out.1 = (bases.take (i + 1)).map (fun base => joinUrl base endpoint) ∧ out.2.1 = finish t) ∨
    ((∀ i < bases.length, record J read (replies i) = none) ∧
      out.1 = bases.map (fun base => joinUrl base endpoint) ∧ ∃ e, out.2.1 = .error e)

theorem fallbacks_handled (bases : List String) (last : Option Chain) (n : Nat) :
    Asked J read finish endpoint bases (fun i => replies (n + i))
      ((tryFallbacks J read finish endpoint bases last).handled (network replies) n) := by
  induction bases generalizing last n with
  | nil => exact .inr ⟨nofun,rfl,_,rfl⟩
  | cons base bases ih =>
    generalize run : (tryFallbacks J read finish endpoint (base :: bases) last).handled (network replies) n = out
    have step := run.symm.trans (Program.handled_request (network replies) n (joinUrl base endpoint) _)
    dsimp only [network] at step
    cases found : record J read (replies n) with
    | some t =>
      rw [receive_some found] at step
      exact .inl ⟨0,t,Nat.succ_pos _,found,nofun,by rw [step]; rfl,by rw [step]; rfl⟩
    | none =>
      obtain ⟨e,failed⟩ := @receive_none J T read _ found (joinUrl base endpoint)
      rw [failed] at step
      have shift (i : Nat) : replies (n + 1 + i) = replies (n + (i + 1)) := congrArg replies (by omega)
      have first {m : Nat} (others : ∀ j < m, record J read (replies (n + 1 + j)) = none) :
          ∀ j < m + 1, record J read (replies (n + j)) = none := by
        intro j hj
        cases j with
        | zero => exact found
        | succ j =>
          rw [← shift]
          exact others j (Nat.lt_of_succ_lt_succ hj)
      rcases ih (some e) (n + 1) with ⟨i,t,hi,received,before,asked,result⟩ | ⟨missing,asked,e',result⟩
      · refine .inl ⟨i + 1,t,Nat.succ_lt_succ hi,(congrArg (record J read) (shift i)).symm.trans received,first before,?_,?_⟩
        · rw [step]
          exact congrArg (joinUrl base endpoint :: ·) asked
        · rw [step]
          exact result
      · refine .inr ⟨first missing,?_,e',?_⟩
        · rw [step]
          exact congrArg (joinUrl base endpoint :: ·) asked
        · rw [step]
          exact result

def endpoints (config : Api.Beacon.BeaconApiConfig) : List String := config.primaryEndpoint :: config.fallbackEndpoints

/-- The primary endpoint is asked as the first of the fallbacks would be. -/
theorem endpoints_handled (config : Api.Beacon.BeaconApiConfig) : Asked J read finish endpoint (endpoints config) replies
    ((tryEndpoints J read finish config endpoint).handled (network replies) 0) := by
  have all := @fallbacks_handled J T α read finish endpoint replies (endpoints config) none 0
  simp only [Nat.zero_add] at all
  exact all

/-- The first usable reply has the result, no endpoint after it is asked, and the call fails exactly
when no reply is usable, after all endpoints were asked. -/
structure Meets (J : JsonLibrary) (read : Json → Option T) (usable : T → α → Prop) (endpoint : String)
    (bases : List String) (replies : Nat → Reply) (out : List String × Result α × Nat) : Prop where
  result : ∀ i < bases.length, ∀ t v, record J read (replies i) = some t → usable t v →
    (∀ j < i, ∀ t', record J read (replies j) = some t' → ¬ ∃ v', usable t' v') →
    out.2.1 = .ok v ∧ out.1 = (bases.take (i + 1)).map (fun base => joinUrl base endpoint)
  fails : (∃ e, out.2.1 = .error e) ↔ ∀ i < bases.length, ∀ t, record J read (replies i) = some t → ¬ ∃ v, usable t v
  all : (∀ i < bases.length, ∀ t, record J read (replies i) = some t → ¬ ∃ v, usable t v) →
    out.1 = bases.map (fun base => joinUrl base endpoint)

/-- Where the first record is, the client stops. -/
theorem Asked.stopped (asked : Asked J read finish endpoint bases replies out) {i : Nat} {t : T} (hi : i < bases.length)
    (received : record J read (replies i) = some t) (before : ∀ j < i, record J read (replies j) = none) :
    out.1 = (bases.take (i + 1)).map (fun base => joinUrl base endpoint) ∧ out.2.1 = finish t := by
  rcases asked with ⟨k,t',_,found,none_,urls,made⟩ | ⟨missing,_⟩
  · have same : k = i := by
      apply Nat.le_antisymm
      · apply Nat.le_of_not_lt
        intro later
        cases (none_ i later).symm.trans received
      · apply Nat.le_of_not_lt
        intro earlier
        cases (before k earlier).symm.trans found
    subst same
    cases found.symm.trans received
    exact ⟨urls,made⟩
  · cases (missing i hi).symm.trans received

theorem take_urls {i k : Nat} (hi : i < bases.length) (hk : k ≤ bases.length)
    (h : (bases.take (i + 1)).map (fun base => joinUrl base endpoint) = (bases.take k).map (fun base => joinUrl base endpoint)) :
    i + 1 = k := by
  have lengths := congrArg List.length h
  simp only [List.length_map,List.length_take] at lengths
  omega

/-- A client that stops at the first record meets this exactly if that record is usable, or there is
no endpoint after it and nothing is made of it. -/
theorem meets_iff {usable : T → α → Prop} (asked : Asked J read finish endpoint bases replies out)
    (agree : ∀ t v, usable t v → finish t = .ok v) :
    Meets J read usable endpoint bases replies out ↔ ∀ i < bases.length, ∀ t, record J read (replies i) = some t →
      (∀ j < i, record J read (replies j) = none) → (∃ v, usable t v) ∨ (i + 1 = bases.length ∧ ∃ e, finish t = .error e) := by
  constructor
  · intro meets i hi t received before
    obtain ⟨urls,made⟩ := asked.stopped hi received before
    by_cases some_ : ∃ k, k < bases.length ∧ ∃ t v, record J read (replies k) = some t ∧ usable t v
    · classical
      -- the first usable reply is the one the client has stopped at
      obtain ⟨hk,t',v,found,use⟩ := Nat.find_spec some_
      obtain ⟨_,asked'⟩ := meets.result (Nat.find some_) hk t' v found use
        (fun j hj t'' there ⟨v',use'⟩ => Nat.find_min some_ hj ⟨Nat.lt_trans hj hk,t'',v',there,use'⟩)
      have same : i + 1 = Nat.find some_ + 1 := take_urls hi hk (urls.symm.trans asked')
      rw [← Nat.succ.inj same] at found
      cases found.symm.trans received
      exact .inl ⟨v,use⟩
    · have unusable : ∀ k < bases.length, ∀ t, record J read (replies k) = some t → ¬ ∃ v, usable t v :=
        fun k hk t there ⟨v,use⟩ => some_ ⟨k,hk,t,v,there,use⟩
      obtain ⟨e,failed⟩ := meets.fails.mpr unusable
      exact .inr ⟨take_urls hi (Nat.le_refl _) (by simpa only [List.take_length] using urls.symm.trans (meets.all unusable)),
        e,made.symm.trans failed⟩
  · intro condition
    rcases asked with ⟨i,t,hi,received,before,urls,made⟩ | ⟨missing,urls,e,failed⟩
    · have earliest {k : Nat} {t' : T} (there : record J read (replies k) = some t') : i ≤ k := by
        apply Nat.le_of_not_lt
        intro earlier
        cases (before k earlier).symm.trans there
      rcases condition i hi t received before with ⟨v,use⟩ | ⟨last,e,failed⟩
      · have good := agree t v use
        refine ⟨?_,?_,fun unusable => absurd ⟨v,use⟩ (unusable i hi t received)⟩
        · intro k hk t' v' found use' first
          have same : k = i := by
            apply Nat.le_antisymm _ (earliest found)
            apply Nat.le_of_not_lt
            intro later
            exact first i later t received ⟨v,use⟩
          subst same
          cases found.symm.trans received
          exact ⟨made.trans (agree _ _ use'),urls⟩
        · constructor
          · rintro ⟨e,failed⟩
            cases (made.trans good).symm.trans failed
          · intro unusable
            exact absurd ⟨v,use⟩ (unusable i hi t received)
      · have none_ : ∀ k < bases.length, ∀ t', record J read (replies k) = some t' → ¬ ∃ v, usable t' v := by
          rintro k hk t' found ⟨v,use⟩
          have same : k = i := by
            have le := earliest found
            omega
          subst same
          cases found.symm.trans received
          cases (agree _ _ use).symm.trans failed
        refine ⟨?_,⟨fun _ => none_,fun _ => ⟨e,made.trans failed⟩⟩,fun _ => ?_⟩
        · intro k hk t' v found use _
          exact absurd ⟨v,use⟩ (none_ k hk t' found)
        · rw [urls,last,List.take_length]
    · have none_ : ∀ k < bases.length, ∀ t, record J read (replies k) = some t → ¬ ∃ v, usable t v := by
        intro k hk t found
        cases (missing k hk).symm.trans found
      refine ⟨?_,⟨fun _ => none_,fun _ => ⟨e,failed⟩⟩,fun _ => urls⟩
      intro k hk t v found
      cases (missing k hk).symm.trans found

end Failover

def Numeric (s : String) : Prop := ∃ n, parseU64 s = .ok n

/-- What a validator's record says. -/
def StatusOf (response : ValidatorResponse) (info : ValidatorInfo) : Prop :=
  parseU64 response.data.index = .ok info.validatorIndex ∧
    (info.isActive ↔ response.data.status ∈ ["active_ongoing", "active_exiting", "active_slashed"]) ∧
    info.isSlashed = response.data.validator.slashed

/-- The duty for the slot among duties whose slots are all numbers. -/
def DutyOf (slot : UInt64) (response : ProposerDutiesResponse) (duty : Option ValidatorDuty) : Prop :=
  (∀ d ∈ response.data, Numeric d.slot) ∧ duty = response.data.find? (fun d => d.parseSlot = .ok slot)

/-- A slot that is not a number stands before any duty for the slot. -/
def Blocked (slot : UInt64) (duties : List ValidatorDuty) : Prop :=
  ∃ before d after, duties = before ++ d :: after ∧ ¬ Numeric d.slot ∧ ∀ b ∈ before, ∃ n, parseU64 b.slot = .ok n ∧ n ≠ slot

theorem parseValidatorInfo_of {response : ValidatorResponse} {info : ValidatorInfo} (h : StatusOf response info) :
    parseValidatorInfo response.data = .ok info := by
  obtain ⟨index,active,slashed⟩ := h
  simp only [List.mem_cons,List.not_mem_nil,or_false] at active
  rw [parseValidatorInfo,index]
  dsimp only
  have shown : decide (response.data.status = "active_ongoing" ∨ response.data.status = "active_exiting" ∨
      response.data.status = "active_slashed") = info.isActive := by
    cases flag : info.isActive with
    | true => exact decide_eq_true (active.mp flag)
    | false => exact decide_eq_false (fun h => Bool.false_ne_true (flag.symm.trans (active.mpr h)))
  rw [← slashed,shown]

theorem statusOf_iff {response : ValidatorResponse} : (∃ info, StatusOf response info) ↔ Numeric response.data.index :=
  ⟨fun ⟨_,h⟩ => ⟨_,h.1⟩,fun ⟨n,h⟩ => ⟨⟨⟨_,_⟩,n⟩,h,decide_eq_true_iff,rfl⟩⟩

theorem parseValidatorInfo_error {data : ValidatorData} (h : ¬ Numeric data.index) : ∃ e, parseValidatorInfo data = .error e := by
  unfold parseValidatorInfo
  cases parsed : parseU64 data.index with
  | error e => exact ⟨_,rfl⟩
  | ok n => exact absurd ⟨n,parsed⟩ h

theorem findDuty_numeric (slot : UInt64) {duties : List ValidatorDuty} (h : ∀ d ∈ duties, Numeric d.slot) :
    findDuty slot duties = .ok (duties.find? (fun d => d.parseSlot = .ok slot)) := by
  induction duties with
  | nil => rfl
  | cons d ds ih =>
    obtain ⟨n,parsed⟩ := h d List.mem_cons_self
    have read : d.parseSlot = .ok n := parsed
    rw [findDuty,read,ih (fun d' hd => h d' (List.mem_cons_of_mem d hd))]
    dsimp only
    by_cases here : n = slot
    · rw [if_pos here,List.find?_cons_of_pos (by rw [read,here]; exact decide_eq_true rfl)]
    · rw [if_neg here,List.find?_cons_of_neg (by rw [read]; simpa using here)]

theorem findDuty_error (slot : UInt64) (duties : List ValidatorDuty) :
    (∃ e, findDuty slot duties = .error e) ↔ Blocked slot duties := by
  induction duties with
  | nil =>
    constructor
    · rintro ⟨e,h⟩
      cases h
    · rintro ⟨before,d,after,split,_⟩
      cases before <;> cases split
  | cons d ds ih =>
    rw [findDuty]
    cases parsed : parseU64 d.slot with
    | error e =>
      have read : d.parseSlot = .error e := parsed
      rw [read]
      refine ⟨fun _ => ⟨[],d,ds,rfl,?_,nofun⟩,fun _ => ⟨_,rfl⟩⟩
      rintro ⟨n,other⟩
      cases parsed.symm.trans other
    | ok n =>
      have read : d.parseSlot = .ok n := parsed
      rw [read]
      dsimp only
      by_cases here : n = slot
      · rw [if_pos here]
        constructor
        · rintro ⟨e,h⟩
          cases h
        · rintro ⟨before,d',after,split,bad,others⟩
          cases before with
          | nil =>
            cases split
            exact absurd ⟨n,parsed⟩ bad
          | cons b before =>
            cases split
            obtain ⟨m,other,differs⟩ := others d List.mem_cons_self
            cases parsed.symm.trans other
            exact absurd here differs
      · rw [if_neg here,ih]
        constructor
        · rintro ⟨before,d',after,rfl,bad,others⟩
          exact ⟨d :: before,d',after,rfl,bad,List.forall_mem_cons.mpr ⟨⟨n,parsed,here⟩,others⟩⟩
        · rintro ⟨before,d',after,split,bad,others⟩
          cases before with
          | nil =>
            cases split
            exact absurd ⟨n,parsed⟩ bad
          | cons b before =>
            cases split
            exact ⟨before,d',after,rfl,bad,fun b hb => others b (List.mem_cons_of_mem d hb)⟩

section Clients
variable (J : JsonLibrary) (config : Api.Beacon.BeaconApiConfig) (pubkey : Types.BlsPublicKey) (slot : UInt64) (replies : Nat → Reply)

/-- A duty is looked for in the first record that arrives. -/
theorem getProposerForSlot_handled : Asked J ProposerDutiesResponse.ofJson (fun response => findDuty slot response.data)
    (proposerEndpoint (Types.BeaconTiming.slotToEpoch slot)) (endpoints config) replies
    ((getProposerForSlot J config slot).handled (network replies) 0) := by
  have asked := @endpoints_handled J _ _ ProposerDutiesResponse.ofJson Except.ok
    (proposerEndpoint (Types.BeaconTiming.slotToEpoch slot)) replies config
  rw [getProposerForSlot,Program.handled_bind]
  rcases asked with ⟨i,t,hi,received,before,urls,made⟩ | ⟨missing,urls,e,failed⟩
  · refine .inl ⟨i,t,hi,received,before,?_,?_⟩
    · rw [getProposerDuties,made]
      exact (List.append_nil _).trans urls
    · rw [getProposerDuties,made]
      rfl
  · refine .inr ⟨missing,?_,e,?_⟩
    · rw [getProposerDuties,failed]
      exact (List.append_nil _).trans urls
    · rw [getProposerDuties,failed]
      rfl

theorem getValidatorStatus_handled : Asked J ValidatorResponse.ofJson (fun response => parseValidatorInfo response.data)
    (statusEndpoint pubkey) (endpoints config) replies ((getValidatorStatus J config pubkey).handled (network replies) 0) := by
  rw [getValidatorStatus]
  exact endpoints_handled config

/-- The first well-formed reply, if any, has a numeric index or is the last endpoint's. -/
def StatusReadable : Prop := ∀ i < (endpoints config).length, ∀ response,
  record J ValidatorResponse.ofJson (replies i) = some response →
  (∀ j < i, record J ValidatorResponse.ofJson (replies j) = none) →
  Numeric response.data.index ∨ i + 1 = (endpoints config).length

/-- The first well-formed reply, if any, has numeric slots only, or it is the last endpoint's and one
before any duty for the slot is not a number. -/
def DutiesReadable : Prop := ∀ i < (endpoints config).length, ∀ response,
  record J ProposerDutiesResponse.ofJson (replies i) = some response →
  (∀ j < i, record J ProposerDutiesResponse.ofJson (replies j) = none) →
  (∀ d ∈ response.data, Numeric d.slot) ∨ (i + 1 = (endpoints config).length ∧ Blocked slot response.data)

/-- Both clients fail over as they should exactly if no well-formed reply with an unreadable number comes
before the last endpoint's. -/
theorem failover_iff :
    (Meets J ValidatorResponse.ofJson StatusOf (statusEndpoint pubkey) (endpoints config) replies
        ((getValidatorStatus J config pubkey).handled (network replies) 0) ↔ StatusReadable J config replies) ∧
      (Meets J ProposerDutiesResponse.ofJson (DutyOf slot) (proposerEndpoint (Types.BeaconTiming.slotToEpoch slot)) (endpoints config)
        replies ((getProposerForSlot J config slot).handled (network replies) 0) ↔ DutiesReadable J config slot replies) := by
  constructor
  · rw [meets_iff (getValidatorStatus_handled J config pubkey replies) (fun t v => parseValidatorInfo_of)]
    refine forall_congr' fun i => forall_congr' fun hi => forall_congr' fun response => forall_congr' fun _ => forall_congr' fun _ => ?_
    rw [statusOf_iff]
    by_cases number : Numeric response.data.index
    · exact ⟨fun _ => .inl number,fun _ => .inl number⟩
    · exact ⟨Or.imp_right And.left,Or.imp_right fun last => ⟨last,parseValidatorInfo_error number⟩⟩
  · have agree : ∀ response v, DutyOf slot response v → findDuty slot response.data = .ok v := by
      rintro response v ⟨numbers,rfl⟩
      exact findDuty_numeric slot numbers
    rw [meets_iff (getProposerForSlot_handled J config slot replies) agree]
    refine forall_congr' fun i => forall_congr' fun hi => forall_congr' fun response => forall_congr' fun _ => forall_congr' fun _ => ?_
    have usable : (∃ v, DutyOf slot response v) ↔ ∀ d ∈ response.data, Numeric d.slot :=
      ⟨fun ⟨_,h⟩ => h.1,fun h => ⟨_,h,rfl⟩⟩
    rw [usable,findDuty_error]

end Clients

/-- Two endpoints: the primary's record has no number for an index, and the fallback's has one. -/
def twoEndpoints : Api.Beacon.BeaconApiConfig := ⟨"http://a", ["http://b"]⟩

def validatorJson (index : String) : Json :=
  .object [("data", .object [("index", .string index),("status", .string "active_ongoing"),
    ("validator", .object [("pubkey", .string "0x"),("slashed", .bool false)])])]

def twoBodies : JsonLibrary :=
  ⟨Json.readerOf [validatorJson "none", validatorJson "7"],fun _ _ => "invalid type"⟩

def replyOf (n : Nat) : Reply := .ok ⟨200, Json.printed (validatorJson (if n = 0 then "none" else "7"))⟩

def zeroKey : Types.BlsPublicKey := ⟨List.replicate 48 0, List.length_replicate⟩

/-- The fallback's record is usable, but it is never asked for. -/
theorem unreadable_primary :
    ¬ Meets twoBodies ValidatorResponse.ofJson StatusOf (statusEndpoint zeroKey) (endpoints twoEndpoints) replyOf
      ((getValidatorStatus twoBodies twoEndpoints zeroKey).handled (network replyOf) 0) := by
  intro meets
  have first : record twoBodies ValidatorResponse.ofJson (replyOf 0) =
      some ⟨⟨"none","active_ongoing",⟨"0x",false⟩⟩⟩ := by decide +kernel
  have second : record twoBodies ValidatorResponse.ofJson (replyOf 1) =
      some ⟨⟨"7","active_ongoing",⟨"0x",false⟩⟩⟩ := by decide +kernel
  have read : StatusOf ⟨⟨"7","active_ongoing",⟨"0x",false⟩⟩⟩ ⟨⟨true,false⟩,7⟩ :=
    ⟨by decide,by decide,rfl⟩
  have unread : ¬ Numeric "none" := by
    rintro ⟨n,parsed⟩
    cases parsed
  have earlier : ∀ j < 1, ∀ response, record twoBodies ValidatorResponse.ofJson (replyOf j) = some response →
      ¬ ∃ info, StatusOf response info := by
    intro j hj response found usable
    have primary : j = 0 := by omega
    subst primary
    cases first.symm.trans found
    exact unread (statusOf_iff.mp usable)
  obtain ⟨made,_⟩ := meets.result 1 (by decide) _ _ second read earlier
  obtain ⟨_,result⟩ := (getValidatorStatus_handled twoBodies twoEndpoints zeroKey replyOf).stopped (i := 0) (by decide) first nofun
  cases made.symm.trans result

end PreconfGateway.Properties.BeaconFailover
