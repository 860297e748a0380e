import PreconfGateway.Fixture

/-! Three readers of an address: the whitelist, the hash and the column. -/
namespace PreconfGateway.Properties.AddressChecks
open Encoding Types Db Crypto Rpc
variable {P : Platform}

/-- The whitelist takes the address exactly if it parses to the bytes of an entry, and what it
takes passes the check of the column and can be hashed in any request. -/
def Agree (context : Config P) (s : String) : Prop :=
  (validateSlasherAddress context s = .ok () ↔ ∃ a, parseEthereumAddress s = .ok a ∧
      ∃ w ∈ context.validation.slasherWhitelist, parseEthereumAddress w = .ok a) ∧
    (validateSlasherAddress context s = .ok () → hexFormat 40 s = true ∧
      ∀ request : CommitmentRequest, request.slasher = s → ∃ hash, generateRequestHash P request = .ok hash)

/-- The digits of the entry in either case, but not after a lower-case prefix. -/
def Misspells (s w : String) : Prop :=
  ∃ digits : List Char, digits.map Char.toLower = (w.toList.drop 2).map Char.toLower ∧
    (s.toList = digits ∨ s.toList = '0' :: 'X' :: digits)

section Spelling
variable {s w : String} {cs : List Char} {a : Bytes}

theorem hexFormat_iff {n : Nat} : hexFormat n s = true ↔
    ∃ cs, s.toList = '0' :: 'x' :: cs ∧ cs.length = n ∧ ∀ c ∈ cs, (Hex.value c).isSome = true := by
  unfold hexFormat
  simp only [Bool.and_eq_true,decide_eq_true_eq,List.isPrefixOf_iff_prefix,List.all_eq_true]
  constructor
  · rintro ⟨⟨⟨cs,hc⟩,long⟩,digits⟩
    rw [← hc] at long digits
    exact ⟨cs,hc.symm,by simpa using long,digits⟩
  · rintro ⟨cs,hc,long,digits⟩
    rw [hc]
    exact ⟨⟨⟨cs,rfl⟩,by simp [long]⟩,digits⟩

theorem strip_prefixed (h : s.toList = '0' :: 'x' :: cs) : strip0x s = String.ofList cs := by
  simp [strip0x,stripPrefix,h]

theorem normalize_prefixed (h : s.toList = '0' :: 'x' :: cs) :
    normalizeAddress s = String.ofList (cs.map Char.toLower) := by
  simp [normalizeAddress,stripPrefix,h]

theorem normalize_upper (h : s.toList = '0' :: 'X' :: cs) :
    normalizeAddress s = String.ofList (cs.map Char.toLower) := by
  simp [normalizeAddress,stripPrefix,h]

theorem normalize_bare (lower : ¬['0', 'x'] <+: s.toList) (upper : ¬['0', 'X'] <+: s.toList) :
    normalizeAddress s = String.ofList (s.toList.map Char.toLower) := by
  simp [normalizeAddress,stripPrefix,lower,upper]

theorem parse_iff : parseEthereumAddress s = .ok a ↔
    (strip0x s).toList.map Char.toLower = (Hex.encode a).toList ∧ a.length = 20 := by
  rw [parseEthereumAddress,parseHexBytes_ok,Hex.decode_lower_iff]

/-- A well-formed entry parses, and stands for its digits. -/
theorem entry_parses (h : hexFormat 40 w = true) : ∃ a, parseEthereumAddress w = .ok a ∧
    (w.toList.drop 2).map Char.toLower = (Hex.encode a).toList := by
  obtain ⟨cs,hw,long,digits⟩ := hexFormat_iff.mp h
  have text := strip_prefixed hw
  obtain ⟨a,twenty,ha⟩ := Hex.decode_ok_iff (s := String.ofList cs) (n := 20) |>.mpr
    ⟨by rw [String.toList_ofList,long],by rwa [String.toList_ofList]⟩
  have lower := Hex.decode_lower_iff.mp ha
  rw [String.toList_ofList] at lower
  refine ⟨a,parse_iff.mpr ⟨?_,twenty⟩,?_⟩
  · rw [text,String.toList_ofList,lower]
  · rw [hw]
    exact lower

/-- No digit is an x. -/
theorem digits_without {x : Char} (h : cs.map Char.toLower = (Hex.encode a).toList) (none : Hex.value x = none) :
    x ∉ cs := by
  intro hx
  have some := (Hex.digits_of_lower h).2 x hx
  rw [none] at some
  cases some

end Spelling

section Whitelist
variable {context : Config P} {s : String}

theorem accepts_iff : validateSlasherAddress context s = .ok () ↔
    ∃ w ∈ context.validation.slasherWhitelist, normalizeAddress w = normalizeAddress s := by
  unfold validateSlasherAddress
  simp

/-- What parses to the bytes of an entry is taken. -/
theorem accepts_of_parse {a : Bytes} (hs : parseEthereumAddress s = .ok a) {w : String}
    (hw : w ∈ context.validation.slasherWhitelist) (same : parseEthereumAddress w = .ok a) :
    validateSlasherAddress context s = .ok () := by
  refine accepts_iff.mpr ⟨w,hw,?_⟩
  rw [parseEthereumAddress_normalize hs,parseEthereumAddress_normalize same]

theorem hashes {request : CommitmentRequest} {a : Bytes} (h : parseEthereumAddress request.slasher = .ok a) :
    ∃ hash, generateRequestHash P request = .ok hash := by
  unfold generateRequestHash abiEncodeCommitmentRequest
  rw [h]
  exact ⟨_,rfl⟩

/-- With the lower-case prefix an address that is taken parses, and passes the check. -/
theorem agree_prefixed (wellFormed : ∀ w ∈ context.validation.slasherWhitelist, hexFormat 40 w = true)
    {cs : List Char} (h : s.toList = '0' :: 'x' :: cs) : Agree context s := by
  have taken : validateSlasherAddress context s = .ok () → ∃ a, parseEthereumAddress s = .ok a ∧
      (∃ w ∈ context.validation.slasherWhitelist, parseEthereumAddress w = .ok a) ∧ hexFormat 40 s = true := by
    intro accepted
    obtain ⟨w,hw,same⟩ := accepts_iff.mp accepted
    obtain ⟨a,ha,_⟩ := entry_parses (wellFormed w hw)
    have twenty := (parse_iff.mp ha).2
    rw [parseEthereumAddress_normalize ha,normalize_prefixed h] at same
    have lower : cs.map Char.toLower = (Hex.encode a).toList := by
      rw [same,String.toList_ofList]
    have digits := Hex.digits_of_lower lower
    refine ⟨a,parse_iff.mpr ⟨?_,twenty⟩,⟨w,hw,ha⟩,hexFormat_iff.mpr ⟨cs,h,?_,digits.2⟩⟩
    · rw [strip_prefixed h,String.toList_ofList,lower]
    · rw [digits.1,twenty]
  refine ⟨⟨fun accepted => ?_,?_⟩,fun accepted => ?_⟩
  · obtain ⟨a,ha,entry,_⟩ := taken accepted
    exact ⟨a,ha,entry⟩
  · rintro ⟨a,ha,w,hw,same⟩
    exact accepts_of_parse ha hw same
  · obtain ⟨a,ha,_,format⟩ := taken accepted
    exact ⟨format,fun request same => hashes (by rw [same,ha])⟩

/-- Without it exactly the misspelt entries are taken. -/
theorem accepts_other (wellFormed : ∀ w ∈ context.validation.slasherWhitelist, hexFormat 40 w = true)
    (other : ¬['0', 'x'] <+: s.toList) : validateSlasherAddress context s = .ok () ↔
      ∃ w ∈ context.validation.slasherWhitelist, Misspells s w := by
  rw [accepts_iff]
  refine exists_congr fun w => and_congr_right fun hw => ?_
  obtain ⟨a,ha,digits⟩ := entry_parses (wellFormed w hw)
  rw [parseEthereumAddress_normalize ha,Misspells,digits]
  by_cases upper : ['0', 'X'] <+: s.toList
  · obtain ⟨cs,hs⟩ := upper
    have hs' : s.toList = '0' :: 'X' :: cs := hs.symm
    rw [normalize_upper hs']
    constructor
    · intro same
      exact ⟨cs,by rw [same,String.toList_ofList],.inr hs'⟩
    · rintro ⟨cs',lower,he | he⟩
      · rw [hs'] at he
        exact absurd (by simp [← he]) (digits_without lower (by decide : Hex.value 'X' = none))
      · rw [hs'] at he
        cases he
        rw [lower,String.ofList_toList]
  · rw [normalize_bare other upper]
    constructor
    · intro same
      exact ⟨s.toList,by rw [same,String.toList_ofList],.inl rfl⟩
    · rintro ⟨cs,lower,he | he⟩
      · rw [he,lower,String.ofList_toList]
      · exact absurd ⟨cs,he.symm⟩ upper

end Whitelist

/-- On a whitelist of well-formed addresses all checks agree about a text exactly if it is not an entry without
the prefix or with an upper-case one. -/
theorem checks_agree_iff (context : Config P)
    (wellFormed : ∀ w ∈ context.validation.slasherWhitelist, hexFormat 40 w = true) (s : String) :
    Agree context s ↔ ∀ w ∈ context.validation.slasherWhitelist, ¬Misspells s w := by
  by_cases lower : ['0', 'x'] <+: s.toList
  · obtain ⟨cs,hs⟩ := lower
    have hs' : s.toList = '0' :: 'x' :: cs := hs.symm
    refine iff_of_true (agree_prefixed wellFormed hs') fun w hw => ?_
    rintro ⟨digits,same,he | he⟩
    · obtain ⟨a,_,entry⟩ := entry_parses (wellFormed w hw)
      rw [hs'] at he
      exact absurd (by simp [← he]) (digits_without (same.trans entry) (by decide : Hex.value 'x' = none))
    · rw [hs'] at he
      cases he
  · have taken := accepts_other wellFormed lower
    have column : hexFormat 40 s ≠ true := by
      intro format
      obtain ⟨cs,hs,_⟩ := hexFormat_iff.mp format
      exact lower ⟨cs,hs.symm⟩
    constructor
    · intro agree w hw misspelt
      exact column (agree.2 (taken.mpr ⟨w,hw,misspelt⟩)).1
    · intro none
      have refused : validateSlasherAddress context s ≠ .ok () := by
        intro accepted
        obtain ⟨w,hw,misspelt⟩ := taken.mp accepted
        exact none w hw misspelt
      refine ⟨⟨fun accepted => absurd accepted refused,?_⟩,fun accepted => absurd accepted refused⟩
      rintro ⟨a,ha,w,hw,same⟩
      exact accepts_of_parse ha hw same

theorem own_wellFormed : ∀ w ∈ Fixture.small.config.validation.slasherWhitelist, hexFormat 40 w = true := by
  intro w hw
  rw [List.mem_singleton.mp hw]
  decide +kernel

/-- The entry with a letter in upper case. -/
theorem checks_agree_respelled : Agree Fixture.small.config Fixture.respelled ↔
    ∀ w ∈ Fixture.small.config.validation.slasherWhitelist, ¬Misspells Fixture.respelled w :=
  checks_agree_iff Fixture.small.config own_wellFormed Fixture.respelled

/-- Without its prefix the entry is taken and hashed, and refused by the column; with an upper-case prefix it is
taken and cannot be hashed. -/
theorem misspelt_accepted :
    (validateSlasherAddress Fixture.small.config "abcdabcdabcdabcdabcdabcdabcdabcdabcdabcd" = .ok () ∧
      (parseEthereumAddress "abcdabcdabcdabcdabcdabcdabcdabcdabcdabcd").isOk = true ∧
        hexFormat 40 "abcdabcdabcdabcdabcdabcdabcdabcdabcdabcd" = false) ∧
    (validateSlasherAddress Fixture.small.config "0Xabcdabcdabcdabcdabcdabcdabcdabcdabcdabcd" = .ok () ∧
      (parseEthereumAddress "0Xabcdabcdabcdabcdabcdabcdabcdabcdabcdabcd").isOk = false) ∧
    ¬Agree Fixture.small.config "abcdabcdabcdabcdabcdabcdabcdabcdabcdabcd" ∧
    ¬Agree Fixture.small.config "0Xabcdabcdabcdabcdabcdabcdabcdabcdabcdabcd" := by
  have bare : validateSlasherAddress Fixture.small.config "abcdabcdabcdabcdabcdabcdabcdabcdabcdabcd" = .ok () :=
    accepts_iff.mpr ⟨Fixture.own,List.mem_singleton.mpr rfl,by decide +kernel⟩
  have upper : validateSlasherAddress Fixture.small.config "0Xabcdabcdabcdabcdabcdabcdabcdabcdabcdabcd" = .ok () :=
    accepts_iff.mpr ⟨Fixture.own,List.mem_singleton.mpr rfl,by decide +kernel⟩
  have column : hexFormat 40 "abcdabcdabcdabcdabcdabcdabcdabcdabcdabcd" = false := by decide +kernel
  have column' : hexFormat 40 "0Xabcdabcdabcdabcdabcdabcdabcdabcdabcdabcd" = false := by decide +kernel
  refine ⟨⟨bare,by decide +kernel,column⟩,⟨upper,by decide +kernel⟩,fun agree => ?_,fun agree => ?_⟩
  · rw [(agree.2 bare).1] at column
    cases column
  · rw [(agree.2 upper).1] at column'
    cases column'

end PreconfGateway.Properties.AddressChecks
