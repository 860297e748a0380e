import PreconfGateway.Fixture
import PreconfGateway.Startup

/-! What startup asks of addresses and of builder keys, and what their parsers ask later. -/
namespace PreconfGateway.Properties.UsableConfig
open Encoding Types Crypto Services Startup
variable {P : Platform} {host : Host P}

/-- Every entry of the whitelist is an address, and the builders are keys. -/
def Usable (config : Config P) : Prop :=
  (∀ w ∈ config.validation.slasherWhitelist, ∃ a, parseEthereumAddress w = .ok a) ∧
    ∃ keys, ConstraintSubmission.parseAuthorizedBuilders config.constraintsApi.authorizedBuilders = .ok keys

/-- What startup leaves open: what stands after the prefix of an entry are digits, and so is
what stands after the optional prefix of a builder, ninety-six of them. -/
def Digits (config : Config P) : Prop :=
  (∀ w ∈ config.validation.slasherWhitelist, ∀ c ∈ w.toList.drop 2, (Hex.value c).isSome = true) ∧
    ∀ b ∈ config.constraintsApi.authorizedBuilders,
      (strip0x b).toList.length = 96 ∧ ∀ c ∈ (strip0x b).toList, (Hex.value c).isSome = true

/-- An entry of the right shape is an address exactly if the rest are digits. -/
theorem address_iff {w : String} (shape : addressShape w = true) :
    (∃ a, parseEthereumAddress w = .ok a) ↔ ∀ c ∈ w.toList.drop 2, (Hex.value c).isSome = true := by
  obtain ⟨pre,size⟩ := Bool.and_eq_true_iff.mp shape
  obtain ⟨cs,hw⟩ := of_decide_eq_true pre
  have text : w = "0x" ++ String.ofList cs := by
    rw [← String.toList_inj,String.toList_append]
    simpa using hw.symm
  have rest : strip0x w = String.ofList cs := by
    rw [text,strip0x_prefixed]
  have chars : w.toList.drop 2 = cs := by
    rw [← hw]
    rfl
  rw [parseEthereumAddress,parseHexBytes_iff,rest,String.toList_ofList,chars]
  refine and_iff_right_of_imp fun digits => ?_
  have bytes : w.utf8ByteSize = 42 := of_decide_eq_true size
  rw [text,String.utf8ByteSize_append,Hex.size_digits digits] at bytes
  have two : "0x".utf8ByteSize = 2 := rfl
  omega

theorem builders_iff {builders : List String} :
    (∃ keys, ConstraintSubmission.parseAuthorizedBuilders builders = .ok keys) ↔
      ∀ b ∈ builders, (strip0x b).toList.length = 96 ∧ ∀ c ∈ (strip0x b).toList, (Hex.value c).isSome = true := by
  rw [ConstraintSubmission.parseAuthorizedBuilders,mapM_ok_iff]
  refine forall₂_congr fun b _ => ?_
  refine Iff.trans ?_ (parseHexBytes_iff (n := 48))
  split
  · rename_i e he
    simp [he]
  · rename_i bytes hb
    simp [hb]

/-- What is loaded has passed the check of its whitelist. -/
theorem load_shape {file : ConfigFile P} {signing : SigningConfig P} (h : Config.load host = .ok (file, signing)) :
    ∀ w ∈ file.validation.slasherWhitelist, addressShape w = true := by
  obtain ⟨file₀,_,h⟩ := bind_ok.mp h
  obtain ⟨signing₀,_,h⟩ := bind_ok.mp h
  obtain ⟨_,_,h⟩ := bind_ok.mp h
  obtain ⟨_,_,h⟩ := bind_ok.mp h
  obtain ⟨_,_,h⟩ := bind_ok.mp h
  obtain ⟨_,checked,h⟩ := bind_ok.mp h
  cases h
  unfold validateSlasherWhitelist at checked
  split at checked
  · cases checked
  · split at checked
    · cases checked
    · rename_i none
      intro w hw
      simpa using List.find?_eq_none.mp none w hw

/-- A started gateway runs on what was loaded. -/
theorem start_loaded {limits : Limits} {g : Gateway P} (h : start host limits = .ok g) :
    ∃ file signing, Config.load host = .ok (file, signing) ∧ g.config = file.config signing ∧ g.limits = limits ∧
      ConstraintsApiClient.new host file.constraintsApi = .ok () := by
  obtain ⟨⟨file,signing⟩,loaded,h⟩ := bind_ok.mp h
  obtain ⟨_,_,h⟩ := bind_ok.mp h
  obtain ⟨_,_,h⟩ := bind_ok.mp h
  obtain ⟨_,constraints,h⟩ := bind_ok.mp h
  obtain ⟨_,_,h⟩ := bind_ok.mp h
  split at h
  · cases h
  · obtain ⟨_,_,h⟩ := bind_ok.mp h
    cases h
    exact ⟨file,signing,loaded,rfl,rfl,constraints⟩

/-- With the configuration that a gateway was started on all addresses and builder keys parse exactly if they are
digits where startup does not look. -/
theorem started_usable_iff {limits : Limits} {g : Gateway P} (h : start host limits = .ok g) :
    Usable g.config ↔ Digits g.config := by
  obtain ⟨file,signing,loaded,hc,_⟩ := start_loaded h
  rw [hc]
  exact and_congr (forall₂_congr fun w hw => address_iff (load_shape loaded w hw)) builders_iff

/-- A host whose file has this whitelist and these builders, and nothing else amiss. -/
def hostOf (whitelist builders : List String) : Host (Fixture.platform []) where
  env name :=
    if name = "COMMITTER_PRIVATE_KEY" ∨ name = "BLS_PRIVATE_KEY" then
      some (Fixture.hexOf (List.replicate 32 9))
    else none
  configFile := some (.ok { ConfigFile.default with
    validation := ⟨whitelist⟩
    beaconApi := ⟨⟨1606824023⟩, "https://beacon.net", 30⟩
    constraintsApi := ⟨⟨10, 3, builders⟩, "https://relay.net"⟩ })
  secretKeyFromSlice := .ok
  serializeUncompressed := fun (key : Bytes) => 4 :: (key ++ key)
  blsSecretKeyFromBytes := .ok
  skToPk _ := Fixture.key 1
  httpClient _ := .ok ()
  jobScheduler := .ok ()

def limits : Limits := ⟨1000, 1000, 1000, 1000⟩

def lists (g : Gateway P) : List String × List String :=
  (g.config.validation.slasherWhitelist, g.config.constraintsApi.authorizedBuilders)

theorem started_lists (whitelist builders : List String)
    (h : (start (hostOf whitelist builders) limits).toOption.map lists = some (whitelist, builders)) :
    ∃ g, start (hostOf whitelist builders) limits = .ok g ∧ g.config.validation.slasherWhitelist = whitelist ∧
      g.config.constraintsApi.authorizedBuilders = builders := by
  obtain ⟨g,hg,he⟩ := Option.map_eq_some_iff.mp h
  refine ⟨g,?_,congrArg Prod.fst he,congrArg Prod.snd he⟩
  cases hs : start (hostOf whitelist builders) limits with
  | error e =>
    rw [hs] at hg
    cases hg
  | ok g' =>
    rw [hs] at hg
    cases hg
    rfl

/-- A builder's key. -/
def builder : String := "0x" ++ Hex.encode (Fixture.key 7).bytes

/-- An address and a key of a builder. -/
theorem started_usable_own : ∃ g, start (hostOf [Fixture.own] [builder]) limits = .ok g ∧
    g.config.constraintsApi.authorizedBuilders = [builder] ∧ (Usable g.config ↔ Digits g.config) := by
  obtain ⟨g,hg,_,builders⟩ := started_lists [Fixture.own] [builder] (by decide +kernel)
  exact ⟨g,hg,builders,started_usable_iff hg⟩

/-- An entry that is no address. -/
def notHex : String := "0xzzzzzzzzzzzzzzzzzzzzzzzzzzzzzzzzzzzzzzzz"

/-- A name for a builder, or letters after the prefix of an entry, let the gateway start. -/
theorem started_unusable :
    (∃ g, start (hostOf [Fixture.own] ["builder1"]) limits = .ok g ∧
      ¬∃ keys, ConstraintSubmission.parseAuthorizedBuilders g.config.constraintsApi.authorizedBuilders = .ok keys) ∧
    (∃ g, start (hostOf [notHex] []) limits = .ok g ∧
      ∃ w ∈ g.config.validation.slasherWhitelist, ¬∃ a, parseEthereumAddress w = .ok a) := by
  constructor
  · obtain ⟨g,hg,_,builders⟩ := started_lists [Fixture.own] ["builder1"] (by decide +kernel)
    refine ⟨g,hg,?_⟩
    rw [builders,builders_iff]
    intro digits
    exact absurd (digits "builder1" List.mem_cons_self).1 (by decide)
  · obtain ⟨g,hg,whitelist,_⟩ := started_lists [notHex] [] (by decide +kernel)
    refine ⟨g,hg,notHex,?_,?_⟩
    · rw [whitelist]
      exact List.mem_cons_self
    · rintro ⟨a,ha⟩
      have digits := (parseHexBytes_iff.mp ⟨a,ha⟩).2 'z' (by decide)
      cases digits

end PreconfGateway.Properties.UsableConfig
