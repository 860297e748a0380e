import PreconfGateway.Fixture
import PreconfGateway.Types.PayloadEncoding

/-! A payload reads back from either of its two encodings, and no text is read as both: what
JSON takes opens below the range of list tags. -/
namespace PreconfGateway.Properties.PayloadRoundTrip
open Encoding Types Db Services PayloadParser
variable {P : Platform} {json : JsonText}

/-- A list of two items is read field by field. -/
theorem parseRlp_two {b : Bytes} (list : P.rlp.isList b = true) (count : P.rlp.itemCount b = .ok 2) :
    parseInclusionPayloadRlp P b = (do
      let slot ← (P.rlp.u64At b 0).mapError (fun e => ["Failed to decode slot from RLP", e])
      let signedTx ← (P.rlp.bytesAt b 1).mapError (fun e => ["Failed to decode signed_tx from RLP", e])
      .ok ⟨slot, signedTx⟩) := by
  unfold parseInclusionPayloadRlp
  rw [list,count]
  rfl

private theorem parseRlp_count {b : Bytes} {p : InclusionPayload} (h : parseInclusionPayloadRlp P b = .ok p) :
    P.rlp.isList b = true ∧ P.rlp.itemCount b = .ok 2 := by
  unfold parseInclusionPayloadRlp at h
  cases list : P.rlp.isList b with
  | false => simp [list,bail,bind,Except.bind] at h
  | true =>
    cases count : P.rlp.itemCount b with
    | error e => simp [list,count,Except.mapError,bind,Except.bind] at h
    | ok n =>
      by_cases two : n = 2
      · rw [two]
        exact ⟨rfl,rfl⟩
      · simp [list,count,two,Except.mapError,bail,bind,Except.bind] at h

/-- A list that is all there is reads as a payload exactly if it has two items, a number of
64 bits and a string. -/
theorem parseRlp_iff (reads : P.rlp.Reads) {b : Bytes} {is : List Rlp.Item} (h : Rlp.decodeList b = some is)
    {p : InclusionPayload} : parseInclusionPayloadRlp P b = .ok p ↔
      ∃ x y, is = [x,y] ∧ x.u64 = some p.slot ∧ y.bytes = some p.signedTx := by
  have option {ε α : Type} {x : Except ε α} {a : α} : x = .ok a ↔ x.toOption = some a := by
    cases x <;> simp [Except.toOption]
  have slot (n : UInt64) : P.rlp.u64At b 0 = .ok n ↔ is[0]?.bind Rlp.Item.u64 = some n := by
    rw [option,reads.u64At b is 0 h]
  have tx (t : Bytes) : P.rlp.bytesAt b 1 = .ok t ↔ is[1]?.bind Rlp.Item.bytes = some t := by
    rw [option,reads.bytesAt b is 1 h]
  have count := reads.itemCount b is h
  constructor
  · intro parsed
    obtain ⟨list,two⟩ := parseRlp_count parsed
    obtain ⟨x,y,rfl⟩ := List.length_eq_two.mp (Except.ok.inj (count.symm.trans two))
    rw [parseRlp_two list two] at parsed
    obtain ⟨n,hn,parsed⟩ := bind_ok.mp parsed
    obtain ⟨t,ht,parsed⟩ := bind_ok.mp parsed
    cases parsed
    exact ⟨x,y,rfl,(slot n).mp (mapError_ok.mp hn),(tx t).mp (mapError_ok.mp ht)⟩
  · rintro ⟨x,y,rfl,hx,hy⟩
    rw [parseRlp_two ((reads.isList b).mpr (Rlp.decodeList_tag h)) count,(slot p.slot).mpr hx,(tx p.signedTx).mpr hy]
    rfl

theorem encodeRlp_items (p : InclusionPayload) : encodeInclusionPayloadRlp p =
    Rlp.list ([Rlp.Item.string (Rlp.minimal p.slot.toNat),Rlp.Item.string p.signedTx].flatMap Rlp.Item.encode) := by
  simp [encodeInclusionPayloadRlp,Rlp.Item.encode]

theorem parseRlp_encode (reads : P.rlp.Reads) {p : InclusionPayload} (long : p.signedTx.length < 2 ^ 63) :
    parseInclusionPayloadRlp P (encodeInclusionPayloadRlp p) = .ok p := by
  have slot := Rlp.minimal_length_eight p.slot.toNat_lt
  have first := Rlp.string_length (Nat.lt_of_le_of_lt slot (by decide))
  have second := Rlp.string_length (Nat.lt_trans long (by decide))
  have whole := @Rlp.decodeList_list [.string (Rlp.minimal p.slot.toNat),.string p.signedTx] (by
    simp only [List.flatMap_cons,List.flatMap_nil,List.append_nil,List.length_append,Rlp.Item.encode]
    omega)
  rw [encodeRlp_items,parseRlp_iff reads whole]
  exact ⟨_,_,rfl,Rlp.u64_minimal p.slot,rfl⟩

/-- A JSON payload does not start like a list. -/
theorem json_not_list (reads : P.ReadsJson json) (rlp : P.rlp.Reads) {b : Bytes} {p : InclusionPayload}
    (h : P.inclusionPayloadFromJson b = .ok p) : P.rlp.isList b = false := by
  have found := reads.inclusionPayload b
  rw [h] at found
  obtain ⟨v,hv,hp⟩ := Option.bind_eq_some_iff.mp found.symm
  have opens : ∃ c rest, b = c :: rest ∧ c.toNat < 0x80 := by
    rcases InclusionPayload.ofJson_some hp with ⟨members,rfl⟩ | ⟨items,rfl⟩
    · exact (reads.object b members hv).head (by decide)
    · exact (reads.array b items hv).head (by decide)
  obtain ⟨c,rest,rfl,low⟩ := opens
  rw [Bool.eq_false_iff,ne_eq,rlp.isList]
  rintro ⟨_,_,he,high⟩
  cases he
  omega

/-- What RLP takes JSON does not. -/
theorem parse_of_rlp (reads : P.ReadsJson json) (rlp : P.rlp.Reads) {b : Bytes} {p : InclusionPayload}
    (h : parseInclusionPayloadRlp P b = .ok p) : parseInclusionPayload P b = .ok p := by
  unfold parseInclusionPayload
  cases first : P.inclusionPayloadFromJson b with
  | ok q =>
    have list := (parseRlp_count h).1
    rw [json_not_list reads rlp first] at list
    cases list
  | error e =>
    rw [h]
    rfl

theorem parse_of_json (reads : P.ReadsJson json) (p : InclusionPayload) :
    parseInclusionPayload P (encodeInclusionPayload json p) = .ok p := by
  have found := reads.inclusionPayload (encodeInclusionPayload json p)
  rw [encodeInclusionPayload,reads.printed,Option.bind_some,InclusionPayload.ofJson_toJson] at found
  unfold parseInclusionPayload encodeInclusionPayload
  cases first : P.inclusionPayloadFromJson (json.print p.toJson) with
  | ok q =>
    rw [first] at found
    cases found
    rfl
  | error e =>
    rw [first] at found
    cases found

/-- Both encodings of a payload of any bytes read back (a vector of bytes has fewer than `2 ^ 63`), no text is
read as both formats, and wherever the payload is read again it has the same slot and transaction. -/
theorem payload_round_trip (rlp : P.rlp.Reads) (reads : P.ReadsJson json) :
    (∀ p : InclusionPayload, parseInclusionPayload P (encodeInclusionPayload json p) = .ok p ∧
      (p.signedTx.length < 2 ^ 63 → parseInclusionPayload P (encodeInclusionPayloadRlp p) = .ok p)) ∧
    (∀ b p q, P.inclusionPayloadFromJson b = .ok p → parseInclusionPayloadRlp P b ≠ .ok q) ∧
    (∀ b p, parseInclusionPayloadRlp P b = .ok p → parseInclusionPayload P b = .ok p) ∧
    ∀ b p, parseInclusionPayload P b = .ok p → extractSlot P 1 b = .ok p.slot ∧
      (∀ hash slasher, slotNumberOf P ⟨1, b, hash, slasher⟩ = i64TryFrom p.slot) ∧
        FeePricing.estimateGasForCommitment P 1 b = .ok (21000 + .ofNat p.signedTx.length * 16 + 10000) := by
  refine ⟨fun p => ⟨parse_of_json reads p,fun long => parse_of_rlp reads rlp (parseRlp_encode rlp long)⟩,?_,
    fun b p h => parse_of_rlp reads rlp h,?_⟩
  · intro b p q first second
    have list := (parseRlp_count second).1
    rw [json_not_list reads rlp first] at list
    cases list
  · intro b p h
    have slot : extractSlot P 1 b = .ok p.slot := by
      simp only [extractSlot,if_true,extractSlotFromInclusionPayload,h]
      rfl
    refine ⟨slot,fun hash slasher => ?_,?_⟩
    · simp only [slotNumberOf,slot]
    · simp only [FeePricing.estimateGasForCommitment,if_true,h]

/-- The items at the front of the bytes. -/
def leading : Nat → Bytes → List Rlp.Item
  | 0, _ => []
  | fuel + 1, bs =>
    match Rlp.first bs with
    | some (item, rest) => item :: leading fuel rest
    | none => []

theorem leading_items {fuel : Nat} {bs : Bytes} {is : List Rlp.Item} (h : Rlp.items fuel bs = some is) :
    leading fuel bs = is := by
  induction fuel generalizing bs is with
  | zero =>
    cases bs with
    | nil =>
      cases h
      rfl
    | cons b bs => cases h
  | succ fuel ih =>
    cases bs with
    | nil =>
      cases h
      rfl
    | cons b bs =>
      obtain ⟨⟨item,rest⟩,hf,h⟩ := Option.bind_eq_some_iff.mp h
      obtain ⟨is,hi,rfl⟩ := Option.map_eq_some_iff.mp h
      rw [leading,hf]
      exact congrArg (item :: ·) (ih hi)

/-- The items of the list that the bytes start with. -/
def listItems (b : Bytes) : Option (List Rlp.Item) :=
  match Rlp.first b with
  | some (.list payload, _) => some (leading payload.length payload)
  | _ => none

/-- A view of the first item of its bytes. -/
def view : RlpReader where
  isList b := b.head?.any (fun c => 0xc0 ≤ c.toNat)
  itemCount b := ((listItems b).map (fun is => Except.ok is.length)).getD (.error "RlpExpectedToBeList")
  u64At b i := (((listItems b).bind (fun is => is[i]?.bind Rlp.Item.u64)).map .ok).getD (.error "RlpIsTooShort")
  bytesAt b i := (((listItems b).bind (fun is => is[i]?.bind Rlp.Item.bytes)).map .ok).getD (.error "RlpIsTooShort")

theorem view_reads : view.Reads := by
  have whole {b : Bytes} {is : List Rlp.Item} (h : Rlp.decodeList b = some is) : listItems b = some is := by
    unfold Rlp.decodeList at h
    split at h
    · rename_i payload hf
      rw [listItems,hf]
      exact congrArg some (leading_items h)
    · cases h
  have option {α : Type} (found : Option α) (e : String) :
      ((found.map Except.ok).getD (.error e)).toOption = found := by
    cases found <;> rfl
  refine ⟨?_,?_,?_,?_⟩
  · intro b
    cases b with
    | nil => simp [view]
    | cons c rest => simp [view]
  · intro b is h
    simp [view,whole h]
  · intro b is i h
    simp only [view,whole h,Option.bind_some]
    exact option _ _
  · intro b is i h
    simp only [view,whole h,Option.bind_some]
    exact option _ _

section Text

def ascii (cs : List Char) : Bytes := cs.map (fun c => UInt8.ofNat c.toNat)

def chars (b : Bytes) : List Char := b.map (fun c => Char.ofNat c.toNat)

theorem chars_ascii {cs : List Char} (h : ∀ c ∈ cs, c.toNat < 128) : chars (ascii cs) = cs := by
  unfold chars ascii
  rw [List.map_map]
  refine (List.map_congr_left fun c hc => ?_).trans (List.map_id _)
  have small := h c hc
  simp only [Function.comp_apply,UInt8.toNat_ofNat']
  rw [Nat.mod_eq_of_lt (by omega),Char.ofNat_toNat]
  rfl

def before : List Char := "\x7b\"slot\":".toList

def between : List Char := ",\"signed_tx\":\"".toList

def after : List Char := "\"\x7d".toList

/-- A payload without white space. -/
def compact (slot : Nat) (tx : List Char) : List Char :=
  before ++ (Nat.toDigits 10 slot ++ (between ++ (tx ++ after)))

def payloadOf (slot : Nat) (tx : List Char) : Json :=
  .object [("slot", .natural slot),("signed_tx", .string (String.ofList tx))]

def slotText (cs : List Char) : List Char := (cs.drop before.length).takeWhile Char.isDigit

def txText (cs : List Char) : List Char :=
  ((cs.drop (before.length + (slotText cs).length + between.length)).dropLast).dropLast

/-- Payloads without white space, as they are printed. -/
def payloadText : JsonText where
  parse b :=
    let slot := Nat.ofDigitChars 10 (slotText (chars b)) 0
    let tx := txText (chars b)
    if ascii (compact slot tx) = b then some (payloadOf slot tx) else none
  print
    | .object [(_, .natural slot),(_, .string tx)] => ascii (compact slot tx.toList)
    | _ => []

theorem slotText_compact (slot : Nat) (tx : List Char) : slotText (compact slot tx) = Nat.toDigits 10 slot := by
  have digits : ∀ c ∈ Nat.toDigits 10 slot, c.isDigit = true :=
    fun c hc => Nat.isDigit_of_mem_toDigits (by decide) (by decide) hc
  have stop (rest : List Char) : (between ++ rest).takeWhile Char.isDigit = [] := rfl
  rw [slotText,compact,List.drop_left,List.takeWhile_append_of_pos digits,stop,List.append_nil]

theorem txText_compact (slot : Nat) (tx : List Char) : txText (compact slot tx) = tx := by
  rw [txText,slotText_compact]
  have skip : (compact slot tx).drop (before.length + (Nat.toDigits 10 slot).length + between.length) = tx ++ after := by
    rw [← List.drop_drop,← List.drop_drop,compact,List.drop_left,List.drop_left,List.drop_left]
  rw [skip]
  simp [after,List.dropLast_append_of_ne_nil]

/-- Text of seven bits reads back. -/
theorem parse_compact {slot : Nat} {tx : List Char} (h : ∀ c ∈ tx, c.toNat < 128) :
    payloadText.parse (ascii (compact slot tx)) = some (payloadOf slot tx) := by
  have seven : ∀ c ∈ compact slot tx, c.toNat < 128 := by
    intro c hc
    have low : (before ++ between ++ after).all (fun c => c.toNat < 128) = true := by decide
    have fixed (c : Char) (hc : c ∈ before ++ between ++ after) : c.toNat < 128 :=
      of_decide_eq_true (List.all_eq_true.mp low c hc)
    simp only [compact,List.mem_append] at hc
    simp only [List.mem_append] at fixed
    rcases hc with hc | hc | hc | hc | hc
    · exact fixed c (.inl (.inl hc))
    · have digit := Nat.isDigit_of_mem_toDigits (by decide) (by decide) hc
      simp only [Char.isDigit,Bool.and_eq_true,decide_eq_true_eq] at digit
      have top : c.val.toNat ≤ 57 := digit.2
      exact Nat.lt_of_le_of_lt top (by decide)
    · exact fixed c (.inl (.inr hc))
    · exact h c hc
    · exact fixed c (.inr hc)
  simp only [payloadText,chars_ascii seven,slotText_compact,txText_compact,Nat.ofDigitChars_ten_toDigits,if_true]

end Text

/-- A platform with a view for RLP and compact payloads for JSON. -/
def reading : Platform :=
  { Fixture.platform [] with
    rlp := view
    inclusionPayloadFromJson := fun b => match (payloadText.parse b).bind InclusionPayload.ofJson with
      | some p => .ok p
      | none => .error "expected value at line 1 column 1" }

theorem reading_json : reading.ReadsJson payloadText := by
  have shape {b : Bytes} {v : Json} (h : payloadText.parse b = some v) :
      ∃ slot tx, v = payloadOf slot tx ∧ ascii (compact slot tx) = b := by
    obtain ⟨same,he⟩ := Option.ite_none_right_eq_some.mp h
    cases he
    exact ⟨_,_,rfl,same⟩
  refine ⟨⟨?_,?_⟩,?_,?_⟩
  · intro b members h
    obtain ⟨slot,tx,_,rfl⟩ := shape h
    exact ⟨[],_,nofun,rfl⟩
  · intro b items h
    obtain ⟨slot,tx,he,_⟩ := shape h
    cases he
  · intro b
    simp only [reading]
    cases (payloadText.parse b).bind InclusionPayload.ofJson <;> rfl
  · intro p
    have hex : ∀ c ∈ ("0x" ++ Hex.encode p.signedTx).toList, c.toNat < 128 := by
      intro c hc
      rw [String.toList_append,List.mem_append] at hc
      rcases hc with hc | hc
      · have start : "0x".toList.all (fun c => c.toNat < 128) = true := by decide
        exact of_decide_eq_true (List.all_eq_true.mp start c hc)
      · rw [Hex.encode,String.toList_ofList,List.mem_flatMap] at hc
        obtain ⟨b,_,hb⟩ := hc
        have digits : ∀ n : Fin 16, (Hex.digit n).toNat < 128 := by decide
        have high : b.toNat / 16 < 16 := Nat.div_lt_of_lt_mul b.toNat_lt
        have low : b.toNat % 16 < 16 := Nat.mod_lt _ (by decide)
        rcases List.mem_pair.mp hb with rfl | rfl
        · exact digits ⟨_,high⟩
        · exact digits ⟨_,low⟩
    have read := @parse_compact p.slot.toNat _ hex
    rw [payloadOf,String.ofList_toList] at read
    exact read

/-- The empty transaction in the last slot, in both encodings. -/
theorem payload_round_trip_empty :
    parseInclusionPayload reading (encodeInclusionPayload payloadText ⟨18446744073709551615, []⟩) =
        .ok ⟨18446744073709551615, []⟩ ∧
      parseInclusionPayload reading (encodeInclusionPayloadRlp ⟨18446744073709551615, []⟩) =
        .ok ⟨18446744073709551615, []⟩ := by
  obtain ⟨json,rlp⟩ := (payload_round_trip view_reads reading_json).1 ⟨18446744073709551615, []⟩
  exact ⟨json,rlp (by decide)⟩

end PreconfGateway.Properties.PayloadRoundTrip
