import Mathlib.Data.Nat.Digits.Lemmas
import PreconfGateway.Encoding.Hex

/-! Recursive length prefixes: what is written for strings, numbers and lists, and a reader
that takes nothing else for an item. -/
namespace PreconfGateway.Encoding.Rlp

/-- The value of bytes with the highest first. -/
def value (bs : Bytes) : Nat := Nat.ofDigits 256 (bs.reverse.map UInt8.toNat)

/-- The bytes of a number with the highest first, none of them a leading zero. -/
def minimal (n : Nat) : Bytes := ((Nat.digits 256 n).map UInt8.ofNat).reverse

/-- A short length is added to the tag; of a longer one its own length is. -/
def header (tag n : Nat) : Bytes :=
  if n ≤ 55 then [.ofNat (tag + n)] else .ofNat (tag + 55 + (minimal n).length) :: minimal n

/-- A byte of seven bits stands for itself. -/
def isSingle (content : Bytes) : Bool := content.length = 1 && content.all (· < 0x80)

def string (content : Bytes) : Bytes :=
  if isSingle content then content else header 0x80 content.length ++ content

def list (payload : Bytes) : Bytes := header 0xc0 payload.length ++ payload

/-- An item, with the items of a list still encoded. -/
inductive Item
  | string (content : Bytes)
  | list (payload : Bytes)
  deriving DecidableEq

def Item.encode : Item → Bytes
  | .string content => Rlp.string content
  | .list payload => Rlp.list payload

/-- The first bytes and what follows them. -/
def cut (n : Nat) (bs : Bytes) : Option (Bytes × Bytes) :=
  if n ≤ bs.length then some (bs.take n, bs.drop n) else none

/-- A long length: no leading zero, and too large for the tag. -/
def longLength (k : Nat) (bs : Bytes) : Option (Nat × Bytes) := do
  let (digits, rest) ← cut k bs
  if digits.head? ≠ some 0 ∧ 55 < value digits then some (value digits, rest) else none

/-- A short string, unless its byte should have stood for itself. -/
def shortString (n : Nat) (bs : Bytes) : Option (Item × Bytes) := do
  let (content, rest) ← cut n bs
  if isSingle content then none else some (.string content, rest)

/-- The first item, and what follows it. -/
def first : Bytes → Option (Item × Bytes)
  | [] => none
  | b :: rest =>
    if b.toNat < 0x80 then some (.string [b], rest)
    else if b.toNat < 0xb8 then shortString (b.toNat - 0x80) rest
    else if b.toNat < 0xc0 then do
      let (n, rest) ← longLength (b.toNat - 0xb7) rest
      let (content, rest) ← cut n rest
      some (.string content, rest)
    else if b.toNat < 0xf8 then (cut (b.toNat - 0xc0) rest).map (fun (payload, rest) => (.list payload, rest))
    else do
      let (n, rest) ← longLength (b.toNat - 0xf7) rest
      let (payload, rest) ← cut n rest
      some (.list payload, rest)

/-- All items of the bytes; each takes at least one byte. -/
def items : Nat → Bytes → Option (List Item)
  | _, [] => some []
  | 0, _ => none
  | fuel + 1, bs => do
    let (item, rest) ← first bs
    (items fuel rest).map (item :: ·)

/-- The items of a list that is all there is. -/
def decodeList (bs : Bytes) : Option (List Item) :=
  match first bs with
  | some (.list payload, []) => items payload.length payload
  | _ => none

def Item.bytes : Item → Option Bytes
  | .string content => some content
  | .list _ => none

/-- A number of at most eight bytes without a leading zero. -/
def Item.u64 : Item → Option UInt64
  | .string content =>
    if content.length ≤ 8 ∧ content.head? ≠ some 0 then some (.ofNat (value content)) else none
  | .list _ => none

section Numbers

theorem value_minimal (n : Nat) : value (minimal n) = n := by
  have same : ((Nat.digits 256 n).map UInt8.ofNat).map UInt8.toNat = Nat.digits 256 n := by
    rw [List.map_map]
    refine (List.map_congr_left fun d hd => ?_).trans (List.map_id _)
    have small : d < 256 := Nat.digits_lt_base (by decide) hd
    simpa using Nat.mod_eq_of_lt small
  rw [value,minimal,List.reverse_reverse,same,Nat.ofDigits_digits]

theorem minimal_head (n : Nat) : (minimal n).head? ≠ some 0 := by
  rcases Nat.eq_zero_or_pos n with rfl | pos
  · simp [minimal]
  · have last := Nat.getLast_digit_ne_zero 256 (Nat.ne_of_gt pos)
    have small : (Nat.digits 256 n).getLast (Nat.digits_ne_nil_iff_ne_zero.mpr (Nat.ne_of_gt pos)) < 256 :=
      Nat.digits_lt_base (by decide) (List.getLast_mem _)
    rw [minimal,List.head?_reverse,List.getLast?_map,
      List.getLast?_eq_some_getLast (Nat.digits_ne_nil_iff_ne_zero.mpr (Nat.ne_of_gt pos)),Option.map_some]
    intro zero
    have zero' := congrArg UInt8.toNat (Option.some.inj zero)
    rw [UInt8.toNat_ofNat',Nat.mod_eq_of_lt small] at zero'
    exact last zero'

/-- Bytes without a leading zero are the bytes of their value. -/
theorem minimal_value {bs : Bytes} (h : bs.head? ≠ some 0) : minimal (value bs) = bs := by
  have small : ∀ d ∈ bs.reverse.map UInt8.toNat, d < 256 := by
    intro d hd
    obtain ⟨b,_,rfl⟩ := List.mem_map.mp hd
    exact b.toNat_lt
  have last : ∀ ne : bs.reverse.map UInt8.toNat ≠ [], (bs.reverse.map UInt8.toNat).getLast ne ≠ 0 := by
    intro ne zero
    have some := List.getLast?_eq_some_getLast ne
    rw [zero,List.getLast?_map,List.getLast?_reverse] at some
    obtain ⟨b,hb,hz⟩ := Option.map_eq_some_iff.mp some
    refine h (hb.trans (congrArg Option.some ?_))
    exact UInt8.toNat.inj hz
  rw [minimal,value,Nat.digits_ofDigits 256 (by decide) _ small last,List.map_map]
  have back : (UInt8.ofNat ∘ UInt8.toNat) = id := by
    funext b
    exact UInt8.ofNat_toNat
  rw [back,List.map_id,List.reverse_reverse]

theorem minimal_length {n k : Nat} : (minimal n).length ≤ k ↔ n < 256 ^ k := by
  rw [minimal,List.length_reverse,List.length_map,Nat.digits_length_le_iff (by decide)]

theorem minimal_length_pos {n : Nat} (h : 0 < n) : 0 < (minimal n).length := by
  rw [← Nat.not_le,minimal_length]
  omega

end Numbers

section Reading
variable {bs rest rest' content payload : Bytes} {n k : Nat} {item : Item}

theorem cut_append (bs rest : Bytes) : cut bs.length (bs ++ rest) = some (bs, rest) := by
  simp [cut]

theorem cut_some (h : cut n bs = some (content, rest)) : content.length = n ∧ bs = content ++ rest := by
  obtain ⟨fits,he⟩ := Option.ite_none_right_eq_some.mp h
  cases he
  exact ⟨List.length_take_of_le fits,(List.take_append_drop n bs).symm⟩

theorem longLength_minimal (h : 55 < n) (rest : Bytes) :
    longLength (minimal n).length (minimal n ++ rest) = some (n, rest) := by
  simp [longLength,cut_append,value_minimal,minimal_head,h]

theorem longLength_some (h : longLength k bs = some (n, rest)) :
    55 < n ∧ (minimal n).length = k ∧ bs = minimal n ++ rest := by
  obtain ⟨⟨digits,rest'⟩,hc,h⟩ := Option.bind_eq_some_iff.mp h
  obtain ⟨⟨lead,large⟩,he⟩ := Option.ite_none_right_eq_some.mp h
  cases he
  obtain ⟨long,rfl⟩ := cut_some hc
  rw [minimal_value lead]
  exact ⟨large,long,rfl⟩

theorem shortString_some (h : shortString n bs = some (item, rest)) :
    ∃ content, content.length = n ∧ isSingle content = false ∧ item = .string content ∧ bs = content ++ rest := by
  obtain ⟨⟨content,after⟩,hc,h⟩ := Option.bind_eq_some_iff.mp h
  obtain ⟨several,he⟩ := Option.ite_none_left_eq_some.mp h
  cases he
  obtain ⟨long,split⟩ := cut_some hc
  exact ⟨content,long,Bool.eq_false_iff.mpr several,rfl,split⟩

/-- The length of a length fits its tag. -/
theorem minimal_length_eight (h : n < 2 ^ 64) : (minimal n).length ≤ 8 :=
  minimal_length.mpr (h.trans_eq (by norm_num))

theorem isSingle_iff : isSingle content = true ↔ ∃ b : UInt8, content = [b] ∧ b.toNat < 0x80 := by
  unfold isSingle
  constructor
  · intro h
    rw [Bool.and_eq_true,decide_eq_true_eq,List.length_eq_one_iff] at h
    obtain ⟨⟨b,rfl⟩,small⟩ := h
    exact ⟨b,rfl,by simpa [UInt8.lt_iff_toNat_lt] using small⟩
  · rintro ⟨b,rfl,small⟩
    simpa [UInt8.lt_iff_toNat_lt] using small

private theorem tag_toNat {t : Nat} (h : t < 256) : (UInt8.ofNat t).toNat = t := by
  rw [UInt8.toNat_ofNat',Nat.mod_eq_of_lt h]

/-- A string is read back, whatever follows it. -/
theorem first_string (h : content.length < 2 ^ 64) (rest : Bytes) :
    first (string content ++ rest) = some (.string content, rest) := by
  unfold string
  split
  · rename_i single
    obtain ⟨b,rfl,small⟩ := isSingle_iff.mp single
    simp [first,small]
  · rename_i several
    unfold header
    split
    · rename_i short
      have tag := tag_toNat (show 0x80 + content.length < 256 by omega)
      simp only [List.cons_append,List.nil_append,first,tag]
      rw [if_neg (by omega),if_pos (by omega),Nat.add_sub_cancel_left]
      simp [shortString,cut_append,several]
    · rename_i long
      have eight := minimal_length_eight h
      have pos := minimal_length_pos (Nat.lt_trans (by decide) (Nat.lt_of_not_le long))
      have tag := tag_toNat (show 0x80 + 55 + (minimal content.length).length < 256 by omega)
      simp only [List.cons_append,List.append_assoc,first,tag]
      rw [if_neg (by omega),if_neg (by omega),if_pos (by omega)]
      have k : 0x80 + 55 + (minimal content.length).length - 0xb7 = (minimal content.length).length := by omega
      simp [k,longLength_minimal (Nat.lt_of_not_le long),cut_append]

/-- A list is read back, whatever follows it. -/
theorem first_list (h : payload.length < 2 ^ 64) (rest : Bytes) :
    first (list payload ++ rest) = some (.list payload, rest) := by
  unfold list header
  split
  · rename_i short
    have tag := tag_toNat (show 0xc0 + payload.length < 256 by omega)
    simp only [List.cons_append,List.nil_append,first,tag]
    rw [if_neg (by omega),if_neg (by omega),if_neg (by omega),if_pos (by omega),Nat.add_sub_cancel_left]
    simp [cut_append]
  · rename_i long
    have eight := minimal_length_eight h
    have pos := minimal_length_pos (Nat.lt_trans (by decide) (Nat.lt_of_not_le long))
    have tag := tag_toNat (show 0xc0 + 55 + (minimal payload.length).length < 256 by omega)
    simp only [List.cons_append,List.append_assoc,first,tag]
    rw [if_neg (by omega),if_neg (by omega),if_neg (by omega),if_neg (by omega)]
    have k : 0xc0 + 55 + (minimal payload.length).length - 0xf7 = (minimal payload.length).length := by omega
    simp [k,longLength_minimal (Nat.lt_of_not_le long),cut_append]

private theorem tag_eq {b : UInt8} {t : Nat} (h : b.toNat = t) : UInt8.ofNat t = b := by
  rw [← h,UInt8.ofNat_toNat]

/-- What is read as an item is what is written for it. -/
theorem first_some (h : first bs = some (item, rest)) : bs = item.encode ++ rest := by
  unfold first at h
  split at h
  · cases h
  rename_i b tail
  have size := b.toNat_lt
  split at h
  · rename_i small
    cases h
    simp [Item.encode,string,isSingle_iff.mpr ⟨b,rfl,small⟩]
  split at h
  · obtain ⟨content,long,several,rfl,rfl⟩ := shortString_some h
    have tag : UInt8.ofNat (0x80 + content.length) = b := tag_eq (by omega)
    have short : content.length ≤ 55 := by omega
    simp [Item.encode,string,several,header,short,tag]
  split at h
  · obtain ⟨⟨n,middle⟩,hn,h⟩ := Option.bind_eq_some_iff.mp h
    obtain ⟨⟨content,after⟩,hc,he⟩ := Option.bind_eq_some_iff.mp h
    cases he
    obtain ⟨large,long,rfl⟩ := longLength_some hn
    obtain ⟨rfl,rfl⟩ := cut_some hc
    have tag : UInt8.ofNat (0x80 + 55 + (minimal content.length).length) = b := tag_eq (by omega)
    have several : isSingle content = false := by
      rw [Bool.eq_false_iff]
      intro single
      obtain ⟨_,rfl,_⟩ := isSingle_iff.mp single
      simp at large
    simp [Item.encode,string,several,header,Nat.not_le.mpr large,tag]
  split at h
  · obtain ⟨⟨payload,after⟩,hc,he⟩ := Option.map_eq_some_iff.mp h
    cases he
    obtain ⟨long,rfl⟩ := cut_some hc
    have tag : UInt8.ofNat (0xc0 + payload.length) = b := tag_eq (by omega)
    have short : payload.length ≤ 55 := by omega
    simp [Item.encode,list,header,short,tag]
  · obtain ⟨⟨n,middle⟩,hn,h⟩ := Option.bind_eq_some_iff.mp h
    obtain ⟨⟨payload,after⟩,hc,he⟩ := Option.bind_eq_some_iff.mp h
    cases he
    obtain ⟨large,long,rfl⟩ := longLength_some hn
    obtain ⟨rfl,rfl⟩ := cut_some hc
    have tag : UInt8.ofNat (0xc0 + 55 + (minimal payload.length).length) = b := tag_eq (by omega)
    simp [Item.encode,list,header,Nat.not_le.mpr large,tag]

end Reading

section Lists
variable {bs rest content payload : Bytes} {item : Item} {is : List Item}

theorem encode_ne_nil (item : Item) : item.encode ≠ [] := by
  have head (tag n : Nat) (rest : Bytes) : header tag n ++ rest ≠ [] := by
    unfold header
    split <;> simp
  cases item with
  | string content =>
    change string content ≠ []
    unfold string
    split
    · rename_i single
      obtain ⟨b,rfl,_⟩ := isSingle_iff.mp single
      exact List.cons_ne_nil b []
    · exact head _ _ _
  | list payload => exact head _ _ _

/-- What is read as items is what is written for them, one after the other. -/
theorem items_some {fuel : Nat} (h : items fuel bs = some is) : bs = is.flatMap Item.encode := by
  induction fuel generalizing bs is with
  | zero =>
    cases bs with
    | nil =>
      cases h
      rfl
    | cons b bs => cases h
  | succ fuel ih =>
    cases bs with
    | nil =>
      cases h
      rfl
    | cons b bs =>
      obtain ⟨⟨item,rest⟩,hf,h⟩ := Option.bind_eq_some_iff.mp h
      obtain ⟨is,hi,rfl⟩ := Option.map_eq_some_iff.mp h
      rw [first_some hf,ih hi,List.flatMap_cons]

/-- A list that is all there is was written for its items. -/
theorem decodeList_some (h : decodeList bs = some is) : bs = list (is.flatMap Item.encode) := by
  unfold decodeList at h
  split at h
  · rename_i payload hf
    rw [first_some hf,List.append_nil,← items_some h]
    rfl
  · cases h

/-- The tag of a list tells it from a string. -/
theorem first_tag (h : first bs = some (.list payload, rest)) : ∃ c after, bs = c :: after ∧ 0xc0 ≤ c.toNat := by
  unfold first at h
  split at h
  · cases h
  rename_i b tail
  split at h
  · cases h
  split at h
  · obtain ⟨_,_,_,he,_⟩ := shortString_some h
    cases he
  split at h
  · obtain ⟨_,_,h⟩ := Option.bind_eq_some_iff.mp h
    obtain ⟨_,_,he⟩ := Option.bind_eq_some_iff.mp h
    cases he
  · rename_i high
    exact ⟨b,tail,rfl,Nat.le_of_not_lt high⟩

theorem decodeList_tag (h : decodeList bs = some is) : ∃ c after, bs = c :: after ∧ 0xc0 ≤ c.toNat := by
  unfold decodeList at h
  split at h
  · rename_i payload hf
    exact first_tag hf
  · cases h

theorem items_cons {fuel : Nat} (hf : first (item.encode ++ rest) = some (item, rest)) :
    items (fuel + 1) (item.encode ++ rest) = (items fuel rest).map (item :: ·) := by
  cases he : item.encode ++ rest with
  | nil => exact absurd (List.append_eq_nil_iff.mp he).1 (encode_ne_nil item)
  | cons b bs =>
    rw [he] at hf
    simp [items,hf]

theorem first_item (h : item.encode.length < 2 ^ 64) (rest : Bytes) :
    first (item.encode ++ rest) = some (item, rest) := by
  have inside (tag : Nat) (bs : Bytes) (h : (header tag bs.length ++ bs).length < 2 ^ 64) : bs.length < 2 ^ 64 := by
    rw [List.length_append] at h
    omega
  cases item with
  | string content =>
    refine first_string ?_ rest
    change (string content).length < 2 ^ 64 at h
    unfold string at h
    split at h
    · exact h
    · exact inside _ _ h
  | list payload => exact first_list (inside _ _ h) rest

theorem items_flatMap {fuel : Nat} (h : ∀ item ∈ is, item.encode.length < 2 ^ 64) (enough : is.length ≤ fuel) :
    items fuel (is.flatMap Item.encode) = some is := by
  induction is generalizing fuel with
  | nil => cases fuel <;> rfl
  | cons item is ih =>
    cases fuel with
    | zero => cases enough
    | succ fuel =>
      rw [List.flatMap_cons,items_cons (first_item (h item List.mem_cons_self) _),
        ih (fun item hi => h item (List.mem_cons_of_mem _ hi)) (Nat.le_of_succ_le_succ enough)]
      rfl

theorem length_le_flatMap (is : List Item) : is.length ≤ (is.flatMap Item.encode).length := by
  induction is with
  | nil => exact Nat.le_refl _
  | cons item is ih =>
    have pos := List.length_pos_iff.mpr (encode_ne_nil item)
    rw [List.flatMap_cons,List.length_append,List.length_cons]
    omega

/-- A list that was written is read as its items. -/
theorem decodeList_list (h : (is.flatMap Item.encode).length < 2 ^ 64) :
    decodeList (list (is.flatMap Item.encode)) = some is := by
  have whole := first_list h []
  rw [List.append_nil] at whole
  unfold decodeList
  rw [whole]
  refine items_flatMap (fun item hi => ?_) (length_le_flatMap is)
  obtain ⟨before,after,rfl⟩ := List.append_of_mem hi
  rw [List.flatMap_append,List.flatMap_cons,List.length_append,List.length_append] at h
  omega

theorem header_length {tag n : Nat} (h : n < 2 ^ 64) : (header tag n).length ≤ 9 := by
  have eight := minimal_length_eight h
  unfold header
  split
  · simp
  · rw [List.length_cons]
    omega

theorem string_length (h : content.length < 2 ^ 64) : (string content).length ≤ content.length + 9 := by
  have nine : (header 0x80 content.length).length ≤ 9 := header_length h
  unfold string
  split
  · omega
  · rw [List.length_append]
    omega

theorem u64_minimal (n : UInt64) : (Item.string (minimal n.toNat)).u64 = some n := by
  have short : (minimal n.toNat).length ≤ 8 := minimal_length_eight n.toNat_lt
  simp [Item.u64,short,minimal_head,value_minimal]

theorem u64_some {n : UInt64} (h : item.u64 = some n) : item = .string (minimal n.toNat) := by
  unfold Item.u64 at h
  split at h
  · rename_i content
    obtain ⟨⟨short,lead⟩,he⟩ := Option.ite_none_right_eq_some.mp h
    have small : value content < 2 ^ 64 := by
      have few := minimal_length.mp ((congrArg List.length (minimal_value lead)).trans_le short)
      exact few.trans_eq (by norm_num)
    cases he
    rw [UInt64.toNat_ofNat',Nat.mod_eq_of_lt small,minimal_value lead]
  · cases h

end Lists

end PreconfGateway.Encoding.Rlp
