import Mathlib.Algebra.Group.Nat.Defs
import Mathlib.Data.List.Basic

/-! Hexadecimal text of byte strings: lower case when written, either case when read. -/
namespace PreconfGateway.Encoding

abbrev Bytes := List UInt8

namespace Hex

inductive FromHexError
  | invalidHexCharacter (c : Char) (index : Nat)
  | oddLength
  | invalidStringLength
  deriving DecidableEq, Repr

/-- A character as it stands between quotes in a debug print. -/
def debugChar (c : Char) : String :=
  if c = '\t' then "\\t" else if c = '\r' then "\\r" else if c = '\n' then "\\n"
  else if c = '\'' then "\\'" else if c = '\\' then "\\\\" else if c = '\x00' then "\\0"
  else if c.toNat < 32 ∨ 127 ≤ c.toNat ∧ c.toNat < 160 ∨ c.toNat = 173 then
    "\\u\x7b" ++ String.ofList (Nat.toDigits 16 c.toNat) ++ "\x7d"
  else String.ofList [c]

def FromHexError.display : FromHexError → String
  | .invalidHexCharacter c index => "Invalid character '" ++ debugChar c ++ "' at position " ++ toString index
  | .oddLength => "Odd number of digits"
  | .invalidStringLength => "Invalid string length"

def digit (n : Nat) : Char := if n < 10 then Char.ofNat (48 + n) else Char.ofNat (87 + n)

def encode (bs : Bytes) : String :=
  String.ofList (bs.flatMap (fun b => [digit (b.toNat / 16), digit (b.toNat % 16)]))

def value (c : Char) : Option Nat :=
  if '0' ≤ c ∧ c ≤ '9' then some (c.toNat - 48)
  else if 'a' ≤ c ∧ c ≤ 'f' then some (c.toNat - 87)
  else if 'A' ≤ c ∧ c ≤ 'F' then some (c.toNat - 55)
  else none

/-- The reader works on bytes, so a wide character is reported by its first byte. -/
def firstByte (c : Char) : Char := Char.ofNat ((String.utf8EncodeChar c).headD 0).toNat

def nibble (c : Char) (index : Nat) : Except FromHexError Nat :=
  match value c with
  | some n => .ok n
  | none => .error (.invalidHexCharacter (firstByte c) index)

def decodeFrom (index : Nat) : List Char → Except FromHexError Bytes
  | [] => .ok []
  | [c] => do
    let _ ← nibble c index
    .error .oddLength
  | a :: b :: rest => do
    let high ← nibble a index
    let low ← nibble b (index + 1)
    let bytes ← decodeFrom (index + 2) rest
    .ok (UInt8.ofNat (16 * high + low) :: bytes)

def decode (s : String) : Except FromHexError Bytes :=
  if s.utf8ByteSize % 2 ≠ 0 then .error .oddLength else decodeFrom 0 s.toList

private theorem lower_toNat {c : Char} (h : 'A' ≤ c ∧ c ≤ 'Z') : c.toLower.toNat = c.toNat + 32 := by
  obtain ⟨hl,hu⟩ := h
  rw [Char.le_def,UInt32.le_iff_toNat_le] at hl hu
  have hc : c.toLower.val = c.val + 32 := by
    unfold Char.toLower
    rw [dif_pos ⟨hl,hu⟩]
    rfl
  have hu' : c.val.toNat ≤ 90 := hu
  have add : (c.val + 32).toNat = c.val.toNat + 32 := by
    have h32 : (32 : UInt32).toNat = 32 := rfl
    rw [UInt32.toNat_add]
    omega
  change c.toLower.val.toNat = c.val.toNat + 32
  rw [hc,add]

theorem value_eq (c : Char) : value c =
    if 48 ≤ c.toNat ∧ c.toNat ≤ 57 then some (c.toNat - 48)
    else if 97 ≤ c.toNat ∧ c.toNat ≤ 102 then some (c.toNat - 87)
    else if 65 ≤ c.toNat ∧ c.toNat ≤ 70 then some (c.toNat - 55) else none := by
  simp only [value,Char.le_def,UInt32.le_iff_toNat_le]
  rfl

@[simp] theorem value_toLower (c : Char) : value c.toLower = value c := by
  by_cases h : 'A' ≤ c ∧ c ≤ 'Z'
  · rw [value_eq,value_eq,lower_toNat h]
    obtain ⟨hl,hu⟩ := h
    rw [Char.le_def,UInt32.le_iff_toNat_le] at hl hu
    have h65 : 65 ≤ c.toNat := hl
    have h90 : c.toNat ≤ 90 := hu
    split_ifs <;> first | omega | (simp only [Option.some.injEq]; omega) | rfl
  · have same : c.toLower = c := dif_neg h
    rw [same]

theorem nibble_ok {c : Char} {i n : Nat} : nibble c i = .ok n ↔ value c = some n := by
  unfold nibble
  cases value c <;> simp

theorem decodeFrom_two {a b : Char} {rest : List Char} {i : Nat} {bytes : Bytes} :
    decodeFrom i (a :: b :: rest) = .ok bytes ↔ ∃ high low tail, value a = some high ∧ value b = some low ∧
      decodeFrom (i + 2) rest = .ok tail ∧ bytes = .ofNat (16 * high + low) :: tail := by
  constructor
  · intro h
    simp only [decodeFrom,bind,Except.bind] at h
    split at h
    · cases h
    · rename_i high hh
      split at h
      · cases h
      · rename_i low hl
        split at h
        · cases h
        · rename_i tail ht
          cases h
          exact ⟨high,low,tail,nibble_ok.mp hh,nibble_ok.mp hl,ht,rfl⟩
  · rintro ⟨high,low,tail,hh,hl,ht,rfl⟩
    simp only [decodeFrom,nibble_ok.mpr hh,nibble_ok.mpr hl,ht,bind,Except.bind]

theorem decodeFrom_one {c : Char} {i : Nat} {bytes : Bytes} : decodeFrom i [c] ≠ .ok bytes := by
  intro h
  cases hn : nibble c i <;> simp [decodeFrom,hn,bind,Except.bind] at h

theorem decode_ok {s : String} {bytes : Bytes} (h : decode s = .ok bytes) :
    decodeFrom 0 s.toList = .ok bytes := by
  unfold decode at h
  split at h
  · cases h
  · exact h

/-- A digit is read as what it was written for. -/
theorem value_digit {n : Nat} (h : n < 16) : value (digit n) = some n := by
  have all : ∀ m : Fin 16, value (digit m) = some m.val := by decide +kernel
  exact all ⟨n,h⟩

/-- A digit is a character of one byte, and in lower case the one that is written. -/
theorem value_some {c : Char} {n : Nat} (h : value c = some n) : n < 16 ∧ c.toLower = digit n ∧ c.utf8Size = 1 := by
  have all : ∀ k : Fin 128, ∀ m ∈ value (Char.ofNat k),
      m < 16 ∧ (Char.ofNat k).toLower = digit m ∧ (Char.ofNat k).utf8Size = 1 := by decide +kernel
  have small : c.toNat < 128 := by
    rw [value_eq] at h
    split_ifs at h <;> omega
  have here := all ⟨c.toNat,small⟩ n
  rw [Char.ofNat_toNat] at here
  exact here h

theorem decodeFrom_encode (index : Nat) (bs : Bytes) : decodeFrom index (encode bs).toList = .ok bs := by
  unfold encode
  rw [String.toList_ofList]
  induction bs generalizing index with
  | nil => rfl
  | cons b bs ih =>
    have high : nibble (digit (b.toNat / 16)) index = .ok (b.toNat / 16) := by
      have small : b.toNat / 16 < 16 := Nat.div_lt_of_lt_mul b.toNat_lt
      simp only [nibble,value_digit small]
    have low : nibble (digit (b.toNat % 16)) (index + 1) = .ok (b.toNat % 16) := by
      have small : b.toNat % 16 < 16 := Nat.mod_lt _ (by decide)
      simp only [nibble,value_digit small]
    have whole : 16 * (b.toNat / 16) + b.toNat % 16 = b.toNat := by omega
    simp only [List.flatMap_cons,List.cons_append,List.nil_append,decodeFrom,high,low,ih,bind,Except.bind,whole,
      UInt8.ofNat_toNat]

private theorem digit_size {n : Nat} (h : n < 16) : (digit n).utf8Size = 1 := by
  have all : ∀ m : Fin 16, (digit m).utf8Size = 1 := by decide +kernel
  exact all ⟨n,h⟩

/-- Two characters of one byte each stand for a byte. -/
theorem encode_size (bs : Bytes) : (encode bs).utf8ByteSize = 2 * bs.length := by
  unfold encode
  induction bs with
  | nil => rfl
  | cons b bs ih =>
    have high : b.toNat / 16 < 16 := by
      have := b.toNat_lt
      omega
    have low : b.toNat % 16 < 16 := Nat.mod_lt _ (by omega)
    rw [List.flatMap_cons,String.ofList_append,String.utf8ByteSize_append,ih]
    simp only [String.ofList_cons,String.ofList_nil]
    simp [digit_size high,digit_size low]
    omega

theorem decode_encode (bs : Bytes) : decode (encode bs) = .ok bs := by
  unfold decode
  rw [encode_size,if_neg (by omega),decodeFrom_encode]

theorem encode_inj {bs bs' : Bytes} (h : encode bs = encode bs') : bs = bs' := by
  have read := decodeFrom_encode 0 bs
  rw [h,decodeFrom_encode] at read
  exact (Except.ok.inj read).symm

/-- Text that can be read is, in lower case, what is written. -/
theorem decodeFrom_lower {cs : List Char} {i : Nat} {bytes : Bytes} (h : decodeFrom i cs = .ok bytes) :
    cs.map Char.toLower = (encode bytes).toList := by
  unfold encode
  rw [String.toList_ofList]
  fun_induction decodeFrom i cs generalizing bytes with
  | case1 i =>
    cases h
    rfl
  | case2 i c => exact absurd h decodeFrom_one
  | case3 i a b rest ih =>
    obtain ⟨high,low,tail,hh,hl,ht,rfl⟩ := decodeFrom_two.mp h
    obtain ⟨small,lower,_⟩ := value_some hh
    obtain ⟨small',lower',_⟩ := value_some hl
    have byte : (UInt8.ofNat (16 * high + low)).toNat = 16 * high + low := by
      rw [UInt8.toNat_ofNat',Nat.mod_eq_of_lt (by omega)]
    have up : (16 * high + low) / 16 = high := by omega
    have down : (16 * high + low) % 16 = low := by omega
    simp only [List.map_cons,List.flatMap_cons,List.cons_append,List.nil_append,byte,up,down,lower,lower',ih ht]

/-- Every even number of digits can be read. -/
theorem decodeFrom_digits {cs : List Char} (i : Nat) {n : Nat} (digits : ∀ c ∈ cs, (value c).isSome = true)
    (even : cs.length = 2 * n) : ∃ bytes, bytes.length = n ∧ decodeFrom i cs = .ok bytes := by
  fun_induction decodeFrom i cs generalizing n with
  | case1 i => exact ⟨[],by rw [List.length_nil] at *; omega,rfl⟩
  | case2 i c =>
    rw [List.length_singleton] at even
    omega
  | case3 i a b rest ih =>
    obtain ⟨high,hh⟩ := Option.isSome_iff_exists.mp (digits a (by simp))
    obtain ⟨low,hl⟩ := Option.isSome_iff_exists.mp (digits b (by simp))
    rw [List.length_cons,List.length_cons] at even
    have fewer : rest.length = 2 * (n - 1) := by omega
    obtain ⟨tail,long,ht⟩ := ih (fun c hc => digits c (by simp [hc])) fewer
    refine ⟨_,?_,decodeFrom_two.mpr ⟨high,low,tail,hh,hl,ht,rfl⟩⟩
    rw [List.length_cons,long]
    omega

theorem size_digits {cs : List Char} (digits : ∀ c ∈ cs, (value c).isSome = true) :
    (String.ofList cs).utf8ByteSize = cs.length := by
  induction cs with
  | nil => rfl
  | cons c cs ih =>
    obtain ⟨n,hn⟩ := Option.isSome_iff_exists.mp (digits c List.mem_cons_self)
    rw [String.ofList_cons,String.utf8ByteSize_append,ih fun d hd => digits d (List.mem_cons_of_mem _ hd)]
    simp [(value_some hn).2.2,Nat.add_comm]

theorem digits_of_lower {cs : List Char} {bytes : Bytes} (h : cs.map Char.toLower = (encode bytes).toList) :
    cs.length = 2 * bytes.length ∧ ∀ c ∈ cs, (value c).isSome = true := by
  rw [encode,String.toList_ofList] at h
  constructor
  · have long := congrArg List.length h
    simpa [List.length_flatMap,Nat.mul_comm] using long
  · intro c hc
    have lower : c.toLower ∈ cs.map Char.toLower := List.mem_map_of_mem hc
    rw [h,List.mem_flatMap] at lower
    obtain ⟨b,_,hb⟩ := lower
    have high : b.toNat / 16 < 16 := Nat.div_lt_of_lt_mul b.toNat_lt
    have low : b.toNat % 16 < 16 := Nat.mod_lt _ (by decide)
    rw [← value_toLower]
    rcases List.mem_pair.mp hb with he | he
    · rw [he,value_digit high]
      rfl
    · rw [he,value_digit low]
      rfl

/-- What can be read are texts of digits, an even number of them. -/
theorem decode_ok_iff {s : String} {n : Nat} : (∃ bytes, bytes.length = n ∧ decode s = .ok bytes) ↔
    s.toList.length = 2 * n ∧ ∀ c ∈ s.toList, (value c).isSome = true := by
  constructor
  · rintro ⟨bytes,rfl,h⟩
    exact digits_of_lower (decodeFrom_lower (decode_ok h))
  · rintro ⟨even,digits⟩
    obtain ⟨bytes,long,h⟩ := decodeFrom_digits 0 digits even
    have size := size_digits digits
    rw [String.ofList_toList,even] at size
    refine ⟨bytes,long,?_⟩
    rw [decode,size,if_neg (by omega),h]

/-- A text is read as some bytes exactly if, in lower case, it is what is written for them. -/
theorem decode_lower_iff {s : String} {bytes : Bytes} :
    decode s = .ok bytes ↔ s.toList.map Char.toLower = (encode bytes).toList := by
  constructor
  · intro h
    exact decodeFrom_lower (decode_ok h)
  · intro lower
    obtain ⟨bytes',_,h⟩ := decode_ok_iff.mpr (digits_of_lower lower)
    have same : encode bytes = encode bytes' :=
      String.toList_inj.mp (lower.symm.trans (decodeFrom_lower (decode_ok h)))
    rw [h,encode_inj same]

end Hex
end PreconfGateway.Encoding
