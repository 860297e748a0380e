import Mathlib.Data.Nat.ModEq
import Mathlib.Tactic.Common
import Mathlib.Tactic.NormNum
import PreconfGateway.Encoding.Abi

/-! Arguments of the same types have the same encoding only if they are the same. Each
argument is cut off the front of the remaining bytes, since its type and its own length
words say where it ends. -/
namespace PreconfGateway.Encoding.Abi

@[simp] theorem bigEndian_length (k n : Nat) : (bigEndian k n).length = k := by
  induction k generalizing n with
  | zero => rfl
  | succ k ih => simp [bigEndian,ih]

theorem bigEndian_inj {k n m : Nat} (h : bigEndian k n = bigEndian k m) : n ≡ m [MOD 256 ^ k] := by
  induction k generalizing n m with
  | zero =>
    rw [pow_zero]
    exact Nat.modEq_one
  | succ k ih =>
    obtain ⟨high,low⟩ := List.append_inj h (by rw [bigEndian_length,bigEndian_length])
    have digit : n % 256 = m % 256 := by
      have hl := congrArg UInt8.toNat (List.singleton_inj.mp low)
      simpa only [UInt8.toNat_ofNat'] using hl
    have rest := ih high
    unfold Nat.ModEq at rest ⊢
    rw [pow_succ',Nat.mod_mul,Nat.mod_mul,digit,rest]

@[simp] theorem word_length (n : Nat) : (word n).length = 32 := bigEndian_length 32 n

theorem word_inj {n m : Nat} (h : word n = word m) (hn : n < 2 ^ 256) (hm : m < 2 ^ 256) : n = m := by
  have same := bigEndian_inj h
  have size : 256 ^ 32 = 2 ^ 256 := by norm_num
  rw [size] at same
  exact Nat.ModEq.eq_of_lt_of_lt same hn hm

mutual
/-- Two arguments of one type, with lengths that a word can tell. -/
def Token.Alike : Token → Token → Prop
  | .uint n, .uint m => n < 2 ^ 256 ∧ m < 2 ^ 256
  | .address a, .address b => a.length = 20 ∧ b.length = 20
  | .fixedBytes a, .fixedBytes b => a.length = b.length
  | .bytes a, .bytes b => a.length < 2 ^ 256 ∧ b.length < 2 ^ 256
  | .array ts, .array us =>
    ts.length < 2 ^ 256 ∧ us.length < 2 ^ 256 ∧ (ts.length = us.length → AllAlike ts us)
  | .tuple ts, .tuple us => AllAlike ts us
  | _, _ => False

def AllAlike : List Token → List Token → Prop
  | [], [] => True
  | t :: ts, u :: us => t.Alike u ∧ AllAlike ts us
  | _, _ => False
end

mutual
theorem alike_layout : ∀ {t u : Token}, t.Alike u → t.dynamic = u.dynamic ∧ t.headLength = u.headLength
  | .uint _, .uint _, _ => ⟨rfl,rfl⟩
  | .address _, .address _, _ => ⟨rfl,rfl⟩
  | .fixedBytes a, .fixedBytes b, h => by
    have same : a.length = b.length := by simpa only [Token.Alike] using h
    simp only [Token.dynamic,Token.headLength,same,and_self]
  | .bytes _, .bytes _, _ => ⟨rfl,rfl⟩
  | .array _, .array _, _ => ⟨rfl,rfl⟩
  | .tuple ts, .tuple us, h => by
    have all : AllAlike ts us := by simpa only [Token.Alike] using h
    obtain ⟨dynamic,length⟩ := allAlike_layout all
    simp only [Token.dynamic,Token.headLength,dynamic,length,and_self]

theorem allAlike_layout : ∀ {ts us : List Token}, AllAlike ts us →
    anyDynamic ts = anyDynamic us ∧ headsLength ts = headsLength us
  | [], [], _ => ⟨rfl,rfl⟩
  | t :: ts, u :: us, h => by
    have both : t.Alike u ∧ AllAlike ts us := by simpa only [AllAlike] using h
    obtain ⟨dynamic,length⟩ := alike_layout both.1
    obtain ⟨dynamics,lengths⟩ := allAlike_layout both.2
    simp only [anyDynamic,headsLength,dynamic,length,dynamics,lengths,and_self]
end

mutual
theorem alike_symm : ∀ {t u : Token}, t.Alike u → u.Alike t
  | .uint _, .uint _, h => by
    rw [Token.Alike] at h ⊢
    exact h.symm
  | .address _, .address _, h => by
    rw [Token.Alike] at h ⊢
    exact h.symm
  | .fixedBytes _, .fixedBytes _, h => by
    rw [Token.Alike] at h ⊢
    exact h.symm
  | .bytes _, .bytes _, h => by
    rw [Token.Alike] at h ⊢
    exact h.symm
  | .array _, .array _, h => by
    rw [Token.Alike] at h ⊢
    exact ⟨h.2.1,h.1,fun count => allAlike_symm (h.2.2 count.symm)⟩
  | .tuple _, .tuple _, h => by
    rw [Token.Alike] at h ⊢
    exact allAlike_symm h

theorem allAlike_symm : ∀ {ts us : List Token}, AllAlike ts us → AllAlike us ts
  | [], [], _ => by
    rw [AllAlike]
    trivial
  | _ :: _, _ :: _, h => by
    rw [AllAlike] at h ⊢
    exact ⟨alike_symm h.1,allAlike_symm h.2⟩
end

mutual
/-- A static argument fills its place in the head. -/
theorem contents_length : ∀ {t u : Token}, t.Alike u → t.dynamic = false → t.contents.length = t.headLength
  | .uint n, .uint _, _, _ => by simp [Token.contents,Token.headLength]
  | .address a, .address b, h, _ => by
    have sized : a.length = 20 ∧ b.length = 20 := by simpa only [Token.Alike] using h
    simp [Token.contents,Token.headLength,sized.1]
  | .fixedBytes _, .fixedBytes _, _, _ => by simp [Token.contents,Token.headLength]
  | .tuple ts, .tuple us, h, static => by
    have all : AllAlike ts us := by simpa only [Token.Alike] using h
    have none : anyDynamic ts = false := by simpa only [Token.dynamic] using static
    have tail := static_tail (headsLength ts) none
    simp [Token.contents,Token.headLength,none,tail,heads_length (headsLength ts) all]

theorem heads_length : ∀ {ts us : List Token} (offset : Nat), AllAlike ts us →
    (parts offset ts).1.length = headsLength ts
  | [], [], _, _ => rfl
  | t :: ts, u :: us, offset, h => by
    have both : t.Alike u ∧ AllAlike ts us := by simpa only [AllAlike] using h
    cases hd : t.dynamic with
    | true =>
      have room : t.headLength = 32 := by
        cases t <;> simp_all [Token.dynamic,Token.headLength]
      simp [parts,headsLength,hd,room,heads_length _ both.2]
    | false => simp [parts,headsLength,hd,contents_length both.1 hd,heads_length _ both.2]

theorem static_tail : ∀ {ts : List Token} (offset : Nat), anyDynamic ts = false → (parts offset ts).2 = []
  | [], _, _ => rfl
  | t :: ts, offset, h => by
    simp only [anyDynamic,Bool.or_eq_false_iff] at h
    simp [parts,h.1,static_tail _ h.2]
end

/-- A word and then more: the number and the rest can be told. -/
private theorem word_cancel {n m : Nat} {r r' : Bytes} (hn : n < 2 ^ 256) (hm : m < 2 ^ 256)
    (h : word n ++ r = word m ++ r') : n = m ∧ r = r' := by
  obtain ⟨words,rest⟩ := List.append_inj h (by rw [word_length,word_length])
  exact ⟨word_inj words hn hm,rest⟩

/-- Bytes of a known length and then more. -/
private theorem padded_cancel {a b : Bytes} {r r' : Bytes} (length : a.length = b.length)
    (h : a ++ (padding a.length ++ r) = b ++ (padding b.length ++ r')) : a = b ∧ r = r' := by
  obtain ⟨same,rest⟩ := List.append_inj h length
  rw [length] at rest
  exact ⟨same,List.append_cancel_left rest⟩

/-- Arguments whose contents can be cut off one by one can be cut off together. -/
private theorem parts_cancel {ts us : List Token} {offset : Nat} {r r' : Bytes} (alike : AllAlike ts us)
    (each : ∀ t ∈ ts, ∀ (u : Token) (r r' : Bytes), t.Alike u → t.contents ++ r = u.contents ++ r' → t = u ∧ r = r')
    (heads : (parts offset ts).1 = (parts offset us).1)
    (tails : (parts offset ts).2 ++ r = (parts offset us).2 ++ r') : ts = us ∧ r = r' := by
  induction ts generalizing us offset with
  | nil =>
    cases us with
    | nil => exact ⟨rfl,tails⟩
    | cons u us => simp [AllAlike] at alike
  | cons t ts ih =>
    cases us with
    | nil => simp [AllAlike] at alike
    | cons u us =>
      rw [AllAlike] at alike
      have others := fun t ht => each t (List.mem_cons_of_mem _ ht)
      have first := each t List.mem_cons_self u
      have dynamic := (alike_layout alike.1).1
      cases hd : t.dynamic with
      | true =>
        simp only [parts,hd,dynamic.symm.trans hd,if_true,List.append_assoc] at heads tails
        obtain ⟨rfl,more⟩ := first _ _ alike.1 tails
        obtain ⟨rfl,rest⟩ := ih alike.2 others (List.append_cancel_left heads) more
        exact ⟨rfl,rest⟩
      | false =>
        simp only [parts,hd,dynamic.symm.trans hd,Bool.false_eq_true,if_false] at heads tails
        obtain ⟨rfl,more⟩ := first _ _ alike.1 heads
        obtain ⟨rfl,rest⟩ := ih alike.2 others more tails
        exact ⟨rfl,rest⟩

private theorem list_cancel {ts us : List Token} {r r' : Bytes} (alike : AllAlike ts us)
    (each : ∀ t ∈ ts, ∀ (u : Token) (r r' : Bytes), t.Alike u → t.contents ++ r = u.contents ++ r' → t = u ∧ r = r')
    (h : (parts (headsLength ts) ts).1 ++ ((parts (headsLength ts) ts).2 ++ r) =
      (parts (headsLength us) us).1 ++ ((parts (headsLength us) us).2 ++ r')) : ts = us ∧ r = r' := by
  rw [← (allAlike_layout alike).2] at h
  obtain ⟨heads,tails⟩ := List.append_inj h (by
    rw [heads_length _ alike,heads_length _ (allAlike_symm alike),(allAlike_layout alike).2])
  exact parts_cancel alike each heads tails

/-- The contents of an argument and then more: the argument and the rest can be told. -/
theorem contents_cancel (t u : Token) (alike : t.Alike u) :
    ∀ r r' : Bytes, t.contents ++ r = u.contents ++ r' → t = u ∧ r = r' := by
  match t, u, alike with
  | .uint n, .uint m, alike =>
    rw [Token.Alike] at alike
    intro r r' h
    simp only [Token.contents] at h
    obtain ⟨rfl,rest⟩ := word_cancel alike.1 alike.2 h
    exact ⟨rfl,rest⟩
  | .address a, .address b, alike =>
    rw [Token.Alike] at alike
    intro r r' h
    simp only [Token.contents,alike.1,alike.2,List.append_assoc] at h
    obtain ⟨same,rest⟩ := List.append_inj (List.append_cancel_left h) (alike.1.trans alike.2.symm)
    exact ⟨congrArg Token.address same,rest⟩
  | .fixedBytes a, .fixedBytes b, alike =>
    rw [Token.Alike] at alike
    intro r r' h
    simp only [Token.contents,List.append_assoc] at h
    obtain ⟨same,rest⟩ := padded_cancel alike h
    exact ⟨congrArg Token.fixedBytes same,rest⟩
  | .bytes a, .bytes b, alike =>
    rw [Token.Alike] at alike
    intro r r' h
    simp only [Token.contents,List.append_assoc] at h
    obtain ⟨length,h⟩ := word_cancel alike.1 alike.2 h
    obtain ⟨same,rest⟩ := padded_cancel length h
    exact ⟨congrArg Token.bytes same,rest⟩
  | .array ts, .array us, alike =>
    rw [Token.Alike] at alike
    intro r r' h
    simp only [Token.contents,List.append_assoc] at h
    obtain ⟨count,h⟩ := word_cancel alike.1 alike.2.1 h
    obtain ⟨same,rest⟩ := list_cancel (alike.2.2 count) (fun t _ u r r' alike => contents_cancel t u alike r r') h
    exact ⟨congrArg Token.array same,rest⟩
  | .tuple ts, .tuple us, alike =>
    rw [Token.Alike] at alike
    intro r r' h
    simp only [Token.contents,List.append_assoc] at h
    obtain ⟨same,rest⟩ := list_cancel alike (fun t _ u r r' alike => contents_cancel t u alike r r') h
    exact ⟨congrArg Token.tuple same,rest⟩
termination_by sizeOf t

/-- Lists of arguments of the same types are told apart by their encodings. -/
theorem encode_inj {ts us : List Token} (alike : AllAlike ts us) (h : encode ts = encode us) : ts = us := by
  have whole : ∀ t ∈ ts, ∀ (u : Token) (r r' : Bytes), t.Alike u → t.contents ++ r = u.contents ++ r' →
      t = u ∧ r = r' := fun t _ u r r' alike => contents_cancel t u alike r r'
  have framed : (parts (headsLength ts) ts).1 ++ ((parts (headsLength ts) ts).2 ++ []) =
      (parts (headsLength us) us).1 ++ ((parts (headsLength us) us).2 ++ []) := by
    rw [List.append_nil,List.append_nil]
    exact h
  exact (list_cancel alike whole framed).1

/-- Of a dynamic tuple on its own the head is the offset of what the fields are as arguments. -/
theorem encode_tuple {ts : List Token} (h : anyDynamic ts = true) : encode [.tuple ts] = word 32 ++ encode ts := by
  have dynamic : (Token.tuple ts).dynamic = true := by rw [Token.dynamic,h]
  have room : headsLength [.tuple ts] = 32 := by simp [headsLength,Token.headLength,h]
  simp [encode,room,parts,dynamic,Token.contents]

/-- So the two are never the same bytes. -/
theorem encode_tuple_ne {ts : List Token} (h : anyDynamic ts = true) : encode ts ≠ encode [.tuple ts] := by
  intro same
  have length := congrArg List.length (same.trans (encode_tuple h))
  rw [List.length_append,word_length] at length
  omega

end PreconfGateway.Encoding.Abi
