import PreconfGateway.Encoding.Hex

/-! Standard head and tail encoding of a list of arguments. A dynamic argument leaves
its offset in the head and its contents in the tail. -/
namespace PreconfGateway.Encoding.Abi

inductive Token
  | uint (n : Nat)
  | address (b : Bytes)
  | fixedBytes (b : Bytes)
  | bytes (b : Bytes)
  | array (ts : List Token)
  | tuple (ts : List Token)

/-- Numbers are written big endian. -/
def bigEndian : Nat → Nat → Bytes
  | 0, _ => []
  | k + 1, n => bigEndian k (n / 256) ++ [UInt8.ofNat n]

def word (n : Nat) : Bytes := bigEndian 32 n

/-- Zero bytes up to the next multiple of a word. -/
def padding (length : Nat) : Bytes := List.replicate ((32 - length % 32) % 32) 0

mutual
def Token.dynamic : Token → Bool
  | .bytes _ | .array _ => true
  | .tuple ts => anyDynamic ts
  | _ => false

def anyDynamic : List Token → Bool
  | [] => false
  | t :: ts => t.dynamic || anyDynamic ts
end

mutual
/-- Room an argument takes in the head. -/
def Token.headLength : Token → Nat
  | .fixedBytes b => b.length + (padding b.length).length
  | .tuple ts => if anyDynamic ts then 32 else headsLength ts
  | _ => 32

def headsLength : List Token → Nat
  | [] => 0
  | t :: ts => t.headLength + headsLength ts
end

mutual
/-- The contents of one argument. -/
def Token.contents : Token → Bytes
  | .uint n => word n
  | .address b => List.replicate (32 - b.length) 0 ++ b
  | .fixedBytes b => b ++ padding b.length
  | .bytes b => word b.length ++ b ++ padding b.length
  | .array ts => word ts.length ++ (parts (headsLength ts) ts).1 ++ (parts (headsLength ts) ts).2
  | .tuple ts => (parts (headsLength ts) ts).1 ++ (parts (headsLength ts) ts).2

/-- Head and tail of arguments whose next free place in the tail is at the offset. -/
def parts (offset : Nat) : List Token → Bytes × Bytes
  | [] => ([], [])
  | t :: ts =>
    if t.dynamic then
      let rest := parts (offset + t.contents.length) ts
      (word offset ++ rest.1, t.contents ++ rest.2)
    else
      let rest := parts offset ts
      (t.contents ++ rest.1, rest.2)
end

def encode (ts : List Token) : Bytes :=
  (parts (headsLength ts) ts).1 ++ (parts (headsLength ts) ts).2

end PreconfGateway.Encoding.Abi
