import PreconfGateway.Encoding.Hex

/-! Values of JSON texts, and records read from them as derived readers do. -/
namespace PreconfGateway.Encoding

/-- Members keep their order and may repeat a name. -/
inductive Json
  | null
  | bool (b : Bool)
  | natural (n : Nat)
  /-- Any other number, as it is written. -/
  | number (literal : String)
  | string (s : String)
  | array (items : List Json)
  | object (members : List (String × Json))

namespace Json

def string? : Json → Option String
  | .string s => some s
  | _ => none

def u64? : Json → Option UInt64
  | .natural n => if n < 2 ^ 64 then some (.ofNat n) else none
  | _ => none

def array? : Json → Option (List Json)
  | .array items => some items
  | _ => none

/-- The one member with the name; a name that is missing or repeated is an error. -/
def member (members : List (String × Json)) (name : String) : Option Json :=
  match members.filter (fun m => m.1 = name) with
  | [m] => some m.2
  | _ => none

/-- The fields of a record: the members of an object, in which other names are passed over,
or the items of an array, one for each field. -/
def fields (names : List String) : Json → Option (List Json)
  | .object members => names.mapM (member members)
  | .array items => if items.length = names.length then some items else none
  | _ => none

theorem u64?_natural (n : UInt64) : (Json.natural n.toNat).u64? = some n := by
  have number : UInt64.ofNat n.toNat = n := UInt64.ofNat_toNat
  rw [u64?,if_pos n.toNat_lt,number]

/-- Records are read from objects and arrays only. -/
theorem fields_some {names : List String} {v : Json} {vs : List Json} (h : v.fields names = some vs) :
    (∃ members, v = .object members) ∨ ∃ items, v = .array items := by
  unfold fields at h
  split at h
  · exact .inl ⟨_,rfl⟩
  · exact .inr ⟨_,rfl⟩
  · cases h

end Json

/-- The four characters that may stand around a value. -/
def Json.whitespace : List UInt8 := [0x20, 0x09, 0x0a, 0x0d]

/-- After white space the text goes on with this character. -/
def Json.Opens (c : UInt8) (text : Bytes) : Prop :=
  ∃ space rest, (∀ b ∈ space, b ∈ whitespace) ∧ text = space ++ c :: rest

/-- A reader and a writer of texts. -/
structure JsonText where
  parse : Bytes → Option Json
  print : Json → Bytes

/-- What is read as an object starts with a brace, what is read as an array with a bracket. -/
structure JsonText.Reads (text : JsonText) : Prop where
  object : ∀ b members, text.parse b = some (.object members) → Json.Opens 0x7b b
  array : ∀ b items, text.parse b = some (.array items) → Json.Opens 0x5b b

/-- A text that opens with a character below the range starts below it. -/
theorem Json.Opens.head {c : UInt8} {text : Bytes} (h : Json.Opens c text) (small : c.toNat < 0x80) :
    ∃ b rest, text = b :: rest ∧ b.toNat < 0x80 := by
  obtain ⟨space,rest,white,rfl⟩ := h
  cases space with
  | nil => exact ⟨c,rest,rfl,small⟩
  | cons b space =>
    refine ⟨b,space ++ c :: rest,rfl,?_⟩
    have ascii : whitespace.all (fun b => b.toNat < 0x80) = true := by decide
    exact of_decide_eq_true (List.all_eq_true.mp ascii b (white b List.mem_cons_self))

def Json.utf8 (s : String) : Bytes := s.toUTF8.data.toList

def Json.quoted (s : String) : Bytes := 0x22 :: (utf8 s ++ [0x22])

mutual
/-- The text of a value without white space, where no string needs a backslash. -/
def Json.printed : Json → Bytes
  | .null => utf8 "null"
  | .bool b => utf8 (toString b)
  | .natural n => utf8 (toString n)
  | .number literal => utf8 literal
  | .string s => quoted s
  | .array items => 0x5b :: (printedItems items ++ [0x5d])
  | .object members => 0x7b :: (printedMembers members ++ [0x7d])

def Json.printedItems : List Json → Bytes
  | [] => []
  | [v] => printed v
  | v :: vs => printed v ++ 0x2c :: printedItems vs

def Json.printedMembers : List (String × Json) → Bytes
  | [] => []
  | [(name, v)] => quoted name ++ 0x3a :: printed v
  | (name, v) :: members => quoted name ++ 0x3a :: (printed v ++ 0x2c :: printedMembers members)
end

/-- A reader of the texts of these values and of no others. -/
def Json.readerOf (known : List Json) (body : Bytes) : Except String Json :=
  match known.find? (fun v => v.printed = body) with
  | some v => .ok v
  | none => .error "expected value at line 1 column 1"

theorem Json.readerOf_printed (v : Json) : readerOf [v] v.printed = .ok v := by simp [readerOf]

end PreconfGateway.Encoding
