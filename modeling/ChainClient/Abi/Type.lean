import ChainClient.Word

/-!
# Types of the contract interface

A type says how a value is laid out in call data. Static types have a fixed
size and stand in the head of their block; the head of a dynamic type is the
offset of its contents. Two types are the same when they are written the same
in canonical form.
-/

namespace ChainClient.Abi

/-- The type of a value. Widths and lengths are data: nothing here promises that
a width is one the chain knows. -/
inductive AbiType where
  | bool
  | uint (bits : Nat)
  /-- An integer of so many bits in two's complement. -/
  | int (bits : Nat)
  | address
  | fixedBytes (length : Nat)
  | bytes
  | string
  | fixedArray (element : AbiType) (length : Nat)
  | array (element : AbiType)
  | tuple (members : List AbiType)
  deriving Repr

namespace AbiType

/-! ## Equality -/

mutual

/-- Whether two types are equal. -/
def same : AbiType → AbiType → Bool
  | .bool, .bool => true
  | .uint first, .uint second => first == second
  | .int first, .int second => first == second
  | .address, .address => true
  | .fixedBytes first, .fixedBytes second => first == second
  | .bytes, .bytes => true
  | .string, .string => true
  | .fixedArray first m, .fixedArray second n => same first second && m == n
  | .array first, .array second => same first second
  | .tuple first, .tuple second => sameAll first second
  | _, _ => false

/-- Whether two lists of types are equal. -/
def sameAll : List AbiType → List AbiType → Bool
  | [], [] => true
  | first :: firsts, second :: seconds => same first second && sameAll firsts seconds
  | _, _ => false

end

mutual

/-- The comparison decides equality of types. -/
theorem same_iff : (first second : AbiType) → (same first second = true ↔ first = second)
  | .bool, second => by cases second <;> simp [same]
  | .uint _, second => by cases second <;> simp [same]
  | .int _, second => by cases second <;> simp [same]
  | .address, second => by cases second <;> simp [same]
  | .fixedBytes _, second => by cases second <;> simp [same]
  | .bytes, second => by cases second <;> simp [same]
  | .string, second => by cases second <;> simp [same]
  | .fixedArray element _, second => by cases second <;> simp [same, same_iff element]
  | .array element, second => by cases second <;> simp [same, same_iff element]
  | .tuple members, second => by cases second <;> simp [same, sameAll_iff members]

/-- The comparison decides equality of lists of types. -/
theorem sameAll_iff :
    (firsts seconds : List AbiType) → (sameAll firsts seconds = true ↔ firsts = seconds)
  | [], seconds => by cases seconds <;> simp [sameAll]
  | first :: firsts, seconds => by
    cases seconds <;> simp [sameAll, same_iff first, sameAll_iff firsts]

end

instance : DecidableEq AbiType := fun first second =>
  decidable_of_iff (same first second = true) (same_iff first second)

/-! ## Canonical form -/

mutual

/-- The canonical form of a type, as it enters selectors and topics. -/
def spelling : AbiType → List Char
  | .bool => "bool".toList
  | .uint bits => "uint".toList ++ Nat.toDigits 10 bits
  | .int bits => "int".toList ++ Nat.toDigits 10 bits
  | .address => "address".toList
  | .fixedBytes length => "bytes".toList ++ Nat.toDigits 10 length
  | .bytes => "bytes".toList
  | .string => "string".toList
  | .fixedArray element length =>
      spelling element ++ '[' :: Nat.toDigits 10 length ++ [']']
  | .array element => spelling element ++ ['[', ']']
  | .tuple members => '(' :: spellings members ++ [')']

/-- The canonical forms of several types, with commas between them. -/
def spellings : List AbiType → List Char
  | [] => []
  | [type] => spelling type
  | type :: types => spelling type ++ ',' :: spellings types

end

def canonical (type : AbiType) : String :=
  String.ofList type.spelling

instance : ToString AbiType := ⟨canonical⟩

/-! ## Layout -/

def isWidth (bits : Nat) : Bool :=
  bits % 8 == 0 && 8 ≤ bits && bits ≤ 256

mutual

/-- Whether the size of a value depends on the value. -/
def isDynamic : AbiType → Bool
  | .bytes | .string | .array _ => true
  | .fixedArray element _ => isDynamic element
  | .tuple members => anyDynamic members
  | _ => false

def anyDynamic : List AbiType → Bool
  | [] => false
  | type :: types => isDynamic type || anyDynamic types

end

/-- Sizes are counted in machine words: there are this many of them. -/
def sizeCount : Nat := Nat.pow 2 64

mutual

/-- The number of bytes a type occupies in the head of a block. The size of a
fixed array stops at the largest size there is. The sizes of a tuple's members are
added up, and there is none where a sum exceeds the largest size. -/
def headSize? : AbiType → Option Nat
  | .fixedArray element length =>
      if isDynamic element then some Word.size
      else (headSize? element).map fun size => min (size * length) (sizeCount - 1)
  | .tuple members => if anyDynamic members then some Word.size else headSizes? members
  | _ => some Word.size

/-- The number of bytes several types occupy together. -/
def headSizes? : List AbiType → Option Nat
  | [] => some 0
  | type :: types => do
      let size ← headSize? type
      let others ← headSizes? types
      if size + others < sizeCount then some (size + others) else none

end

/-- A type without its array dimensions. -/
def base : AbiType → AbiType
  | .fixedArray element _ => base element
  | .array element => base element
  | type => type

mutual

/-- How deeply tuples are nested below the array dimensions: zero without a
tuple, one for a tuple of plain members. -/
def nestingDepth : AbiType → Nat
  | .fixedArray element _ => nestingDepth element
  | .array element => nestingDepth element
  | .tuple members => 1 + deepest members
  | _ => 0

def deepest : List AbiType → Nat
  | [] => 0
  | type :: types => max (nestingDepth type) (deepest types)

end

end AbiType

end ChainClient.Abi
