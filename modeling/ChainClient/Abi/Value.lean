import ChainClient.Abi.Error
import ChainClient.Address

/-!
# Values of the contract interface

A value carries enough to know its type: numbers carry their width, and arrays
the type of their elements, so that an empty array has a type too. Nothing keeps
a value from being out of range or an array from mixing types; the check at the
end of this module does.
-/

namespace ChainClient.Abi

/-- An argument or a result of a contract function. -/
inductive Value where
  | bool (value : Bool)
  | uint (value : Word) (bits : Nat)
  /-- An integer in two's complement and its width. -/
  | int (value : Word) (bits : Nat)
  | address (value : Address)
  /-- A byte string whose length is part of its type. -/
  | fixedBytes (value : Bytes)
  | bytes (value : Bytes)
  | string (value : String)
  /-- An array whose length is part of its type. -/
  | fixedArray (element : AbiType) (values : List Value)
  | array (element : AbiType) (values : List Value)
  | tuple (members : List Value)
  deriving Repr

namespace Value

/-! ## Equality -/

mutual

/-- Whether two values are equal. -/
def same : Value → Value → Bool
  | .bool first, .bool second => first == second
  | .uint first m, .uint second n => first == second && m == n
  | .int first m, .int second n => first == second && m == n
  | .address first, .address second => first == second
  | .fixedBytes first, .fixedBytes second => first == second
  | .bytes first, .bytes second => first == second
  | .string first, .string second => first == second
  | .fixedArray first firsts, .fixedArray second seconds =>
      first == second && sameAll firsts seconds
  | .array first firsts, .array second seconds => first == second && sameAll firsts seconds
  | .tuple firsts, .tuple seconds => sameAll firsts seconds
  | _, _ => false

/-- Whether two lists of values are equal. -/
def sameAll : List Value → List Value → Bool
  | [], [] => true
  | first :: firsts, second :: seconds => same first second && sameAll firsts seconds
  | _, _ => false

end

mutual

/-- The comparison decides equality of values. -/
theorem same_iff : (first second : Value) → (same first second = true ↔ first = second)
  | .bool _, second => by cases second <;> simp [same]
  | .uint _ _, second => by cases second <;> simp [same]
  | .int _ _, second => by cases second <;> simp [same]
  | .address _, second => by cases second <;> simp [same]
  | .fixedBytes _, second => by cases second <;> simp [same]
  | .bytes _, second => by cases second <;> simp [same]
  | .string _, second => by cases second <;> simp [same]
  | .fixedArray _ values, second => by cases second <;> simp [same, sameAll_iff values]
  | .array _ values, second => by cases second <;> simp [same, sameAll_iff values]
  | .tuple members, second => by cases second <;> simp [same, sameAll_iff members]

/-- The comparison decides equality of lists of values. -/
theorem sameAll_iff :
    (firsts seconds : List Value) → (sameAll firsts seconds = true ↔ firsts = seconds)
  | [], seconds => by cases seconds <;> simp [sameAll]
  | first :: firsts, seconds => by
    cases seconds <;> simp [sameAll, same_iff first, sameAll_iff firsts]

end

instance : DecidableEq Value := fun first second =>
  decidable_of_iff (same first second = true) (same_iff first second)

/-! ## The type of a value -/

mutual

/-- The type of a value. -/
def type : Value → AbiType
  | .bool _ => .bool
  | .uint _ bits => .uint bits
  | .int _ bits => .int bits
  | .address _ => .address
  | .fixedBytes value => .fixedBytes value.length
  | .bytes _ => .bytes
  | .string _ => .string
  | .fixedArray element values => .fixedArray element values.length
  | .array element _ => .array element
  | .tuple members => .tuple (types members)

def types : List Value → List AbiType
  | [] => []
  | value :: values => type value :: types values

end

/-- The types of several values are the types of each of them. -/
theorem types_eq_map (values : List Value) : types values = values.map type := by
  induction values with
  | nil => rfl
  | cons value values ih => simp [types, ih]

mutual

/-- Whether a value stands outside the head of its block. -/
def isDynamic : Value → Bool
  | .bytes _ | .string _ | .array _ _ => true
  | .fixedArray element _ => element.isDynamic
  | .tuple members => anyDynamic members
  | _ => false

def anyDynamic : List Value → Bool
  | [] => false
  | value :: values => isDynamic value || anyDynamic values

end

/-! ## Views -/

def asBool? : Value → Option Bool
  | .bool value => some value
  | _ => none

def asUint? : Value → Option Word
  | .uint value _ => some value
  | _ => none

def asInt? : Value → Option Int
  | .int value _ => some value.toInt
  | _ => none

def asAddress? : Value → Option Address
  | .address value => some value
  | _ => none

/-- The byte string, if it is one of fixed or of any length. -/
def asBytes? : Value → Option Bytes
  | .fixedBytes value => some value
  | .bytes value => some value
  | _ => none

def asString? : Value → Option String
  | .string value => some value
  | _ => none

/-- The elements of an array or the members of a tuple. -/
def asList? : Value → Option (List Value)
  | .fixedArray _ values => some values
  | .array _ values => some values
  | .tuple members => some members
  | _ => none

/-! ## The check -/

/-- Whether an integer in two's complement fits a width of at least one bit: all bits
above the width's sign bit repeat it. No bit lies above the sign bit of a width over 256. -/
def fitsSigned (word : Word) (bits : Nat) : Bool :=
  let shift := min (bits - 1) 256
  let high := word >>> shift
  high == 0 || high == BitVec.allOnes 256 >>> shift

mutual

/-- Refuse a value that is out of range or whose elements are not of its element
type. The first fault counts, an element's type before its range. -/
def check : Value → Except EncodeError Unit
  | .uint value bits =>
      if AbiType.isWidth bits && bitLength value.toNat ≤ bits then .ok ()
      else .error (.valueOutOfRange (.uint bits))
  | .int value bits =>
      if AbiType.isWidth bits && fitsSigned value bits then .ok ()
      else .error (.valueOutOfRange (.int bits))
  | .fixedBytes value =>
      if 1 ≤ value.length ∧ value.length ≤ 32 then .ok ()
      else .error (.valueOutOfRange (.fixedBytes value.length))
  | .fixedArray element values =>
      if values.isEmpty then .error (.valueOutOfRange (.fixedArray element 0))
      else checkElements element values
  | .array element values => checkElements element values
  | .tuple members => checkMembers members
  | _ => .ok ()

/-- Refuse elements that are not of the element type or not valid. -/
def checkElements (element : AbiType) : List Value → Except EncodeError Unit
  | [] => .ok ()
  | value :: values => do
      if value.type ≠ element then .error (.typeMismatch element value.type)
      check value
      checkElements element values

/-- Refuse members that are not valid. -/
def checkMembers : List Value → Except EncodeError Unit
  | [] => .ok ()
  | value :: values => do
      check value
      checkMembers values

end

end Value

end ChainClient.Abi
