import ChainClient.Abi.Value

/-!
# Encoding

Values are written as a block: first the heads of all values, then the tails of
the dynamic ones. The head of a dynamic value is the offset of its tail from the
start of the block. Arrays, tuples, and argument lists are all blocks.
-/

namespace ChainClient.Abi

namespace Value

def lengthWord (length : Nat) : Bytes :=
  Word.toBytes (BitVec.ofNat 256 length)

/-- A byte string filled up with zeros on the right to whole words. -/
def padRight (bytes : Bytes) : Bytes :=
  bytes ++ Bytes.zeros ((Word.size - bytes.length % Word.size) % Word.size)

def blob (bytes : Bytes) : Bytes :=
  lengthWord bytes.length ++ padRight bytes

mutual

/-- The number of bytes a value occupies in the head of a block. -/
def headLength : Value → Nat
  | .fixedArray element values =>
      if element.isDynamic then Word.size else headLengths values
  | .tuple members => if anyDynamic members then Word.size else headLengths members
  | _ => Word.size

/-- The number of bytes several values occupy in the head of a block. -/
def headLengths : List Value → Nat
  | [] => 0
  | value :: values => headLength value + headLengths values

end

mutual

/-- The bytes of one value. -/
def contents : Value → Bytes
  | .bool value => lengthWord value.toNat
  | .uint value _ => value.toBytes
  | .int value _ => value.toBytes
  | .address value => Bytes.zeros 12 ++ value.toBytes
  | .fixedBytes value => padRight value
  | .bytes value => blob value
  | .string value => blob (Bytes.ofText value)
  | .fixedArray _ values =>
      let (heads, tails) := place (headLengths values) values
      heads ++ tails
  | .array _ values =>
      let (heads, tails) := place (headLengths values) values
      lengthWord values.length ++ (heads ++ tails)
  | .tuple members =>
      let (heads, tails) := place (headLengths members) members
      heads ++ tails

/-- The heads and the tails of values whose next tail starts at the given offset. -/
def place (offset : Nat) : List Value → Bytes × Bytes
  | [] => ([], [])
  | value :: values =>
      let body := contents value
      if value.isDynamic then
        let (heads, tails) := place (offset + body.length) values
        (lengthWord offset ++ heads, body ++ tails)
      else
        let (heads, tails) := place offset values
        (body ++ heads, tails)

end

def block (values : List Value) : Bytes :=
  let (heads, tails) := place (headLengths values) values
  heads ++ tails

end Value

def encode (values : List Value) : Except EncodeError Bytes := do
  Value.checkMembers values
  .ok (Value.block values)

/-- Refuse values that are not of the given types, one for one. -/
def checkTypes (types : List AbiType) (values : List Value) : Except EncodeError Unit :=
  if types.length ≠ values.length then .error (.arityMismatch types.length values.length)
  else
    match (types.zip values).find? fun pair => pair.2.type ≠ pair.1 with
    | some (expected, value) => .error (.typeMismatch expected value.type)
    | none => .ok ()

end ChainClient.Abi
