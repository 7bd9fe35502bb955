import ChainClient.Abi.Value

/-!
# Decoding

Data is read as a block of values of given types. Offsets may point anywhere in
the data, so every word that a value is read from is paid for out of a budget
that starts at the number of words in the data: nothing is gained by letting
offsets overlap.
-/

namespace ChainClient.Abi

abbrev Decoding (α : Type) := StateT Nat (Except DecodeError) α

namespace Decoding

def refuse {α : Type} (defect : Defect) : Decoding α :=
  fun _ => .error (.malformed defect)

/-- The program stops. -/
def stop {α : Type} : Decoding α :=
  fun _ => .error .overflow

def charge (words : Nat) : Decoding Unit := fun budget =>
  if words ≤ budget then .ok ((), budget - words) else .error (.malformed .overlap)

/-- The 32 bytes at a position, without payment. -/
def peekWord (data : Bytes) (position : Nat) : Decoding Bytes :=
  let word := (data.drop position).take Word.size
  if word.length = Word.size then pure word
  else refuse (.wordBeyondEnd position data.length)

def peekSize (data : Bytes) (position : Nat) : Decoding Nat := do
  let value := Bytes.toNat (← peekWord data position)
  if value < AbiType.sizeCount then pure value else refuse (.tooLarge value position)

/-- The 32 bytes at a position. -/
def word (data : Bytes) (position : Nat) : Decoding Bytes := do
  let bytes ← peekWord data position
  charge 1
  pure bytes

/-- The length at a position. -/
def length (data : Bytes) (position : Nat) : Decoding Nat := do
  let value ← peekSize data position
  charge 1
  pure value

/-- The byte string whose length stands at a position. -/
def blob (data : Bytes) (position : Nat) : Decoding Bytes := do
  let count ← length data position
  let start := position + Word.size
  if start + count ≤ data.length then
    charge ((count + (Word.size - 1)) / Word.size)
    pure ((data.drop start).take count)
  else refuse (.truncated count start)

/-- How a component of a block is read: whether its head is an offset, the size
of its head, and its contents at a position. -/
structure Component where
  /-- Whether the head is the offset of the contents. -/
  isDynamic : Bool
  /-- The size of the head of a static component, if it has one. -/
  headSize? : Option Nat
  contents : Nat → Decoding Value

/-- The size of the head of a static component. Without one the program stops. -/
def Component.headSize (component : Component) : Decoding Nat :=
  match component.headSize? with
  | some size => pure size
  | none => stop

/-- The component of a block at `start` whose head stands at `cursor`. An offset
counts from the start of the block. -/
def Component.read (component : Component) (data : Bytes) (start cursor : Nat) :
    Decoding Value := do
  if component.isDynamic then
    let offset ← peekSize data cursor
    if start + offset ≤ data.length then component.contents (start + offset)
    else refuse (.offsetOutOfRange offset cursor)
  else component.contents cursor

/-- The position of the head behind one at `cursor`. -/
def Component.next (component : Component) (cursor : Nat) : Decoding Nat :=
  if component.isDynamic then pure (cursor + Word.size)
  else do
    let size ← component.headSize
    if cursor + size < AbiType.sizeCount then pure (cursor + size) else refuse .sizeOverflow

/-- So many components of one kind, the heads one behind the other. -/
def elements (component : Component) (data : Bytes) (start : Nat) :
    (count cursor : Nat) → Decoding (List Value)
  | 0, _ => pure []
  | count + 1, cursor => do
      let value ← component.read data start cursor
      let next ← component.next cursor
      let values ← elements component data start count next
      pure (value :: values)

/-- Refuse an array with more elements than words are left behind its length.
Elements without a head of their own are paid for here. -/
def checkCount (data : Bytes) (component : Component) (start count : Nat) : Decoding Unit :=
  if (data.length - start) / Word.size < count then refuse (.arrayTooLong count)
  else if component.isDynamic then pure ()
  else do
    let size ← component.headSize
    if size = 0 then charge count else pure ()

end Decoding

open Decoding

mutual

/-- The value of a type whose contents stand at a position. -/
def decodeValue (data : Bytes) : AbiType → Nat → Decoding Value
  | .bool, position => do
      match Bytes.toNat (← word data position) with
      | 0 => pure (.bool false)
      | 1 => pure (.bool true)
      | value => refuse (.invalidBool value)
  | .uint bits, position => do
      let value := Word.ofBytes (← word data position)
      if bitLength value.toNat ≤ bits then pure (.uint value bits) else refuse (.uintTooWide bits)
  | .int bits, position => do
      let value := Word.ofBytes (← word data position)
      if bits = 0 then stop
      else if Value.fitsSigned value bits then pure (.int value bits)
      else refuse (.intTooWide bits)
  | .address, position => do
      let bytes ← word data position
      if Bytes.areZero (bytes.take 12) then pure (.address (Address.ofLastBytes (bytes.drop 12)))
      else refuse .addressPadding
  | .fixedBytes count, position => do
      let bytes ← word data position
      if Word.size < count then refuse (.fixedBytesTooLong count)
      else if Bytes.areZero (bytes.drop count) then pure (.fixedBytes (bytes.take count))
      else refuse (.fixedBytesPadding count)
  | .bytes, position => do
      pure (.bytes (← blob data position))
  | .string, position => do
      match Bytes.toText? (← blob data position) with
      | some text => pure (.string text)
      | none => fun _ => .error .invalidUtf8
  | .fixedArray element count, position => do
      let component : Component :=
        ⟨element.isDynamic, element.headSize?, decodeValue data element⟩
      pure (.fixedArray element (← elements component data position count position))
  | .array element, position => do
      let count ← length data position
      let start := position + Word.size
      let component : Component :=
        ⟨element.isDynamic, element.headSize?, decodeValue data element⟩
      checkCount data component start count
      pure (.array element (← elements component data start count start))
  | .tuple members, position => do
      pure (.tuple (← decodeMembers data position members position))

/-- The values of a block at `start`, the heads one behind the other. -/
def decodeMembers (data : Bytes) (start : Nat) : List AbiType → Nat → Decoding (List Value)
  | [], _ => pure []
  | type :: types, cursor => do
      let component : Component := ⟨type.isDynamic, type.headSize?, decodeValue data type⟩
      let value ← component.read data start cursor
      let next ← component.next cursor
      let values ← decodeMembers data start types next
      pure (value :: values)

end

def decode (data : Bytes) (types : List AbiType) : Except DecodeError (List Value) :=
  (decodeMembers data 0 types 0).run' (data.length / Word.size)

/-- The values that hexadecimal data holds. Empty data holds no values, whatever
types are asked for. -/
def decodeHex (text : String) (types : List AbiType) : Except DecodeError (List Value) :=
  match Text.Hex.decode text with
  | .error error => .error (.hex error)
  | .ok [] => .ok []
  | .ok data => decode data types

end ChainClient.Abi
