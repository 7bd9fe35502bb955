import ChainClient.Abi.Type
import ChainClient.Text.Hex

/-!
# Errors of the contract interface

Why values could not be encoded, and why data could not be decoded. A decoding
error names the position it was found at. One outcome of decoding is no error that
a caller sees: where the sizes of a tuple's members do not add up to a size, the
program stops.
-/

namespace ChainClient.Abi

/-- Why values could not be encoded. -/
inductive EncodeError where
  | unsupportedType (text : String)
  | typeMismatch (expected found : AbiType)
  /-- A number does not fit its width, or a byte string or array has a length that its type
  cannot have. -/
  | valueOutOfRange (type : AbiType)
  | arityMismatch (expected actual : Nat)
  deriving DecidableEq, Repr

/-- The message shown for an error. -/
def EncodeError.message : EncodeError → String
  | unsupportedType text => s!"unsupported ABI type {Text.quoted text}"
  | typeMismatch expected found => s!"type mismatch: expected {expected}, found {found}"
  | valueOutOfRange type => s!"value out of range for {type}"
  | arityMismatch expected actual => s!"expected {expected} values, got {actual}"

/-- What is wrong with data that holds no values of the given types. -/
inductive Defect where
  | wordBeyondEnd (position length : Nat)
  /-- A length or offset is larger than any size. -/
  | tooLarge (value position : Nat)
  /-- More words were read than the data holds, so some were read twice. -/
  | overlap
  | offsetOutOfRange (offset position : Nat)
  /-- The position after a static value is larger than any size. -/
  | sizeOverflow
  | truncated (length start : Nat)
  | invalidBool (value : Nat)
  | uintTooWide (bits : Nat)
  | intTooWide (bits : Nat)
  | addressPadding
  | fixedBytesTooLong (length : Nat)
  | fixedBytesPadding (length : Nat)
  | arrayTooLong (length : Nat)
  deriving DecidableEq, Repr

/-- The words for a defect. -/
def Defect.message : Defect → String
  | wordBeyondEnd position length => s!"word at {position} exceeds {length} bytes of data"
  | tooLarge value position => s!"length or offset {value} at {position} is too large"
  | overlap => "decoded size exceeds the payload, offsets overlap"
  | offsetOutOfRange offset position => s!"offset {offset} at {position} is out of range"
  | sizeOverflow => "static size overflow"
  | truncated length start => s!"payload of {length} bytes at {start} is truncated"
  | invalidBool value => s!"invalid bool word {value}"
  | uintTooWide bits => s!"value does not fit uint{bits}"
  | intTooWide bits => s!"value does not fit int{bits}"
  | addressPadding => "address word has non-zero high bytes"
  | fixedBytesTooLong length => s!"bytes{length} exceeds a word"
  | fixedBytesPadding length => s!"bytes{length} word has non-zero padding"
  | arrayTooLong length => s!"array length {length} exceeds remaining data"

/-- Why data could not be decoded. -/
inductive DecodeError where
  | malformed (defect : Defect)
  | invalidUtf8
  | hex (error : HexError)
  /-- A size, or a count of bits, leaves the range of sizes. This is not reported: the program
  stops. -/
  | overflow
  deriving DecidableEq, Repr

/-- The message shown for an error. -/
def DecodeError.message : DecodeError → String
  | malformed defect => "malformed ABI data: " ++ defect.message
  | invalidUtf8 => "string payload is not valid UTF-8"
  | hex error => error.message
  | overflow => "arithmetic overflow"

end ChainClient.Abi
