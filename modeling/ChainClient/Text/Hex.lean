import ChainClient.Text.Numeral
import ChainClient.Text.Quoted

/-!
# Hexadecimal text

Bytes and numbers travel as hexadecimal digits, with or without a `0x` in front.
Decoding accepts both cases and writes lower case; it recovers whatever encoding
wrote.
-/

namespace ChainClient

/-- Why a text is not the hexadecimal form of bytes or of a number. -/
inductive HexError where
  | oddLength
  | invalidCharacter (byte : UInt8) (position : Nat)
  | invalidNumber (text : String)
  | tooWide (needed available : Nat)
  deriving DecidableEq, Repr

namespace HexError

/-- The message shown for an error. -/
def message : HexError → String
  | oddLength => "invalid hex string: Odd number of digits"
  | invalidCharacter byte position =>
      s!"invalid hex string: Invalid character {Text.singleQuoted (Char.ofNat byte.toNat)} " ++
        s!"at position {position}"
  | invalidNumber text => s!"invalid hex number {Text.quoted text}"
  | tooWide needed available => s!"value needs {needed} bytes, only {available} available"

end HexError

namespace Text.Hex

/-- Whether a text starts with the hexadecimal mark in either case. -/
def hasMark : List Char → Bool
  | '0' :: 'x' :: _ => true
  | '0' :: 'X' :: _ => true
  | _ => false

/-- A text without its hexadecimal mark. -/
def dropMark : List Char → List Char
  | '0' :: 'x' :: rest => rest
  | '0' :: 'X' :: rest => rest
  | text => text

def hasPrefix (text : String) : Bool :=
  hasMark text.toList

/-- A text without its hexadecimal mark; at most one is taken. -/
def stripPrefix (text : String) : String :=
  String.ofList (dropMark text.toList)

/-- A text with a hexadecimal mark; none is added to one that has it. -/
def prependPrefix (text : String) : String :=
  if hasPrefix text then text else "0x" ++ text

def digitChar (value : Nat) : Char :=
  if value < 10 then Char.ofNat ('0'.toNat + value) else Char.ofNat ('a'.toNat + (value - 10))

def digit? (char : Char) : Option Nat :=
  digitInRadix? 16 char

/-- The two digits of each byte. -/
def digitsOf : Bytes → List Char
  | [] => []
  | byte :: rest =>
      digitChar (byte.toNat / 16) :: digitChar (byte.toNat % 16) :: digitsOf rest

def encode (bytes : Bytes) : String :=
  String.ofList (digitsOf bytes)

def encodePrefixed (bytes : Bytes) : String :=
  "0x" ++ encode bytes

def leadingByte (char : Char) : UInt8 :=
  (Bytes.ofText (String.singleton char)).headD 0

/-- The bytes that pairs of digits denote; `position` counts the digits before
these, and the first character that is no digit is reported. -/
def pairs? (position : Nat) : List Char → Except HexError Bytes
  | [] => .ok []
  | [char] =>
      match digit? char with
      | none => .error (.invalidCharacter (leadingByte char) position)
      | some _ => .error .oddLength
  | high :: low :: rest =>
      match digit? high, digit? low with
      | none, _ => .error (.invalidCharacter (leadingByte high) position)
      | some _, none => .error (.invalidCharacter (leadingByte low) (position + 1))
      | some upper, some lower =>
          (pairs? (position + 2) rest).map (UInt8.ofNat (upper * 16 + lower) :: ·)

/-- The bytes denoted by hexadecimal digits without a mark. Their number is
checked before their kind, and is counted in bytes. -/
def decodeDigits (digits : String) : Except HexError Bytes :=
  if digits.utf8ByteSize % 2 = 1 then .error .oddLength else pairs? 0 digits.toList

/-- The bytes denoted by a hexadecimal text, with or without its mark. -/
def decode (text : String) : Except HexError Bytes :=
  decodeDigits (stripPrefix text)

/-- A text filled up with zeros on the left until it has `width` bytes. -/
def padLeft (text : String) (width : Nat) : String :=
  String.ofList (List.replicate (width - text.utf8ByteSize) '0') ++ text

/-- The bytes of a number, filled up with zeros on the left to the given length. -/
def wordBytes (word : Word) (length : Nat) : Except HexError Bytes :=
  let needed := byteLength word.toNat
  if length < needed then .error (.tooWide needed length) else .ok (Bytes.ofNat length word.toNat)

def ofWord (word : Word) : String :=
  "0x" ++ String.ofList (Nat.toDigits 16 word.toNat)

/-- The word a hexadecimal numeral denotes, with or without its mark. -/
def toWord (text : String) : Except HexError Word :=
  match dropMark text.toList with
  | [] => .error (.invalidNumber text)
  | digits =>
      match wordNumeral? 16 digits with
      | none => .error (.invalidNumber text)
      | some word => .ok word

/-- The word a decimal numeral denotes. -/
def decimalToWord (text : String) : Except HexError Word :=
  match text.toList with
  | [] => .error (.invalidNumber text)
  | digits =>
      match wordNumeral? 10 digits with
      | none => .error (.invalidNumber text)
      | some word => .ok word

end Text.Hex

end ChainClient
