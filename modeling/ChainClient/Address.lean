import ChainClient.Hash.Keccak
import ChainClient.Text.Hex

/-!
# Account addresses

An account is named by 20 bytes. Its checksummed text writes a letter in upper
case where the digest of the lower-case digits has a large nibble in the same
place, so a text that mixes cases is accepted only with exactly that spelling.
-/

namespace ChainClient

/-- The address of an account or a contract. -/
structure Address where
  /-- The 20 bytes as one number. -/
  value : BitVec 160
  deriving DecidableEq, Repr

/-- Why a text or byte string is not an address. -/
inductive AddressError where
  | invalidLength (length : Nat)
  | invalidHex (text : String)
  /-- The text mixes cases in another way than its checksum. -/
  | invalidChecksum (text : String)
  deriving DecidableEq, Repr

/-- The message shown for an error. -/
def AddressError.message : AddressError → String
  | invalidLength length => s!"invalid address length: {length}"
  | invalidHex text => s!"invalid hex in address {Text.quoted text}"
  | invalidChecksum text => s!"address checksum mismatch: {text}"

namespace Address

open Text

def zero : Address := ⟨0⟩

def size : Nat := 20

def digitCount : Nat := 40

def toBytes (address : Address) : Bytes :=
  Bytes.ofNat size address.value.toNat

@[simp] theorem length_toBytes (address : Address) : address.toBytes.length = 20 := by
  simp [toBytes, size]

/-- The address whose number is that of the bytes; only the last 20 count. -/
def ofLastBytes (bytes : Bytes) : Address :=
  ⟨BitVec.ofNat 160 (Bytes.toNat bytes)⟩

/-- The address that consists of the given bytes, of which there must be 20. -/
def ofBytes (bytes : Bytes) : Except AddressError Address :=
  if bytes.length = size then .ok (ofLastBytes bytes) else .error (.invalidLength bytes.length)

def toLowerHex (address : Address) : String :=
  Hex.encode address.toBytes

/-- The lower-case digits of an address behind a mark, as the chain writes it. -/
def toPrefixedHex (address : Address) : String :=
  "0x" ++ address.toLowerHex

/-- The nibbles of a digest, the upper nibble of each byte first. -/
def nibbles (digest : Word) : List Nat :=
  digest.toBytes.flatMap fun byte => [byte.toNat / 16, byte.toNat % 16]

/-- Lower-case digits with the letters raised that the checksum raises. -/
def checksumDigits (lower : List Char) : List Char :=
  List.zipWith (fun nibble digit => if 8 ≤ nibble then digit.toUpper else digit)
    (nibbles (Hash.keccak256Text (String.ofList lower))) lower

/-- The checksummed text of an address, which is also how it is displayed. -/
def toChecksum (address : Address) : String :=
  "0x" ++ String.ofList (checksumDigits address.toLowerHex.toList)

instance : ToString Address := ⟨toChecksum⟩

def areHexDigits (digits : List Char) : Bool :=
  digits.all fun char => (Hex.digit? char).isSome

/-- The checksummed spelling of an address given as text; its case is ignored. -/
def checksummed (text : String) : Except AddressError String :=
  let digits := Hex.dropMark text.toList
  let length := (String.ofList digits).utf8ByteSize
  if length ≠ digitCount then .error (.invalidLength length)
  else if !areHexDigits digits then .error (.invalidHex text)
  else .ok ("0x" ++ String.ofList (checksumDigits (digits.map Char.toLower)))

/-- Whether a text is spelled exactly as its checksum asks. -/
def isChecksummed (text : String) : Bool :=
  match checksummed text with
  | .ok expected => Hex.stripPrefix expected == Hex.stripPrefix text
  | .error _ => false

/-- Whether a text is a marked address in lower case. -/
def isStrict (text : String) : Bool :=
  match text.toList with
  | '0' :: 'x' :: digits =>
      digits.length == digitCount && digits.all fun char =>
        ('0' ≤ char && char ≤ '9') || ('a' ≤ char && char ≤ 'f')
  | _ => false

/-- The marked lower-case spelling of an address that may lack leading zeros. -/
def strict (text : String) : Except AddressError String :=
  let digits := Hex.dropMark text.toList
  let length := (String.ofList digits).utf8ByteSize
  if digitCount < length then .error (.invalidLength length)
  else if !areHexDigits digits then .error (.invalidHex text)
  else .ok ("0x" ++ String.ofList
    (List.replicate (digitCount - digits.length) '0' ++ digits.map Char.toLower))

def isMixedCase (digits : List Char) : Bool :=
  digits.any Char.isLower && digits.any Char.isUpper

/-- The address a text spells. A text in one case needs no checksum. -/
def parse (text : String) : Except AddressError Address :=
  let digits := Hex.stripPrefix text
  if digits.utf8ByteSize ≠ digitCount then .error (.invalidLength digits.utf8ByteSize)
  else
    match Hex.decodeDigits digits with
    | .error _ => .error (.invalidHex text)
    | .ok bytes =>
        if isMixedCase digits.toList && !isChecksummed digits then
          .error (.invalidChecksum text)
        else ofBytes bytes

def isAddress (text : String) : Bool :=
  (parse text).isOk

/-- Addresses are ordered as their bytes are, most significant byte first. -/
instance : Ord Address := ⟨fun first second => compare first.value.toNat second.value.toNat⟩

end Address

end ChainClient
