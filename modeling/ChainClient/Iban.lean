import ChainClient.Address

/-!
# Account numbers

An account number carries an address in base 36 behind a country code and two
check digits. The check digits make the number, with its first four characters
moved to the end and its letters spelled as numbers, leave remainder one modulo
97.
-/

namespace ChainClient

/-- Why an account number gives no address. -/
inductive IbanError where
  | notDirect (length : Nat)
  | invalidCharacter (char : Char)
  | overflow
  deriving DecidableEq, Repr

/-- The message shown for an error. -/
def IbanError.message : IbanError → String
  | notDirect length => s!"not a direct IBAN (length {length})"
  | invalidCharacter char => s!"invalid base-36 character {Text.singleQuoted char}"
  | overflow => "IBAN value exceeds address range"

namespace Iban

open Text

def countryCode : String := "TH"

def bodyLength : Nat := 30

/-- The decimal digits a character stands for: a letter counts from ten. -/
def expansion (char : Char) : List Char :=
  if char.isUpper then Nat.toDigits 10 (char.toNat - 'A'.toNat + 10) else [char]

/-- The text whose remainder is checked: raised to upper case, its first four
characters moved to the end, and its letters spelled as numbers. -/
def rearranged (text : List Char) : List Char :=
  let upper := text.map Char.toUpper
  (upper.drop 4 ++ upper.take 4).flatMap expansion

/-- The remainder modulo 97 of decimal digits behind a number with remainder
`total`; none if a character is no digit. -/
def remainderFrom? (total : Nat) : List Char → Option Nat
  | [] => some total
  | char :: rest => do
      let digit ← digitInRadix? 10 char
      remainderFrom? ((total * 10 + digit) % 97) rest

/-- The remainder of an account number modulo 97, if it has one. -/
def remainder? (text : List Char) : Option Nat :=
  remainderFrom? 0 (rearranged text)

def twoDigits (number : Nat) : List Char :=
  [Hex.digitChar (number / 10), Hex.digitChar (number % 10)]

/-- The account number of a domestic number, whatever its characters. A domestic
number with characters outside base 36 has no remainder and counts as zero. -/
def ofDomestic (domestic : List Char) : List Char :=
  let remainder := (remainder? (countryCode.toList ++ ['0', '0'] ++ domestic)).getD 0
  countryCode.toList ++ twoDigits (98 - remainder) ++ domestic

def base36Char (value : Nat) : Char :=
  if value < 10 then Char.ofNat ('0'.toNat + value) else Char.ofNat ('A'.toNat + (value - 10))

def base36Digits : (width : Nat) → Nat → List Char
  | 0, _ => []
  | width + 1, number => base36Digits width (number / 36) ++ [base36Char (number % 36)]

/-- The digits that spell an address: thirty, or one more if it needs them. -/
def body (address : Address) : List Char :=
  let number := address.value.toNat
  base36Digits (if number < Nat.pow 36 bodyLength then bodyLength else bodyLength + 1) number

def ofAddress (address : Address) : String :=
  String.ofList (ofDomestic (body address))

/-- Whether a text is as long as the account numbers that carry an address. -/
def isDirect (text : String) : Bool :=
  text.utf8ByteSize == 34 || text.utf8ByteSize == 35

/-- The number that digits in base 36 denote, continuing from those before. -/
def base36From (total : Nat) : List Char → Except IbanError Nat
  | [] => .ok total
  | char :: rest =>
      match digitInRadix? 36 char with
      | none => .error (.invalidCharacter char)
      | some digit => base36From (total * 36 + digit) rest

/-- The address an account number carries. The country code and the check digits
are passed over unread. -/
def toAddress (text : String) : Except IbanError Address :=
  if !isDirect text then .error (.notDirect text.utf8ByteSize)
  else
    match text.toList.find? fun char => 128 ≤ char.toNat with
    | some char => .error (.invalidCharacter char)
    | none => do
        let number ← base36From 0 (text.toList.drop 4)
        if number < Nat.pow 2 160 then .ok ⟨BitVec.ofNat 160 number⟩ else .error .overflow

/-- Whether a text is an account number in upper case with correct check digits. -/
def isValid (text : String) : Bool :=
  let chars := text.toList
  let shaped := chars.all (fun char => char.toNat < 128) &&
    countryCode.toList.isPrefixOf chars && isDirect text &&
    ((chars.drop 2).take 2).all Char.isDigit &&
    (chars.drop 4).all fun char => char.isDigit || char.isUpper
  shaped && remainder? chars == some 1

end Iban

end ChainClient
