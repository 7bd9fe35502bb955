import ChainClient.Word

/-!
# Numerals

Numbers are read in two ways. A *word numeral* may be broken up by underscores
and has no sign. A *count* may start with a plus sign, needs a digit, and stays
below a limit.
-/

namespace ChainClient.Text

/-- The value of a digit in radix 36; letters of both cases count from ten. -/
def digitValue? (char : Char) : Option Nat :=
  let code := char.toNat
  if '0'.toNat ≤ code ∧ code ≤ '9'.toNat then some (code - '0'.toNat)
  else if 'a'.toNat ≤ code ∧ code ≤ 'z'.toNat then some (code - 'a'.toNat + 10)
  else if 'A'.toNat ≤ code ∧ code ≤ 'Z'.toNat then some (code - 'A'.toNat + 10)
  else none

def digitInRadix? (radix : Nat) (char : Char) : Option Nat :=
  (digitValue? char).filter (· < radix)

/-- The number a run of digits denotes, continuing from the digits before it. -/
def digitsFrom? (radix : Nat) (total : Nat) : List Char → Option Nat
  | [] => some total
  | char :: rest => do
      let digit ← digitInRadix? radix char
      digitsFrom? radix (total * radix + digit) rest

def digits? (radix : Nat) : List Char → Option Nat
  | [] => none
  | digits => digitsFrom? radix 0 digits

/-- The number denoted by a word numeral. Underscores are passed over, so a lone
underscore denotes zero; the number has to fit a word. -/
def wordNumeral? (radix : Nat) (digits : List Char) : Option Word := do
  let number ← digitsFrom? radix 0 (digits.filter (· ≠ '_'))
  if number < Nat.pow 2 256 then some (BitVec.ofNat 256 number) else none

def countDigits : List Char → List Char
  | '+' :: digits => digits
  | digits => digits

def count? (radix limit : Nat) (text : List Char) : Option Nat :=
  (digits? radix (countDigits text)).filter (· < limit)

def count64? (radix : Nat) (text : List Char) : Option UInt64 :=
  (count? radix (Nat.pow 2 64) text).map UInt64.ofNat

end ChainClient.Text
