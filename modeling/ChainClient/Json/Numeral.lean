/-!
# Numerals

The grammar of numbers in JSON: an optional minus sign, digits that start with
zero only if that is all of them, and optionally a fraction and an exponent. A
number keeps the digits it was given, and only its exponent has one spelling.
-/

namespace ChainClient.Json

/-- The parts of a number as it is written. -/
structure Numeral where
  isNegative : Bool
  whole : List Char
  /-- The digits behind the point; none without one. -/
  fraction : List Char
  /-- The sign of the exponent and its digits; none without an exponent. -/
  exponent : List Char
  deriving DecidableEq, Repr

namespace Numeral

def sign (numeral : Numeral) : List Char :=
  if numeral.isNegative then ['-'] else []

/-- The characters of a number. -/
def chars (numeral : Numeral) : List Char :=
  numeral.sign ++ numeral.whole
    ++ (if numeral.fraction.isEmpty then [] else '.' :: numeral.fraction)
    ++ (if numeral.exponent.isEmpty then [] else 'e' :: numeral.exponent)

def literal (numeral : Numeral) : String :=
  String.ofList numeral.chars

end Numeral

/-- Digits in front of a text, of which there must be one. -/
def digitRun? (text : List Char) : Option (List Char × List Char) :=
  match text.span Char.isDigit with
  | ([], _) => none
  | (digits, rest) => some (digits, rest)

/-- The digits of the whole part: no zero stands in front of others. -/
def wholePart? (text : List Char) : Option (List Char × List Char) :=
  match text with
  | '0' :: rest =>
      match rest with
      | next :: _ => if next.isDigit then none else some (['0'], rest)
      | [] => some (['0'], rest)
  | _ => digitRun? text

/-- The digits of the fraction, if there is one. -/
def fraction? (text : List Char) : Option (List Char × List Char) :=
  match text with
  | '.' :: rest => digitRun? rest
  | _ => some ([], text)

/-- The exponent, if there is one, with an explicit sign. -/
def exponent? (text : List Char) : Option (List Char × List Char) :=
  match text with
  | letter :: rest =>
      if letter = 'e' ∨ letter = 'E' then
        let (sign, rest) := match rest with
          | '+' :: rest => ('+', rest)
          | '-' :: rest => ('-', rest)
          | _ => ('+', rest)
        (digitRun? rest).map fun (digits, rest) => (sign :: digits, rest)
      else some ([], text)
  | [] => some ([], text)

/-- A number in front of a text. -/
def numeral? (text : List Char) : Option (Numeral × List Char) := do
  let (isNegative, text) := match text with
    | '-' :: rest => (true, rest)
    | _ => (false, text)
  let (whole, text) ← wholePart? text
  let (fraction, text) ← fraction? text
  let (exponent, text) ← exponent? text
  some (⟨isNegative, whole, fraction, exponent⟩, text)

/-- The number that is all of a text. -/
def Numeral.parse? (text : String) : Option Numeral :=
  match numeral? text.toList with
  | some (numeral, []) => some numeral
  | _ => none

end ChainClient.Json
