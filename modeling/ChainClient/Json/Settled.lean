import ChainClient.Json.Plain
import ChainClient.Number.Binary64
import ChainClient.Text.Numeral

/-!
# Settled numbers

A value that is read from another value has its numbers settled. An integer of
128 bits is itself. A number that is written out as the shortest decimal of a
number in 64 bits becomes that number, in the notation for such numbers. All
others keep their digits.
-/

namespace ChainClient.Json

open Number

/-- The digits of a number in 64 bits: written out unless the first digit counts less
than a hundred-thousandth or at least ten to the sixteenth. A whole number that is
written out has a zero behind the point. -/
def settledSize (value : Binary64) : List Char :=
  let decimal := value.shortest .even
  if decimal.leading < -5 ∨ 16 ≤ decimal.leading then decimal.scientific
  else if 0 ≤ decimal.exponent then decimal.positional ++ ['.', '0']
  else decimal.positional

namespace Numeral

/-- The size of a number without an exponent, as a decimal. -/
def written? (numeral : Numeral) : Option Decimal :=
  if numeral.exponent.isEmpty then
    (Text.digits? 10 (numeral.whole ++ numeral.fraction)).map
      fun coefficient => ⟨coefficient, -numeral.fraction.length⟩
  else none

/-- The integer that a number is written as, if it fits 128 bits. -/
def integer? (numeral : Numeral) : Option Int := do
  let decimal ← numeral.written?
  if numeral.fraction.isEmpty then
    let size := decimal.coefficient
    if numeral.isNegative then if size ≤ Nat.pow 2 127 then some (-size) else none
    else if size < Nat.pow 2 128 then some size
    else none
  else none

/-- The number in 64 bits whose shortest decimal is written out here. -/
def binary64? (numeral : Numeral) : Option Binary64 := do
  let decimal ← numeral.written?
  let value ← Binary64.ofDecimal? decimal
  if 0 < value.significand ∧
      numeral.sign ++ (value.shortest .up).positional = numeral.chars then
    some value
  else none

/-- The text of a number once it is settled. -/
def settled (numeral : Numeral) : String :=
  match numeral.integer? with
  | some integer => toString integer
  | none =>
      match numeral.binary64? with
      | some value => String.ofList (numeral.sign ++ settledSize value)
      | none => numeral.literal

end Numeral

mutual

/-- A value with all its numbers settled. -/
def settled : Json → Json
  | .number literal =>
      match Numeral.parse? literal with
      | some numeral => .number numeral.settled
      | none => .number literal
  | .array items => .array (settledItems items)
  | .object members => .object (settledMembers members)
  | value => value

def settledItems : List Json → List Json
  | [] => []
  | item :: items => settled item :: settledItems items

def settledMembers : List (String × Json) → List (String × Json)
  | [] => []
  | (key, value) :: members => (key, settled value) :: settledMembers members

end

end ChainClient.Json
