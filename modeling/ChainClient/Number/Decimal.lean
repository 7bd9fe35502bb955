/-!
# Decimal numbers

A decimal is a whole number of some power of ten. It is written in two ways: with
all its places, or by its leading digit and the power of ten that digit counts.
-/

namespace ChainClient.Number

/-- The number `coefficient * 10 ^ exponent`. -/
structure Decimal where
  coefficient : Nat
  /-- The power of ten that the last digit counts. -/
  exponent : Int
  deriving DecidableEq, Repr

namespace Decimal

/-- The same number without zeros at the end of its coefficient. -/
def trimmed (decimal : Decimal) : Decimal :=
  if 0 < decimal.coefficient ∧ decimal.coefficient % 10 = 0 then
    trimmed ⟨decimal.coefficient / 10, decimal.exponent + 1⟩
  else decimal
termination_by decimal.coefficient
decreasing_by exact Nat.div_lt_self (by omega) (by omega)

def digits (decimal : Decimal) : List Char :=
  Nat.toDigits 10 decimal.coefficient

def leading (decimal : Decimal) : Int :=
  decimal.exponent + decimal.digits.length - 1

/-- The digits with the point behind as many of them as stand for whole numbers. -/
def positional (decimal : Decimal) : List Char :=
  let digits := decimal.digits
  let places := (-decimal.exponent).toNat
  if 0 ≤ decimal.exponent then digits ++ List.replicate decimal.exponent.toNat '0'
  else if digits.length ≤ places then
    '0' :: '.' :: List.replicate (places - digits.length) '0' ++ digits
  else digits.take (digits.length - places) ++ '.' :: digits.drop (digits.length - places)

/-- The first digit, a point if more follow, and the power of ten with its sign. -/
def scientific (decimal : Decimal) : List Char :=
  let significand := match decimal.digits with
    | first :: second :: rest => first :: '.' :: second :: rest
    | digits => digits
  let power := decimal.leading
  significand ++ 'e' :: (if power < 0 then '-' else '+') :: Nat.toDigits 10 power.natAbs

end Decimal

end ChainClient.Number
