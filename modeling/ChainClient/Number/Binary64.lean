import ChainClient.Number.Decimal

/-!
# Numbers in 64 bits

A number in the binary format of 64 bits is a whole number below `2 ^ 53` of some
power of two. Only sizes are treated here: signs stand beside them. A quotient is
rounded to the nearest such number, and each such number has a shortest decimal
that rounds to it. All steps are exact.
-/

namespace ChainClient.Number

/-- A quotient rounded to the nearest whole number, a half to the even one. -/
def roundedQuotient (numerator denominator : Nat) : Nat :=
  let quotient := numerator / denominator
  let twice := 2 * (numerator % denominator)
  if twice < denominator ∨ (twice = denominator ∧ quotient % 2 = 0) then quotient
  else quotient + 1

/-- A rounded quotient is off by at most a half, whichever way it is rounded. -/
theorem roundedQuotient_near (numerator : Nat) {denominator : Nat} (hpos : 0 < denominator) :
    2 * numerator ≤ (2 * roundedQuotient numerator denominator + 1) * denominator ∧
      2 * roundedQuotient numerator denominator * denominator ≤ 2 * numerator + denominator := by
  have hsplit := Nat.div_add_mod numerator denominator
  have hcomm := Nat.mul_comm denominator (numerator / denominator)
  have hbound := Nat.mod_lt numerator hpos
  unfold roundedQuotient
  by_cases hdown : 2 * (numerator % denominator) < denominator ∨
      (2 * (numerator % denominator) = denominator ∧ numerator / denominator % 2 = 0)
  · rw [if_pos hdown, Nat.add_mul, Nat.mul_assoc]
    omega
  · rw [if_neg hdown, Nat.add_mul, Nat.mul_assoc, Nat.add_mul]
    omega

/-- The size of a finite number, `significand * 2 ^ exponent`. Either the significand
has all its 53 bits or the exponent is the least one. -/
structure Binary64 where
  significand : Nat
  /-- The power of two that the last bit counts. -/
  exponent : Int
  deriving DecidableEq, Repr

namespace Binary64

def minExponent : Int := -1074

def maxExponent : Int := 971

/-- The power of two at which a positive quotient has its first bit. -/
def leadingBit (numerator denominator : Nat) : Int :=
  let guess : Int := numerator.log2 - denominator.log2
  if denominator * Nat.pow 2 guess.toNat ≤ numerator * Nat.pow 2 (-guess).toNat then guess
  else guess - 1

/-- The number nearest to a quotient, a half to the even one; none if it is too big. -/
def nearest? (numerator denominator : Nat) : Option Binary64 :=
  let exponent := max (leadingBit numerator denominator - 52) minExponent
  let significand :=
    roundedQuotient (numerator * Nat.pow 2 (-exponent).toNat)
      (denominator * Nat.pow 2 exponent.toNat)
  let number : Binary64 :=
    if significand = Nat.pow 2 53 then ⟨Nat.pow 2 52, exponent + 1⟩ else ⟨significand, exponent⟩
  if number.exponent ≤ maxExponent then some number else none

def ofDecimal? (decimal : Decimal) : Option Binary64 :=
  nearest? (decimal.coefficient * Nat.pow 10 decimal.exponent.toNat)
    (Nat.pow 10 (-decimal.exponent).toNat)

/-! ## The shortest decimal -/

/-- The numbers that round to a given one, as multiples of one power of ten. -/
structure Neighbourhood where
  lower : Nat
  center : Nat
  upper : Nat
  /-- Whether the least and the greatest round to the number too. -/
  closed : Bool
  /-- The power of ten that all of them count. -/
  exponent : Int
  deriving Repr

/-- The numbers that round to this one. They reach half of the way to the numbers
next to it, of which the lower one is closer below a power of two. -/
def neighbourhood (number : Binary64) : Neighbourhood :=
  let power := number.exponent - 2
  let scale := if power < 0 then Nat.pow 5 (-power).toNat else Nat.pow 2 power.toNat
  let below :=
    if number.significand = Nat.pow 2 52 ∧ minExponent < number.exponent then 1 else 2
  ⟨(4 * number.significand - below) * scale, 4 * number.significand * scale,
    (4 * number.significand + 2) * scale, number.significand % 2 = 0, min power 0⟩

/-- Which of two decimals equally near to a number is taken. -/
inductive TieRule where
  | up
  | even
  deriving DecidableEq, Repr

namespace Neighbourhood

def reachesDown (around : Neighbourhood) (value : Nat) : Bool :=
  around.lower < value || (around.closed && around.lower == value)

def reachesUp (around : Neighbourhood) (value : Nat) : Bool :=
  value < around.upper || (around.closed && value == around.upper)

/-- The multiple of a step that lies inside and is nearest to the center. -/
def multiple? (around : Neighbourhood) (tie : TieRule) (step : Nat) : Option Nat :=
  let count := around.center / step
  let twice := 2 * (around.center % step)
  let roundsDown := twice < step ∨ (twice = step ∧ tie = .even ∧ count % 2 = 0)
  match around.reachesDown (count * step), around.reachesUp ((count + 1) * step) with
  | true, true => some (if roundsDown then count else count + 1)
  | true, false => some count
  | false, true => some (count + 1)
  | false, false => none

/-- The decimal inside with the fewest digits, if none leaves out more than the
given number of places. -/
def shortest (around : Neighbourhood) (tie : TieRule) : Nat → Decimal
  | 0 => ⟨around.center, around.exponent⟩
  | places + 1 =>
      match around.multiple? tie (Nat.pow 10 (places + 1)) with
      | some count => ⟨count, around.exponent + (places + 1)⟩
      | none => around.shortest tie places

end Neighbourhood

/-- The decimal with the fewest digits that rounds to this number, the nearest one if
there are several. -/
def shortest (number : Binary64) (tie : TieRule) : Decimal :=
  let around := number.neighbourhood
  (around.shortest tie ((Nat.toDigits 10 around.center).length - 1)).trimmed

end Binary64

end ChainClient.Number
