import ChainClient.Curve.Modular

/-!
# Points of the signature curve

The points with `y * y = x * x * x + 7` over a prime field, together with the
point at infinity, form a group of prime order. Sums are computed on fractions
`(x / z², y / z³)` with common denominators, so that only the final step back to
coordinates divides.
-/

namespace ChainClient.Curve

def fieldPrime : Nat :=
  0xfffffffffffffffffffffffffffffffffffffffffffffffffffffffefffffc2f

def groupOrder : Nat :=
  0xfffffffffffffffffffffffffffffffebaaedce6af48a03bbfd25e8cd0364141

/-- A point given by its coordinates. -/
structure Point where
  x : Nat
  y : Nat
  deriving DecidableEq, Repr

def generator : Point where
  x := 0x79be667ef9dcbbac55a06295ce870b07029bfcdb2dce28d959f2815b16f81798
  y := 0x483ada7726a3c4655da4fbfc0e1108a8fd17b448a68554199c47d08ffb10d4b8

/-- A point given by fractions; a zero denominator is the point at infinity. -/
structure Fraction where
  /-- The numerator over the square of the denominator. -/
  x : Nat
  /-- The numerator over the cube of the denominator. -/
  y : Nat
  z : Nat

namespace Fraction

def infinity : Fraction := ⟨1, 1, 0⟩

def ofPoint (point : Point) : Fraction := ⟨point.x, point.y, 1⟩

def mul (first second : Nat) : Nat := first * second % fieldPrime

def sub (first second : Nat) : Nat := subMod fieldPrime first second

/-- A point added to itself. -/
def double (point : Fraction) : Fraction :=
  if point.z = 0 ∨ point.y = 0 then infinity
  else
    let ySquared := mul point.y point.y
    let distance := mul 4 (mul point.x ySquared)
    let slope := mul 3 (mul point.x point.x)
    let x := sub (mul slope slope) (mul 2 distance)
    let y := sub (mul slope (sub distance x)) (mul 8 (mul ySquared ySquared))
    ⟨x, y, mul 2 (mul point.y point.z)⟩

/-- The sum of two points. -/
def add (first second : Fraction) : Fraction :=
  if first.z = 0 then second
  else if second.z = 0 then first
  else
    let firstSquare := mul first.z first.z
    let secondSquare := mul second.z second.z
    let firstX := mul first.x secondSquare
    let secondX := mul second.x firstSquare
    let firstY := mul first.y (mul second.z secondSquare)
    let secondY := mul second.y (mul first.z firstSquare)
    if firstX = secondX then
      if firstY = secondY then double first else infinity
    else
      let width := sub secondX firstX
      let height := sub secondY firstY
      let widthSquare := mul width width
      let widthCube := mul width widthSquare
      let corner := mul firstX widthSquare
      let x := sub (sub (mul height height) widthCube) (mul 2 corner)
      let y := sub (mul height (sub corner x)) (mul firstY widthCube)
      ⟨x, y, mul width (mul first.z second.z)⟩

/-- A multiple of a point, by repeated doubling. -/
def scale (point : Fraction) (factor : Nat) : Fraction :=
  if factor = 0 then infinity
  else
    let even := double (scale point (factor / 2))
    if factor % 2 = 1 then add even point else even
termination_by factor

/-- The coordinates of a point; the point at infinity has none. -/
def toPoint? (point : Fraction) : Option Point :=
  if point.z = 0 then none
  else
    let inverse := inverseMod fieldPrime point.z
    let square := mul inverse inverse
    some ⟨mul point.x square, mul point.y (mul inverse square)⟩

end Fraction

def baseMultiple (factor : Nat) : Fraction :=
  (Fraction.ofPoint generator).scale factor

/-- The point with a given first coordinate whose second coordinate is odd or
even as asked. -/
def pointAt? (x : Nat) (odd : Bool) : Option Point :=
  if fieldPrime ≤ x then none
  else
    let square := (Fraction.mul x (Fraction.mul x x) + 7) % fieldPrime
    let root := powMod fieldPrime square ((fieldPrime + 1) / 4)
    if Fraction.mul root root ≠ square then none
    else if (root % 2 = 1) = (odd = true) then some ⟨x, root⟩
    else some ⟨x, fieldPrime - root⟩

end ChainClient.Curve
