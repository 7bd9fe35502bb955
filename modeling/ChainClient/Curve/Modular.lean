/-!
# Arithmetic modulo a prime

Residues are natural numbers below the modulus. A power is taken by repeated
squaring, and a power gives the inverse of a residue modulo a prime.
-/

namespace ChainClient.Curve

/-- The difference of two residues, the second below the modulus. -/
def subMod (modulus first second : Nat) : Nat :=
  (first + (modulus - second)) % modulus

/-- A power modulo a number, by repeated squaring. -/
def powMod (modulus base exponent : Nat) : Nat :=
  if exponent = 0 then 1 % modulus
  else
    let root := powMod modulus base (exponent / 2)
    let square := root * root % modulus
    if exponent % 2 = 1 then square * base % modulus else square
termination_by exponent

def inverseMod (prime residue : Nat) : Nat :=
  powMod prime residue (prime - 2)

end ChainClient.Curve
