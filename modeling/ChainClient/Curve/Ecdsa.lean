import ChainClient.Curve.Point
import ChainClient.Hash.Sha256

/-!
# Signatures on the curve

A signature of a digest is a pair of scalars. The secret scalar of each
signature is drawn from a generator seeded with the key and the digest, so that
signing is a function. Only the lower of the two possible second scalars is
made and accepted. A verifying key is recovered from a signature and two bits
that say which curve point its first scalar came from.
-/

namespace ChainClient.Curve

/-- A pair of scalars that signs a digest. -/
structure Scalars where
  /-- The first coordinate of a secret multiple of the generator. -/
  r : Nat
  s : Nat
  deriving DecidableEq, Repr

def isScalar (number : Nat) : Bool :=
  0 < number && number < groupOrder

def inverseScalar (scalar : Nat) : Nat :=
  inverseMod groupOrder scalar

/-- The state of the generator of secret scalars: a key and a value, 32 bytes each. -/
structure Draw where
  key : Bytes
  value : Bytes

namespace Draw

def mix (state : Draw) (tag : UInt8) (seed : Bytes) : Draw :=
  let key := Hash.hmacSha256 state.key (state.value ++ tag :: seed)
  ⟨key, Hash.hmacSha256 key state.value⟩

/-- The state seeded with a key and a digest. -/
def seeded (key digest : Word) : Draw :=
  let seed := key.toBytes ++ digest.toBytes
  let start : Draw := ⟨Bytes.zeros 32, List.replicate 32 1⟩
  (start.mix 0 seed).mix 1 seed

/-- The first scalar among at most `draws` draws. -/
def scalar? : (draws : Nat) → Draw → Option Nat
  | 0, _ => none
  | draws + 1, state =>
      let value := Hash.hmacSha256 state.key state.value
      let number := Bytes.toNat value
      if isScalar number then some number
      else scalar? draws ((Draw.mk state.key value).mix 0 [])

end Draw

/-- The number of draws after which signing gives up. A draw misses with a
probability below `2 ^ -127`. -/
def drawLimit : Nat := 64

def lowScalar (scalar : Nat) : Nat :=
  if groupOrder / 2 < scalar then groupOrder - scalar else scalar

/-- The signature of a digest under a secret scalar. -/
def signScalars? (secret digest : Word) : Option Scalars := do
  let nonce ← (Draw.seeded secret digest).scalar? drawLimit
  let point ← (baseMultiple nonce).toPoint?
  let r := point.x % groupOrder
  let s := inverseScalar nonce * (digest.toNat + r * secret.toNat) % groupOrder
  if r = 0 ∨ s = 0 then none else some ⟨r, lowScalar s⟩

/-- Whether a signature of a digest is valid under a verifying key. A second
scalar in the upper half is refused. -/
def verifies (key : Point) (digest : Word) (scalars : Scalars) : Bool :=
  if groupOrder / 2 < scalars.s then false
  else
    let inverse := inverseScalar scalars.s
    let sum := (baseMultiple (digest.toNat * inverse % groupOrder)).add
      ((Fraction.ofPoint key).scale (scalars.r * inverse % groupOrder))
    match sum.toPoint? with
    | none => false
    | some point => point.x % groupOrder == scalars.r

/-- The verifying key under which a signature of a digest is valid. Of the two
bits of `selector` the lower says whether the second coordinate of the secret
point is odd, the upper whether its first coordinate exceeds the group order. -/
def recoverPoint? (selector : Nat) (digest : Word) (scalars : Scalars) : Option Point := do
  if 4 ≤ selector || !isScalar scalars.r || !isScalar scalars.s then none
  else
    let x := if 2 ≤ selector then scalars.r + groupOrder else scalars.r
    let point ← pointAt? x (selector % 2 == 1)
    let inverse := inverseScalar scalars.r
    let negated := groupOrder - digest.toNat * inverse % groupOrder
    let sum := (baseMultiple negated).add
      ((Fraction.ofPoint point).scale (scalars.s * inverse % groupOrder))
    let key ← sum.toPoint?
    if verifies key digest scalars then some key else none

end ChainClient.Curve
