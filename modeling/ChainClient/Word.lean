import ChainClient.Bytes

/-!
# Machine words

The chain computes with words of 256 bits. A word occupies 32 bytes, most
significant byte first, and is read either as a natural number or, in two's
complement, as an integer.
-/

namespace ChainClient

abbrev Word := BitVec 256

/-- The number of bits in the shortest binary form of a number; zero has none. -/
def bitLength (number : Nat) : Nat :=
  if number = 0 then 0 else number.log2 + 1

/-- The number of bytes in the shortest big-endian form of a number. -/
def byteLength (number : Nat) : Nat :=
  (bitLength number + 7) / 8

namespace Word

def size : Nat := 32

def toBytes (word : Word) : Bytes :=
  Bytes.ofNat size word.toNat

/-- The word a byte string denotes; only its last 32 bytes count. -/
def ofBytes (bytes : Bytes) : Word :=
  BitVec.ofNat 256 (Bytes.toNat bytes)

@[simp] theorem length_toBytes (word : Word) : word.toBytes.length = 32 := by
  simp [toBytes, size]

end Word

end ChainClient
