import ChainClient.Word

/-!
# SHA-256 and its keyed form

The digest compresses a message, 64 bytes at a time, into eight words of 32
bits. The keyed form hashes twice, with the key masked in two ways, and is what
the deterministic choice of signing nonces is built from.
-/

namespace ChainClient.Hash

namespace Sha256

/-- The eight words of 32 bits that a block is compressed into. -/
structure State where
  a : UInt32
  b : UInt32
  c : UInt32
  d : UInt32
  e : UInt32
  f : UInt32
  g : UInt32
  h : UInt32

/-- The state before the first block. -/
def initial : State where
  a := 0x6a09e667
  b := 0xbb67ae85
  c := 0x3c6ef372
  d := 0xa54ff53a
  e := 0x510e527f
  f := 0x9b05688c
  g := 0x1f83d9ab
  h := 0x5be0cd19

/-- The constants that tell the sixty-four rounds apart. -/
def roundConstants : List UInt32 := [
  0x428a2f98, 0x71374491, 0xb5c0fbcf, 0xe9b5dba5, 0x3956c25b, 0x59f111f1, 0x923f82a4, 0xab1c5ed5,
  0xd807aa98, 0x12835b01, 0x243185be, 0x550c7dc3, 0x72be5d74, 0x80deb1fe, 0x9bdc06a7, 0xc19bf174,
  0xe49b69c1, 0xefbe4786, 0x0fc19dc6, 0x240ca1cc, 0x2de92c6f, 0x4a7484aa, 0x5cb0a9dc, 0x76f988da,
  0x983e5152, 0xa831c66d, 0xb00327c8, 0xbf597fc7, 0xc6e00bf3, 0xd5a79147, 0x06ca6351, 0x14292967,
  0x27b70a85, 0x2e1b2138, 0x4d2c6dfc, 0x53380d13, 0x650a7354, 0x766a0abb, 0x81c2c92e, 0x92722c85,
  0xa2bfe8a1, 0xa81a664b, 0xc24b8b70, 0xc76c51a3, 0xd192e819, 0xd6990624, 0xf40e3585, 0x106aa070,
  0x19a4c116, 0x1e376c08, 0x2748774c, 0x34b0bcb5, 0x391c0cb3, 0x4ed8aa4a, 0x5b9cca4f, 0x682e6ff3,
  0x748f82ee, 0x78a5636f, 0x84c87814, 0x8cc70208, 0x90befffa, 0xa4506ceb, 0xbef9a3f7, 0xc67178f2]

def rotateRight (word : UInt32) (places : UInt32) : UInt32 :=
  word >>> places ||| word <<< (32 - places)

/-- The word that four bytes hold, most significant byte first. -/
def wordOfBytes (bytes : Bytes) : UInt32 :=
  UInt32.ofNat (Bytes.toNat bytes)

/-- The last word of a schedule, from the sixteen words before it. -/
def extension (window : List UInt32) : UInt32 :=
  let early := window.getD 1 0
  let late := window.getD 14 0
  window.getD 0 0 + window.getD 9 0 +
    (rotateRight early 7 ^^^ rotateRight early 18 ^^^ early >>> 3) +
    (rotateRight late 17 ^^^ rotateRight late 19 ^^^ late >>> 10)

/-- One round, fed with a word of the schedule and the round's constant. -/
def round (state : State) (word constant : UInt32) : State :=
  let high := rotateRight state.e 6 ^^^ rotateRight state.e 11 ^^^ rotateRight state.e 25
  let choice := (state.e &&& state.f) ^^^ (~~~ state.e &&& state.g)
  let first := state.h + high + choice + constant + word
  let low := rotateRight state.a 2 ^^^ rotateRight state.a 13 ^^^ rotateRight state.a 22
  let majority := (state.a &&& state.b) ^^^ (state.a &&& state.c) ^^^ (state.b &&& state.c)
  { a := first + (low + majority), b := state.a, c := state.b, d := state.c
    e := state.d + first, f := state.e, g := state.f, h := state.g }

/-- The rounds for the given constants; `window` holds the next sixteen words of
the schedule. -/
def rounds (state : State) (window : List UInt32) : List UInt32 → State
  | [] => state
  | constant :: rest =>
      rounds (round state (window.headD 0) constant) (window.tail ++ [extension window]) rest

/-- Compress one block of 64 bytes. -/
def compress (state : State) (block : Bytes) : State :=
  let window := (List.range 16).map fun index => wordOfBytes ((block.drop (4 * index)).take 4)
  let next := rounds state window roundConstants
  { a := state.a + next.a, b := state.b + next.b, c := state.c + next.c, d := state.d + next.d
    e := state.e + next.e, f := state.f + next.f, g := state.g + next.g, h := state.h + next.h }

/-- The bytes that fill up a message of the given length to whole blocks. -/
def padding (length : Nat) : Bytes :=
  0x80 :: Bytes.zeros ((119 - length % 64) % 64) ++ Bytes.ofNat 8 (8 * length)

/-- Compress a padded message block by block. -/
def compressBlocks (state : State) : (blocks : Nat) → Bytes → State
  | 0, _ => state
  | blocks + 1, message => compressBlocks (compress state (message.take 64)) blocks
      (message.drop 64)

end Sha256

/-- The SHA-256 digest of a message, as 32 bytes. -/
def sha256 (message : Bytes) : Bytes :=
  let padded := message ++ Sha256.padding message.length
  let final := Sha256.compressBlocks Sha256.initial (padded.length / 64) padded
  [final.a, final.b, final.c, final.d, final.e, final.f, final.g, final.h].flatMap fun word =>
    Bytes.ofNat 4 word.toNat

/-- A key of at most 64 bytes, filled up with zeros and masked with one byte. -/
def maskedKey (mask : UInt8) (key : Bytes) : Bytes :=
  (key ++ Bytes.zeros (64 - key.length)).map (· ^^^ mask)

/-- The keyed SHA-256 digest of a message, for a key of at most 64 bytes. -/
def hmacSha256 (key message : Bytes) : Bytes :=
  sha256 (maskedKey 0x5c key ++ sha256 (maskedKey 0x36 key ++ message))

end ChainClient.Hash
