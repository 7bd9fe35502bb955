import ChainClient.Word

/-!
# Keccak-256

The sponge absorbs a message into twenty-five lanes of 64 bits, 136 bytes at a
time, and permutes the lanes after each block. The digest is one word. Padding
is that of the first Keccak submission: a byte `01`, zeros, and the top bit of
the block's last byte.
-/

namespace ChainClient.Hash

namespace Keccak

/-- The lanes of the sponge; lane `x + 5 * y` stands in column `x` of row `y`. -/
abbrev State := Vector UInt64 25

def lane (state : State) (x y : Nat) : UInt64 :=
  state.get ⟨x % 5 + 5 * (y % 5), by omega⟩

def rotateLeft (word : UInt64) (places : Nat) : UInt64 :=
  if places = 0 then word
  else word <<< UInt64.ofNat places ||| word >>> UInt64.ofNat (64 - places)

def ofLanes (value : Nat → Nat → UInt64) : State :=
  Vector.ofFn fun index => value (index.val % 5) (index.val / 5)

/-- How far each lane is turned, in the order of the lanes. -/
def rotations : Vector Nat 25 := #v[
  0, 1, 62, 28, 27,
  36, 44, 6, 55, 20,
  3, 10, 43, 25, 39,
  41, 45, 15, 21, 8,
  18, 2, 61, 56, 14]

/-- The constants that tell the twenty-four rounds apart. -/
def roundConstants : List UInt64 := [
  0x0000000000000001, 0x0000000000008082, 0x800000000000808a, 0x8000000080008000,
  0x000000000000808b, 0x0000000080000001, 0x8000000080008081, 0x8000000000008009,
  0x000000000000008a, 0x0000000000000088, 0x0000000080008009, 0x000000008000000a,
  0x000000008000808b, 0x800000000000008b, 0x8000000000008089, 0x8000000000008003,
  0x8000000000008002, 0x8000000000000080, 0x000000000000800a, 0x800000008000000a,
  0x8000000080008081, 0x8000000000008080, 0x0000000080000001, 0x8000000080008008]

/-- Add to every lane the parities of two neighbouring columns. -/
def mixColumns (state : State) : State :=
  let parities : Vector UInt64 5 := Vector.ofFn fun x =>
    lane state x 0 ^^^ lane state x 1 ^^^ lane state x 2 ^^^ lane state x 3 ^^^ lane state x 4
  let parity (x : Nat) : UInt64 := parities.get ⟨x % 5, by omega⟩
  ofLanes fun x y => lane state x y ^^^ parity (x + 4) ^^^ rotateLeft (parity (x + 1)) 1

/-- Turn every lane by its own distance and move the lanes to new places. -/
def turnAndMove (state : State) : State :=
  ofLanes fun x y =>
    let column := (x + 3 * y) % 5
    rotateLeft (lane state column x) (rotations.get ⟨column + 5 * (x % 5), by omega⟩)

def mixRows (state : State) : State :=
  ofLanes fun x y => lane state x y ^^^ (~~~ lane state (x + 1) y &&& lane state (x + 2) y)

def round (state : State) (constant : UInt64) : State :=
  let mixed := mixRows (turnAndMove (mixColumns state))
  mixed.set 0 (mixed[0] ^^^ constant)

def permute (state : State) : State :=
  roundConstants.foldl round state

def rate : Nat := 136

/-- The bytes that fill up a message of the given length to whole blocks. -/
def padding (length : Nat) : Bytes :=
  match rate - length % rate with
  | 1 => [0x81]
  | missing => 0x01 :: Bytes.zeros (missing - 2) ++ [0x80]

/-- The lane that eight bytes hold, least significant byte first. -/
def laneOfBytes (bytes : Bytes) : UInt64 :=
  bytes.foldr (fun byte total => total <<< 8 ||| byte.toUInt64) 0

def bytesOfLane (lane : UInt64) : Bytes :=
  (List.range 8).map fun index => (lane >>> UInt64.ofNat (8 * index)).toUInt8

/-- Add one block of message bytes to the state and permute it. -/
def absorb (state : State) (block : Bytes) : State :=
  permute (Vector.ofFn fun index =>
    state[index] ^^^ laneOfBytes ((block.drop (8 * index.val)).take 8))

/-- Absorb a padded message block by block. -/
def absorbBlocks (state : State) : (blocks : Nat) → Bytes → State
  | 0, _ => state
  | blocks + 1, message => absorbBlocks (absorb state (message.take rate)) blocks
      (message.drop rate)

end Keccak

/-- The Keccak-256 digest of a message. -/
def keccak256 (message : Bytes) : Word :=
  let padded := message ++ Keccak.padding message.length
  let final := Keccak.absorbBlocks (Vector.replicate 25 0) (padded.length / Keccak.rate) padded
  Word.ofBytes ((final.toList.take 4).flatMap Keccak.bytesOfLane)

def keccak256Text (text : String) : Word :=
  keccak256 (Bytes.ofText text)

end ChainClient.Hash
