import Mathlib.Data.List.Forall2
import ChainClient.Proofs.Abi.Size
import ChainClient.Proofs.Abi.Width

/-!
# The layout of call data

The layout is stated here apart from the encoder. A block is the heads of its parts
and then their tails. A static part is its own head and has no tail; a dynamic part
is its own tail, and its head is the number of bytes in front of that tail. Arrays,
tuples, and argument lists are blocks. The layout leaves no choice, and the encoder
writes it.
-/

namespace ChainClient.Abi

namespace Layout

/-- One of the parts that a block is made of. -/
structure Part where
  /-- Whether the part stands in the tail. -/
  isDynamic : Bool
  body : Bytes

/-- The 32-byte big-endian form of a number. -/
def number (value : Nat) : Bytes :=
  Bytes.ofNat 32 value

/-- One word with the given bytes at its right end. -/
def rightAligned (filler : UInt8) (bytes : Bytes) : Bytes :=
  List.replicate (32 - bytes.length) filler ++ bytes

/-- Whole words with the given bytes at their left end and zeros behind them. -/
def leftAligned (bytes : Bytes) : Bytes :=
  bytes ++ List.replicate (32 * ((bytes.length + 31) / 32) - bytes.length) 0

/-- The bytes that a part has in the tail of its block. -/
def Part.tail (part : Part) : Bytes :=
  if part.isDynamic then part.body else []

/-- The heads of parts when so many bytes stand in front of the first tail. -/
def heads (start : Nat) (parts : List Part) : List Bytes :=
  parts.mapIdx fun index part =>
    if part.isDynamic then number (start + ((parts.take index).map Part.tail).flatten.length)
    else part.body

/-- The block of parts. The first tail follows the heads, and every offset fits its word. -/
def IsBlock (parts : List Part) (bytes : Bytes) : Prop :=
  ∃ written : List Bytes, written = heads written.flatten.length parts ∧
    bytes = written.flatten ++ (parts.map Part.tail).flatten ∧ bytes.length < 2 ^ 256

/-- Values and their bytes as parts of a block. -/
def parts (values : List Value) (bodies : List Bytes) : List Part :=
  List.zipWith (fun value body => ⟨value.type.isDynamic, body⟩) values bodies

/-- The bytes of a value. An integer in two's complement is extended by its sign. -/
inductive Encodes : Value → Bytes → Prop
  | bool (value : Bool) : Encodes (.bool value) (rightAligned 0 [if value then 1 else 0])
  | uint (value : Word) (bits : Nat) :
      Encodes (.uint value bits) (rightAligned 0 (Bytes.ofNat (bits / 8) value.toNat))
  | int (value : Word) (bits : Nat) :
      Encodes (.int value bits)
        (rightAligned (if value.toInt < 0 then 255 else 0) (Bytes.ofNat (bits / 8) value.toNat))
  | address (value : Address) : Encodes (.address value) (rightAligned 0 value.toBytes)
  | fixedBytes (value : Bytes) : Encodes (.fixedBytes value) (leftAligned value)
  | bytes (value : Bytes) : Encodes (.bytes value) (number value.length ++ leftAligned value)
  | string (value : String) :
      Encodes (.string value)
        (number (Bytes.ofText value).length ++ leftAligned (Bytes.ofText value))
  | fixedArray {element : AbiType} {values : List Value} {bodies : List Bytes} {block : Bytes}
      (hbodies : List.Forall₂ Encodes values bodies)
      (hblock : IsBlock (parts values bodies) block) :
      Encodes (.fixedArray element values) block
  | array {element : AbiType} {values : List Value} {bodies : List Bytes} {block : Bytes}
      (hbodies : List.Forall₂ Encodes values bodies)
      (hblock : IsBlock (parts values bodies) block) :
      Encodes (.array element values) (number values.length ++ block)
  | tuple {members : List Value} {bodies : List Bytes} {block : Bytes}
      (hbodies : List.Forall₂ Encodes members bodies)
      (hblock : IsBlock (parts members bodies) block) :
      Encodes (.tuple members) block

/-- The call data of arguments is the block of their bytes. -/
def IsCallData (values : List Value) (bytes : Bytes) : Prop :=
  ∃ bodies, List.Forall₂ Encodes values bodies ∧ IsBlock (parts values bodies) bytes

/-! ## Heads one after another -/

theorem heads_cons (start : Nat) (part : Part) (others : List Part) :
    heads start (part :: others) =
      (if part.isDynamic then number start else part.body) ::
        heads (start + part.tail.length) others := by
  rw [heads, List.mapIdx_cons, heads]
  simp [Nat.add_assoc]

/-- The length of the heads does not depend on where the tails start. -/
theorem length_flatten_heads (first second : Nat) (parts : List Part) :
    (heads first parts).flatten.length = (heads second parts).flatten.length := by
  induction parts generalizing first second with
  | nil => simp [heads]
  | cons part others ih =>
      rw [heads_cons, heads_cons, List.flatten_cons, List.flatten_cons, List.length_append,
        List.length_append, ih _ (second + part.tail.length)]
      cases part.isDynamic <;> simp [number]

/-! ## The layout leaves no choice -/

theorem IsBlock.unique {parts : List Part} {first second : Bytes} (hfirst : IsBlock parts first)
    (hsecond : IsBlock parts second) : first = second := by
  obtain ⟨written, hwritten, rfl, -⟩ := hfirst
  obtain ⟨others, hothers, rfl, -⟩ := hsecond
  -- heads of one length make all offsets equal
  have hlength : written.flatten.length = others.flatten.length := by
    rw [hwritten, hothers]
    exact length_flatten_heads _ _ parts
  rw [hwritten, hothers, hlength]

theorem bodies_unique {values : List Value} {first second : List Bytes}
    (hunique : ∀ value ∈ values, ∀ {first second}, Encodes value first → Encodes value second →
      first = second)
    (hfirst : List.Forall₂ Encodes values first) (hsecond : List.Forall₂ Encodes values second) :
    first = second := by
  induction hfirst generalizing second with
  | nil =>
      cases hsecond
      rfl
  | cons hbody _ ih =>
      cases hsecond with
      | cons hother hothers =>
          rw [hunique _ List.mem_cons_self hbody hother,
            ih (fun value hvalue => hunique value (List.mem_cons_of_mem _ hvalue)) hothers]

/-- The layout of a value leaves no choice. -/
theorem Encodes.unique {value : Value} {first second : Bytes} (hfirst : Encodes value first)
    (hsecond : Encodes value second) : first = second := by
  induction value generalizing first second with
  | fixedArray element values ih =>
      cases hfirst with
      | fixedArray hbodies hblock =>
          cases hsecond with
          | fixedArray hothers hother =>
              obtain rfl := bodies_unique ih hbodies hothers
              exact hblock.unique hother
  | array element values ih =>
      cases hfirst with
      | array hbodies hblock =>
          cases hsecond with
          | array hothers hother =>
              obtain rfl := bodies_unique ih hbodies hothers
              rw [hblock.unique hother]
  | tuple members ih =>
      cases hfirst with
      | tuple hbodies hblock =>
          cases hsecond with
          | tuple hothers hother =>
              obtain rfl := bodies_unique ih hbodies hothers
              exact hblock.unique hother
  | _ =>
      cases hfirst
      cases hsecond
      rfl

theorem IsCallData.unique {values : List Value} {first second : Bytes}
    (hfirst : IsCallData values first) (hsecond : IsCallData values second) : first = second := by
  obtain ⟨bodies, hbodies, hblock⟩ := hfirst
  obtain ⟨others, hothers, hother⟩ := hsecond
  obtain rfl := bodies_unique (fun _ _ => Encodes.unique) hbodies hothers
  exact hblock.unique hother

end Layout

end ChainClient.Abi
