import ChainClient.Proofs.Abi.Layout

/-!
# The encoder writes the layout

The encoder measures the heads before it writes any of them and carries the next
offset along. What it writes is the block of the layout, whose offsets count the
bytes of the heads and of the tails in front, at every level of nesting.
-/

namespace ChainClient.Abi

open Layout

namespace Value

/-! ## Words and padding -/

theorem lengthWord_eq_number (length : Nat) : lengthWord length = number length := by
  rw [lengthWord, Word.toBytes, BitVec.toNat_ofNat]
  exact Bytes.ofNat_mod 32 length

theorem padRight_eq_leftAligned (bytes : Bytes) : padRight bytes = leftAligned bytes := by
  have hfill : (Word.size - bytes.length % Word.size) % Word.size =
      32 * ((bytes.length + 31) / 32) - bytes.length := by
    simp only [Word.size]
    omega
  rw [padRight, hfill, leftAligned, Bytes.zeros]

theorem blob_eq (bytes : Bytes) : blob bytes = number bytes.length ++ leftAligned bytes := by
  rw [blob, lengthWord_eq_number, padRight_eq_leftAligned]

/-! ## Blocks -/

/-- A value and what the encoder writes for it as a part of a block. -/
def part (value : Value) : Part :=
  ⟨value.type.isDynamic, value.contents⟩

theorem parts_map_contents (values : List Value) :
    parts values (values.map contents) = values.map part := by
  induction values with
  | nil => rfl
  | cons value values ih =>
      rw [List.map_cons, List.map_cons, ← ih]
      rfl

/-- The offsets that are carried along count the tails in front. -/
theorem place_eq (offset : Nat) (values : List Value) :
    place offset values =
      ((heads offset (values.map part)).flatten, ((values.map part).map Part.tail).flatten) := by
  induction values generalizing offset with
  | nil => simp [place, heads]
  | cons value values ih =>
      rw [List.map_cons, heads_cons, List.map_cons, List.flatten_cons, List.flatten_cons]
      cases hdynamic : value.isDynamic with
      | true =>
          rw [place_cons_of_isDynamic hdynamic, ih, lengthWord_eq_number]
          simp [part, Part.tail, hdynamic]
      | false =>
          rw [place_cons_of_isStatic hdynamic, ih]
          simp [part, Part.tail, hdynamic]

/-- The heads of valid values are as long as they were measured, so that the first tail
follows the last head. -/
theorem isBlock_block {values : List Value} (hvalid : ∀ value ∈ values, value.IsValid)
    (hbound : (block values).length < 2 ^ 256) :
    IsBlock (parts values (values.map contents)) (block values) := by
  have hlength := length_heads hvalid (headLengths values)
  rw [parts_map_contents]
  refine ⟨heads (headLengths values) (values.map part), ?_, ?_, hbound⟩
  · -- the offsets count from the measured length of the heads
    rw [place_eq] at hlength
    rw [hlength]
  · rw [block_eq_append, place_eq]

/-! ## Values -/

theorem encodes_uint {value : Word} {bits : Nat} (hvalid : (Value.uint value bits).IsValid) :
    Encodes (.uint value bits) (contents (.uint value bits)) := by
  obtain ⟨hwidth, hfits⟩ := isValid_uint.mp hvalid
  obtain ⟨hpower, -, hle⟩ := two_pow_eq_of_isWidth hwidth
  rw [bitLength_le_iff, hpower] at hfits
  have hword := Encodes.uint value bits
  rw [rightAligned, Bytes.length_ofNat, ← toBytes_eq_zeros_append (by omega) hfits] at hword
  rwa [contents]

theorem encodes_int {value : Word} {bits : Nat} (hvalid : (Value.int value bits).IsValid) :
    Encodes (.int value bits) (contents (.int value bits)) := by
  obtain ⟨hwidth, hfits⟩ := isValid_int.mp hvalid
  obtain ⟨hpower, hpos, hle⟩ := two_pow_eq_of_isWidth hwidth
  have hhalf : 2 * 2 ^ (bits - 1) = 2 ^ bits := by
    rw [← pow_succ', Nat.sub_add_cancel hpos]
  have htop : 2 ^ bits ≤ 2 ^ 256 := Nat.pow_le_pow_right (by decide) hle
  have hword := Encodes.int value bits
  rw [rightAligned, Bytes.length_ofNat] at hword
  rw [contents]
  rcases (fitsSigned_iff hpos hle).mp hfits with hlow | hhigh
  · -- the sign bit is clear
    have hsign : ¬ value.toInt < 0 := by
      rw [BitVec.toInt_neg_iff]
      omega
    rwa [if_neg hsign, ← toBytes_eq_zeros_append (by omega) (by omega)] at hword
  · -- the sign bit is set
    have hsign : value.toInt < 0 := by
      rw [BitVec.toInt_neg_iff]
      omega
    rwa [if_pos hsign, ← toBytes_eq_ones_append (by omega) (by omega)] at hword

theorem encodes_contents_of_mem {values : List Value} (hbound : (block values).length < 2 ^ 256)
    (hencodes : ∀ value ∈ values, value.contents.length < 2 ^ 256 → Encodes value value.contents) :
    List.Forall₂ Encodes values (values.map contents) := by
  rw [List.forall₂_map_right_iff, List.forall₂_same]
  intro value hvalue
  refine hencodes value hvalue (lt_of_le_of_lt ?_ hbound)
  exact (List.le_sum_of_mem (List.mem_map_of_mem hvalue)).trans
    (sum_length_contents_le_block values)

/-- What is written for a valid value is the layout of the value. -/
theorem encodes_contents {value : Value} (hvalid : value.IsValid)
    (hbound : value.contents.length < 2 ^ 256) : Encodes value value.contents := by
  induction value with
  | bool value =>
      have hword : contents (.bool value) = rightAligned 0 [if value then 1 else 0] := by
        cases value <;> decide
      rw [hword]
      exact Encodes.bool value
  | uint value bits => exact encodes_uint hvalid
  | int value bits => exact encodes_int hvalid
  | address value =>
      have hword := Encodes.address value
      rwa [rightAligned, Address.length_toBytes] at hword
  | fixedBytes value =>
      rw [contents, padRight_eq_leftAligned]
      exact Encodes.fixedBytes value
  | bytes value =>
      rw [contents, blob_eq]
      exact Encodes.bytes value
  | string value =>
      rw [contents, blob_eq]
      exact Encodes.string value
  | fixedArray element values ih =>
      have hvalues := fun value hvalue => ((isValid_fixedArray.mp hvalid).2 value hvalue).2
      rw [contents_fixedArray] at hbound ⊢
      exact .fixedArray (encodes_contents_of_mem hbound fun value hvalue =>
        ih value hvalue (hvalues value hvalue)) (isBlock_block hvalues hbound)
  | array element values ih =>
      have hvalues := fun value hvalue => (isValid_array.mp hvalid value hvalue).2
      rw [contents_array, List.length_append] at hbound
      have hblock : (block values).length < 2 ^ 256 := by omega
      rw [contents_array, lengthWord_eq_number]
      exact .array (encodes_contents_of_mem hblock fun value hvalue =>
        ih value hvalue (hvalues value hvalue)) (isBlock_block hvalues hblock)
  | tuple members ih =>
      have hmembers := isValid_tuple.mp hvalid
      rw [contents_tuple] at hbound ⊢
      exact .tuple (encodes_contents_of_mem hbound fun member hmember =>
        ih member hmember (hmembers member hmember)) (isBlock_block hmembers hbound)

end Value

/-- Encoded values are the call data of the layout, which no other bytes are, and a
whole number of words. -/
theorem encode_isCallData {values : List Value} {data : Bytes} (hencode : encode values = .ok data)
    (hbound : data.length < 2 ^ 63) :
    IsCallData values data ∧ (∀ bytes, IsCallData values bytes → bytes = data) ∧
      32 ∣ data.length := by
  obtain ⟨hvalid, rfl⟩ := encode_eq_ok_iff.mp hencode
  have hblock : (Value.block values).length < 2 ^ 256 := by omega
  have hdata : IsCallData values (Value.block values) :=
    ⟨values.map Value.contents,
      Value.encodes_contents_of_mem hblock fun value hvalue =>
        Value.encodes_contents (hvalid value hvalue),
      Value.isBlock_block hvalid hblock⟩
  refine ⟨hdata, fun bytes hbytes => hbytes.unique hdata, ?_⟩
  exact Value.dvd_length_block fun value _ => value.dvd_length_contents

/-- A static tuple and a byte string within a dynamic tuple, in front of a negative
number, have their call data written. -/
theorem encode_isCallData_nested :
    let values : List Value :=
      [.tuple [.tuple [.uint 7 8, .bool true], .bytes [1, 2, 3]], .int (-1) 8]
    encode values = .ok (Value.block values) ∧ (Value.block values).length < 2 ^ 63 ∧
      IsCallData values (Value.block values) ∧
      (∀ bytes, IsCallData values bytes → bytes = Value.block values) ∧
      32 ∣ (Value.block values).length := by
  intro values
  have hencode : encode values = .ok (Value.block values) := by decide +kernel
  have hbound : (Value.block values).length < 2 ^ 63 := by decide +kernel
  exact ⟨hencode, hbound, encode_isCallData hencode hbound⟩

end ChainClient.Abi
