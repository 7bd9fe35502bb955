import Mathlib.Algebra.BigOperators.Ring.List
import ChainClient.Proofs.Abi.Reading
import ChainClient.Proofs.Abi.Size

/-!
# Decoding what was encoded

A valid value is read back wherever its contents stand in the data, and reading it
pays its weight. A block holds at least the weight of its values, so the budget of
a block is enough to read it. Both need that no array has elements of a hollow
type: such elements are paid for, but nothing is written for them. The reader also
needs the elements of every array to have a size.
-/

namespace ChainClient.Abi

open Decoding

namespace Value

/-! ## Elements have heads -/

/-- A valid static value without a head is built of empty tuples only. -/
theorem isHollow_of_headLength_eq_zero {value : Value} (hvalid : value.IsValid)
    (hstatic : value.isDynamic = false) (hzero : value.headLength = 0) :
    value.type.isHollow = true := by
  induction value with
  | fixedArray element values ih =>
      -- the type of the elements is known from any of them, and there is one
      obtain ⟨hnonempty, helements⟩ := isValid_fixedArray.mp hvalid
      obtain ⟨value, hvalue⟩ := List.exists_mem_of_ne_nil values hnonempty
      obtain ⟨htype, hvalid⟩ := helements value hvalue
      rw [isDynamic] at hstatic
      rw [headLength, hstatic, if_neg Bool.false_ne_true] at hzero
      have hle := headLength_le_headLengths hvalue
      have helement : value.type.isHollow = true :=
        ih value hvalue hvalid (by rw [isDynamic_of_type_eq htype, hstatic]) (by omega)
      rwa [type, AbiType.isHollow, ← htype]
  | tuple members ih =>
      have hmembers := isValid_tuple.mp hvalid
      rw [isDynamic] at hstatic
      rw [headLength, hstatic, if_neg Bool.false_ne_true] at hzero
      rw [type, AbiType.isHollow, AbiType.areHollow_iff, types_eq_map]
      intro type htype
      obtain ⟨member, hmember, rfl⟩ := List.mem_map.mp htype
      have hle := headLength_le_headLengths hmember
      exact ih member hmember (hmembers member hmember) (isDynamic_of_mem hstatic hmember)
        (by omega)
  | bytes value => simp [isDynamic] at hstatic
  | string value => simp [isDynamic] at hstatic
  | array element values => simp [isDynamic] at hstatic
  | _ => simp [headLength, Word.size] at hzero

/-- The head of a value is at least a word, unless its type is hollow. -/
theorem size_le_headLength {value : Value} (hvalid : value.IsValid)
    (hhollow : value.type.isHollow = false) : Word.size ≤ value.headLength := by
  cases hdynamic : value.isDynamic with
  | true => exact Nat.le_of_eq (headLength_of_isDynamic hdynamic).symm
  | false =>
      have hnonzero : value.headLength ≠ 0 := by
        intro hzero
        rw [isHollow_of_headLength_eq_zero hvalid hdynamic hzero] at hhollow
        exact Bool.noConfusion hhollow
      have hwords := dvd_length_contents value
      rw [length_contents_of_isStatic hvalid hdynamic] at hwords
      exact Nat.le_of_dvd (Nat.pos_of_ne_zero hnonzero) hwords

theorem isHeadless_type {value : Value} (hvalid : value.IsValid)
    (hhollow : value.type.isHollow = false) (hbound : value.headLength < AbiType.sizeCount) :
    value.type.isHeadless = false := by
  have hsize := headSize?_type hvalid hbound
  have hhead := size_le_headLength hvalid hhollow
  have hnonzero : value.headLength ≠ 0 := by
    rw [Word.size] at hhead
    omega
  rw [AbiType.isHeadless, hsize, Bool.and_eq_false_iff]
  exact Or.inr (by simpa using hnonzero)

theorem mul_length_le_headLengths {element : AbiType} {values : List Value}
    (helements : ∀ value ∈ values, value.type = element ∧ value.IsValid)
    (hhollow : element.isHollow = false) :
    Word.size * values.length ≤ headLengths values := by
  have hheads : ∀ value ∈ values, Word.size ≤ value.headLength := by
    intro value hvalue
    obtain ⟨htype, hvalid⟩ := helements value hvalue
    exact size_le_headLength hvalid (by rw [htype, hhollow])
  have hsum := List.sum_le_sum hheads
  rwa [List.map_const', List.sum_replicate_nat, Nat.mul_comm, ← headLengths_eq_sum] at hsum

/-! ## The budget of a block is enough -/

theorem length_contents_le_block {values : List Value} {value : Value} (hvalue : value ∈ values) :
    value.contents.length ≤ (block values).length :=
  (List.le_sum_of_mem (List.mem_map_of_mem hvalue)).trans (sum_length_contents_le_block values)

theorem headLengths_le_block {values : List Value} (hvalid : ∀ value ∈ values, value.IsValid) :
    headLengths values ≤ (block values).length := by
  rw [block_eq_append, List.length_append, length_heads hvalid]
  exact Nat.le_add_right _ _

theorem mul_weights_le_length_block {values : List Value}
    (hle : ∀ value ∈ values, Word.size * value.weight ≤ value.contents.length) :
    Word.size * weights values ≤ (block values).length := by
  rw [weights_eq_sum, ← List.sum_map_mul_left]
  exact (List.sum_le_sum hle).trans (sum_length_contents_le_block values)

/-- Elements of a solid array are not paid for beyond their weight. -/
theorem surcharge_eq_zero {element : AbiType} {values : List Value}
    (helements : ∀ value ∈ values, value.type = element ∧ value.IsValid)
    (hsolid : (values.isEmpty || !element.isHollow) = true)
    (hbound : headLengths values < AbiType.sizeCount) :
    (if element.isHeadless then values.length else 0) = 0 := by
  cases values with
  | nil => simp
  | cons value values =>
      obtain ⟨htype, hvalid⟩ := helements value List.mem_cons_self
      have hhollow : element.isHollow = false := by simpa using hsolid
      rw [headLengths] at hbound
      have hheadless := isHeadless_type hvalid (by rw [htype, hhollow]) (by omega)
      rw [← htype, hheadless, if_neg Bool.false_ne_true]

/-- A solid value is written in at least as many words as it weighs. -/
theorem mul_weight_le_length_contents {value : Value} (hvalid : value.IsValid)
    (hsolid : value.isSolid = true) (hbound : value.contents.length < AbiType.sizeCount) :
    Word.size * value.weight ≤ value.contents.length := by
  induction value with
  | bool value => simp [contents, weight]
  | uint value bits => simp [contents, weight, Word.size]
  | int value bits => simp [contents, weight, Word.size]
  | address value => simp [contents, weight, Word.size]
  | fixedBytes value =>
      rw [length_contents_of_isStatic hvalid rfl]
      exact Nat.le_refl _
  | bytes value =>
      rw [contents, length_blob]
      exact Nat.le_refl _
  | string value =>
      rw [contents, length_blob]
      exact Nat.le_refl _
  | fixedArray element values ih =>
      obtain ⟨-, helements⟩ := isValid_fixedArray.mp hvalid
      rw [isSolid, areSolid_iff] at hsolid
      rw [contents_fixedArray] at hbound
      rw [contents_fixedArray, weight]
      refine mul_weights_le_length_block fun value hvalue => ?_
      exact ih value hvalue (helements value hvalue).2 (hsolid value hvalue)
        ((length_contents_le_block hvalue).trans_lt hbound)
  | array element values ih =>
      have helements := isValid_array.mp hvalid
      rw [isSolid, Bool.and_eq_true, areSolid_iff] at hsolid
      obtain ⟨hhollow, hsolid⟩ := hsolid
      rw [contents_array, List.length_append] at hbound
      -- the word of the length stands for the array itself
      have hheads := headLengths_le_block fun value hvalue => (helements value hvalue).2
      have hblock : Word.size * weights values ≤ (block values).length := by
        refine mul_weights_le_length_block fun value hvalue => ?_
        have hle := length_contents_le_block hvalue
        exact ih value hvalue (helements value hvalue).2 (hsolid value hvalue) (by omega)
      rw [contents_array, List.length_append, length_lengthWord, weight,
        surcharge_eq_zero helements hhollow (by omega), Nat.add_zero, Nat.mul_add, Nat.mul_one]
      exact Nat.add_le_add_left hblock _
  | tuple members ih =>
      have hmembers := isValid_tuple.mp hvalid
      rw [isSolid, areSolid_iff] at hsolid
      rw [contents_tuple] at hbound
      rw [contents_tuple, weight]
      refine mul_weights_le_length_block fun member hmember => ?_
      exact ih member hmember (hmembers member hmember) (hsolid member hmember)
        ((length_contents_le_block hmember).trans_lt hbound)

end Value

/-! ## Reading what was written -/

section Reading

variable {data : Bytes} {position start cursor offset budget : Nat}

theorem toNat_lengthWord {number : Nat} (hbound : number < 2 ^ 256) :
    Bytes.toNat (Value.lengthWord number) = number := by
  rw [Value.lengthWord, Word.toBytes, BitVec.toNat_ofNat, Nat.mod_eq_of_lt hbound]
  exact Bytes.toNat_ofNat_of_lt (by rw [Word.size]; exact hbound)

theorem sizeAt_of_at_lengthWord {number : Nat} (hbound : number < AbiType.sizeCount)
    (hat : Bytes.At data position (Value.lengthWord number)) : SizeAt data position number :=
  ⟨hbound, Value.lengthWord number, ⟨Value.length_lengthWord number, hat⟩,
    toNat_lengthWord (hbound.trans (by decide))⟩

theorem blobAt_of_at_blob {body : Bytes} (hbound : data.length < AbiType.sizeCount)
    (hat : Bytes.At data position (Value.blob body)) : BlobAt data position body := by
  have hbody := hat.right
  rw [Value.length_lengthWord, Value.padRight] at hbody
  have hend := hbody.left.end_le
  exact ⟨sizeAt_of_at_lengthWord (by omega) hat.left, hbody.left⟩

/-- Where the first value of a placed block is found, and where the others are placed. -/
theorem exists_placed {value : Value} {values : List Value} (hvalid : value.IsValid)
    (hbound : data.length < AbiType.sizeCount)
    (hheads : Bytes.At data cursor (Value.place offset (value :: values)).1)
    (htails : Bytes.At data (start + offset) (Value.place offset (value :: values)).2) :
    ∃ position next later, (value.type.component data).Locates data start cursor position ∧
      Bytes.At data position value.contents ∧
      (value.type.component data).Advances cursor next ∧
      Bytes.At data next (Value.place later values).1 ∧
      Bytes.At data (start + later) (Value.place later values).2 := by
  cases hdynamic : value.isDynamic with
  | true =>
      -- the head is the offset of the contents, which are the first tail
      rw [Value.place_cons_of_isDynamic hdynamic] at hheads htails
      have hnext := hheads.right
      have hlater := htails.right
      have hend := htails.left.end_le
      rw [Value.length_lengthWord] at hnext
      rw [Nat.add_assoc] at hlater
      refine ⟨start + offset, cursor + Word.size, offset + value.contents.length, ?_, htails.left,
        ?_, hnext, hlater⟩
      · simp only [Component.Locates, AbiType.component, Value.isDynamic_type, hdynamic, if_true]
        exact ⟨offset, sizeAt_of_at_lengthWord (by omega) hheads.left, rfl, by omega⟩
      · simp only [Component.Advances, AbiType.component, Value.isDynamic_type, hdynamic, if_true]
  | false =>
      -- the head is the value itself
      rw [Value.place_cons_of_isStatic hdynamic] at hheads htails
      have hend := hheads.left.end_le
      have hhead := Value.length_contents_of_isStatic hvalid hdynamic
      have hsize := Value.headSize?_type hvalid (by omega)
      refine ⟨cursor, cursor + value.contents.length, offset, ?_, hheads.left, ?_, hheads.right,
        htails⟩
      · simp only [Component.Locates, AbiType.component, Value.isDynamic_type, hdynamic,
          Bool.false_eq_true, if_false]
      · simp only [Component.Advances, AbiType.component, Value.isDynamic_type, hdynamic,
          Bool.false_eq_true, if_false]
        exact ⟨value.headLength, hsize, by rw [hhead], by omega⟩

/-- A block is read where its heads and its tails stand, if each of its values is
read where its contents stand. -/
theorem yields_decodeMembers_place {values : List Value}
    (hvalid : ∀ value ∈ values, value.IsValid) (hbound : data.length < AbiType.sizeCount)
    (hread : ∀ value ∈ values, ∀ {position budget}, Bytes.At data position value.contents →
      (decodeValue data value.type position).Yields (budget + value.weight) value budget)
    (hheads : Bytes.At data cursor (Value.place offset values).1)
    (htails : Bytes.At data (start + offset) (Value.place offset values).2) :
    (decodeMembers data start (Value.types values) cursor).Yields
      (budget + Value.weights values) values budget := by
  induction values generalizing cursor offset budget with
  | nil => exact yields_decodeMembers_nil.mpr ⟨rfl, rfl⟩
  | cons value values ih =>
      obtain ⟨position, next, later, hposition, hcontents, hnext, hheads, htails⟩ :=
        exists_placed (hvalid value List.mem_cons_self) hbound hheads htails
      have hpaid : budget + Value.weights (value :: values) =
          budget + Value.weights values + value.weight := by
        rw [Value.weights]
        omega
      rw [hpaid]
      refine yields_decodeMembers_cons.mpr ⟨position, value, budget + Value.weights values, next,
        values, hposition, hread value List.mem_cons_self hcontents, hnext, ?_, rfl⟩
      exact ih (fun other hother => hvalid other (List.mem_cons_of_mem _ hother))
        (fun other hother => hread other (List.mem_cons_of_mem _ hother)) hheads htails

theorem yields_decodeMembers_block {values : List Value}
    (hvalid : ∀ value ∈ values, value.IsValid) (hbound : data.length < AbiType.sizeCount)
    (hread : ∀ value ∈ values, ∀ {position budget}, Bytes.At data position value.contents →
      (decodeValue data value.type position).Yields (budget + value.weight) value budget)
    (hat : Bytes.At data position (Value.block values)) :
    (decodeMembers data position (Value.types values) position).Yields
      (budget + Value.weights values) values budget := by
  rw [Value.block_eq_append] at hat
  have htails := hat.right
  rw [Value.length_heads hvalid] at htails
  exact yields_decodeMembers_place hvalid hbound hread hat.left htails

/-- Behind the length of an array that is written there is room for its elements, because
each has a head. -/
theorem length_le_room {element : AbiType} {values : List Value}
    (helements : ∀ value ∈ values, value.type = element ∧ value.IsValid)
    (hhollow : (values.isEmpty || !element.isHollow) = true)
    (hat : Bytes.At data position (Value.block values)) :
    values.length ≤ (data.length - position) / Word.size := by
  have hend := hat.end_le
  have hheads := Value.headLengths_le_block fun value hvalue => (helements value hvalue).2
  have hroom : Word.size * values.length ≤ Value.headLengths values := by
    cases values with
    | nil => exact Nat.zero_le _
    | cons value values =>
        exact Value.mul_length_le_headLengths helements (by simpa using hhollow)
  simp only [Word.size] at hroom ⊢
  omega

/-- An array that is written is found by its length and the block of its elements. -/
theorem exists_array_at {element : AbiType} {values : List Value}
    (helements : ∀ value ∈ values, value.type = element ∧ value.IsValid)
    (hhollow : (values.isEmpty || !element.isHollow) = true)
    (hbound : data.length < AbiType.sizeCount)
    (hat : Bytes.At data position (Value.array element values).contents) :
    SizeAt data position values.length ∧
      values.length ≤ (data.length - (position + Word.size)) / Word.size ∧
      Bytes.At data (position + Word.size) (Value.block values) ∧
      (if element.isHeadless then values.length else 0) = 0 := by
  rw [Value.contents_array] at hat
  have hblock := hat.right
  rw [Value.length_lengthWord] at hblock
  have hroom := length_le_room helements hhollow hblock
  have hend := hblock.end_le
  have hheads := Value.headLengths_le_block fun value hvalue => (helements value hvalue).2
  simp only [Word.size] at hroom hend
  exact ⟨sizeAt_of_at_lengthWord (by omega) hat.left, hroom, hblock,
    Value.surcharge_eq_zero helements hhollow (by omega)⟩

/-- A valid value is read where its contents stand, and reading it pays its weight. -/
theorem yields_decodeValue_of_at {value : Value} (hvalid : value.IsValid)
    (hsolid : value.isSolid = true) (hmeasured : value.isMeasured = true)
    (hbound : data.length < AbiType.sizeCount)
    (hat : Bytes.At data position value.contents) :
    (decodeValue data value.type position).Yields (budget + value.weight) value budget := by
  induction value generalizing position budget with
  | bool value =>
      rw [Value.contents] at hat
      refine yields_decodeBool.mpr ⟨_, value, ⟨Value.length_lengthWord _, hat⟩, ?_, rfl, rfl⟩
      exact toNat_lengthWord (value.toNat_lt.trans (by decide))
  | uint value bits =>
      rw [Value.contents] at hat
      obtain ⟨-, hbits⟩ := Value.isValid_uint.mp hvalid
      refine yields_decodeUint.mpr ⟨_, ⟨Word.length_toBytes value, hat⟩, ?_⟩
      rw [Word.ofBytes_toBytes]
      exact ⟨hbits, rfl, rfl⟩
  | int value bits =>
      rw [Value.contents] at hat
      obtain ⟨hwidth, hbits⟩ := Value.isValid_int.mp hvalid
      refine yields_decodeInt.mpr ⟨_, ⟨Word.length_toBytes value, hat⟩, ?_⟩
      rw [Word.ofBytes_toBytes]
      have hnonzero : bits ≠ 0 := by
        rintro rfl
        cases hwidth
      exact ⟨⟨hnonzero, hbits⟩, rfl, rfl⟩
  | address value =>
      have hlength := Value.length_contents_of_isStatic hvalid rfl
      refine yields_decodeAddress.mpr ⟨_, ⟨hlength, hat⟩, ?_⟩
      have hzeros : (Bytes.zeros 12).length = 12 := Bytes.length_zeros 12
      rw [Value.contents, List.take_left' hzeros, List.drop_left' hzeros,
        Address.ofLastBytes_toBytes]
      exact ⟨Bytes.areZero_iff.mpr (by rw [hzeros]), rfl, rfl⟩
  | fixedBytes value =>
      obtain ⟨-, hle⟩ := Value.isValid_fixedBytes.mp hvalid
      have hlength := Value.length_contents_of_isStatic hvalid rfl
      refine yields_decodeFixedBytes.mpr ⟨_, ⟨hlength, hat⟩, hle, ?_⟩
      rw [Value.contents, Value.padRight, List.take_left, List.drop_left]
      exact ⟨Bytes.areZero_iff.mpr (by rw [Bytes.length_zeros]), rfl, rfl⟩
  | bytes value =>
      rw [Value.contents] at hat
      exact yields_decodeBytes.mpr ⟨value, blobAt_of_at_blob hbound hat, rfl, rfl⟩
  | string value =>
      rw [Value.contents] at hat
      exact yields_decodeString.mpr ⟨value, blobAt_of_at_blob hbound hat, rfl, rfl⟩
  | fixedArray element values ih =>
      obtain ⟨-, helements⟩ := Value.isValid_fixedArray.mp hvalid
      rw [Value.isSolid, Value.areSolid_iff] at hsolid
      rw [Value.isMeasured, Value.areMeasured_iff] at hmeasured
      rw [Value.contents_fixedArray] at hat
      refine yields_decodeFixedArray.mpr ⟨values, ?_, rfl⟩
      rw [← Value.types_eq_replicate fun value hvalue => (helements value hvalue).1]
      exact yields_decodeMembers_block (fun value hvalue => (helements value hvalue).2) hbound
        (fun value hvalue => ih value hvalue (helements value hvalue).2 (hsolid value hvalue)
          (hmeasured value hvalue)) hat
  | array element values ih =>
      have helements := Value.isValid_array.mp hvalid
      rw [Value.isSolid, Bool.and_eq_true, Value.areSolid_iff] at hsolid
      obtain ⟨hhollow, hsolid⟩ := hsolid
      rw [Value.isMeasured, Bool.and_eq_true, Value.areMeasured_iff] at hmeasured
      obtain ⟨hsize, hmeasured⟩ := hmeasured
      obtain ⟨hlength, hroom, hblock, -⟩ := exists_array_at helements hhollow hbound hat
      refine yields_decodeArray.mpr ⟨values.length, values, budget + Value.weights values,
        hlength, hroom, hsize, ?_, rfl, ?_⟩
      · rw [← Value.types_eq_replicate fun value hvalue => (helements value hvalue).1]
        exact yields_decodeMembers_block (fun value hvalue => (helements value hvalue).2) hbound
          (fun value hvalue => ih value hvalue (helements value hvalue).2 (hsolid value hvalue)
            (hmeasured value hvalue)) hblock
      · rw [Value.weight]
        omega
  | tuple members ih =>
      have hmembers := Value.isValid_tuple.mp hvalid
      rw [Value.isSolid, Value.areSolid_iff] at hsolid
      rw [Value.isMeasured, Value.areMeasured_iff] at hmeasured
      rw [Value.contents_tuple] at hat
      refine yields_decodeTuple.mpr ⟨members, ?_, rfl⟩
      exact yields_decodeMembers_block hmembers hbound
        (fun member hmember => ih member hmember (hmembers member hmember)
          (hsolid member hmember) (hmeasured member hmember)) hat

end Reading

/-- The words of data that begins with a block are enough to pay for its values. -/
theorem exists_budget {values : List Value} (extra : Bytes)
    (hvalid : ∀ value ∈ values, value.IsValid) (hsolid : ∀ value ∈ values, value.isSolid = true)
    (hbound : (Value.block values).length < AbiType.sizeCount) :
    ∃ rest, (Value.block values ++ extra).length / Word.size = rest + Value.weights values := by
  have henough : Word.size * Value.weights values ≤ (Value.block values).length :=
    Value.mul_weights_le_length_block fun value hvalue =>
      Value.mul_weight_le_length_contents (hvalid value hvalue) (hsolid value hvalue)
        ((Value.length_contents_le_block hvalue).trans_lt hbound)
  refine ⟨(Value.block values ++ extra).length / Word.size - Value.weights values, ?_⟩
  simp only [Word.size, List.length_append] at henough ⊢
  omega

/-- The block of valid values is decoded to them, whatever stands behind it. -/
theorem decode_block_append {values : List Value} (extra : Bytes)
    (hvalid : ∀ value ∈ values, value.IsValid) (hsolid : ∀ value ∈ values, value.isSolid = true)
    (hmeasured : ∀ value ∈ values, value.isMeasured = true)
    (hbound : (Value.block values ++ extra).length < AbiType.sizeCount) :
    decode (Value.block values ++ extra) (values.map Value.type) = .ok values := by
  have hblock : (Value.block values).length < AbiType.sizeCount := by
    rw [List.length_append] at hbound
    omega
  obtain ⟨rest, hrest⟩ := exists_budget extra hvalid hsolid hblock
  refine decode_eq_ok_iff.mpr ⟨rest, ?_⟩
  rw [← Value.types_eq_map, hrest]
  exact yields_decodeMembers_block hvalid hbound
    (fun value hvalue => yields_decodeValue_of_at (hvalid value hvalue) (hsolid value hvalue)
      (hmeasured value hvalue) hbound) ((Bytes.At.start (Value.block values)).append extra)

theorem decode_block {values : List Value} (hvalid : ∀ value ∈ values, value.IsValid)
    (hsolid : ∀ value ∈ values, value.isSolid = true)
    (hmeasured : ∀ value ∈ values, value.isMeasured = true)
    (hbound : (Value.block values).length < AbiType.sizeCount) :
    decode (Value.block values) (values.map Value.type) = .ok values := by
  have hdecode := decode_block_append [] hvalid hsolid hmeasured (by rwa [List.append_nil])
  rwa [List.append_nil] at hdecode

end ChainClient.Abi
