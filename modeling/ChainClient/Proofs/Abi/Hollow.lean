import ChainClient.Proofs.Abi.Budget
import ChainClient.Proofs.Abi.Log

/-!
# Arrays whose elements have no heads

Nothing is written for a valid value of a static type without a head, so an array of any
number of them is written as its length alone. The length is read against the number of
words that follow it. Behind an array that stands alone there are none, so the data is
refused unless the array is empty. Words that follow for another reason count as well, and
with enough of them the array is read.
-/

namespace ChainClient.Abi

namespace Decoding

variable {α : Type} {data : Bytes} {position budget : Nat}

theorem Yields.unique {reading : Decoding α} {first second : α} {rest left : Nat}
    (hfirst : reading.Yields budget first rest) (hsecond : reading.Yields budget second left) :
    first = second := by
  have heq := (show reading budget = _ from hfirst).symm.trans hsecond
  exact (Prod.mk.inj (Except.ok.inj heq)).1

theorem SizeAt.unique {first second : Nat} (hfirst : SizeAt data position first)
    (hsecond : SizeAt data position second) : first = second := by
  have hread : (peekSize data position).Yields 0 first 0 := yields_peekSize.mpr ⟨hfirst, rfl⟩
  exact hread.unique (yields_peekSize.mpr ⟨hsecond, rfl⟩)

end Decoding

open Decoding

/-! ## What is refused -/

/-- Data is refused as the contents of its one value are, which stand where the first word
points to. -/
theorem decode_eq_error {data : Bytes} {type : AbiType} {offset : Nat} {error : DecodeError}
    (hdynamic : type.isDynamic = true) (hoffset : SizeAt data 0 offset)
    (hrange : offset ≤ data.length)
    (hcontents : decodeValue data type offset (data.length / Word.size) = .error error) :
    decode data [type] = .error error := by
  have hread : (type.component data).read data 0 0 (data.length / Word.size) = .error error := by
    rw [Component.read, AbiType.component, if_pos hdynamic,
      (yields_peekSize.mpr ⟨hoffset, rfl⟩).bind_eq, Nat.zero_add, if_pos hrange]
    exact hcontents
  have hmembers : decodeMembers data 0 [type] 0 (data.length / Word.size) = .error error := by
    rw [decodeMembers]
    exact bind_eq_error hread _
  rw [decode, StateT.run', hmembers]
  rfl

/-- An array is refused if its length says more than the number of words behind it. -/
theorem decodeArray_eq_error {data : Bytes} {element : AbiType} {position count budget : Nat}
    (hcount : SizeAt data position count) (hbudget : 0 < budget)
    (hlong : (data.length - (position + Word.size)) / Word.size < count) :
    decodeValue data (.array element) position budget =
      .error (.malformed (.arrayTooLong count)) := by
  obtain ⟨rest, rfl⟩ := Nat.exists_eq_add_one.mpr hbudget
  rw [decodeValue, (yields_length.mpr ⟨hcount, rfl⟩).bind_eq]
  apply bind_eq_error
  rw [checkCount, if_pos hlong]
  rfl

/-! ## What is written -/

theorem AbiType.isHeadless_iff {type : AbiType} :
    type.isHeadless = true ↔ type.isDynamic = false ∧ type.headSize? = some 0 := by
  rw [isHeadless, Bool.and_eq_true, Bool.not_eq_true', beq_iff_eq]

namespace Value

/-- Nothing is written for valid values of a type without a head. -/
theorem block_eq_nil {element : AbiType} {values : List Value}
    (helements : ∀ value ∈ values, value.type = element ∧ value.IsValid)
    (hheadless : element.isHeadless = true)
    (hbound : (block values).length < AbiType.sizeCount) : block values = [] := by
  obtain ⟨hstatic, hsize⟩ := AbiType.isHeadless_iff.mp hheadless
  have hvalid : ∀ value ∈ values, value.IsValid := fun value hvalue => (helements value hvalue).2
  have hheads := headLengths_le_block hvalid
  have hhead : ∀ value ∈ values, value.headLength = 0 := by
    intro value hvalue
    obtain ⟨htype, hvalid⟩ := helements value hvalue
    have hle := headLength_le_headLengths hvalue
    have hknown := headSize?_type hvalid (by omega)
    rw [htype, hsize] at hknown
    exact (Option.some.inj hknown).symm
  have hlength : (block values).length = headLengths values :=
    length_block_of_isStatic
      (fun value hvalue => (isDynamic_of_type_eq (helements value hvalue).1).trans hstatic)
      fun value hvalue => length_contents_of_isStatic (hvalid value hvalue)
  rw [← List.length_eq_zero_iff, hlength, headLengths_eq_mul hhead, Nat.zero_mul]

/-- What is written for an array of so many elements if nothing is written for them: the
offset of its contents and its length. -/
def announcement (count : Nat) : Bytes :=
  lengthWord Word.size ++ lengthWord count

theorem block_array (element : AbiType) (values : List Value) :
    block [.array element values] = announcement values.length ++ block values := by
  rw [block_eq_append, place_cons_of_isDynamic rfl, contents_array, announcement,
    List.append_assoc]
  simp [place, headLengths, headLength]

theorem length_announcement_append (count : Nat) (extra : Bytes) :
    (announcement count ++ extra).length = Word.size + Word.size + extra.length := by
  simp [announcement, Nat.add_assoc]

end Value

/-! ## What is read -/

section Reading

variable {data : Bytes} {position budget : Nat} {element : AbiType} {values : List Value}

/-- The array is read where its length stands if as many words follow. The elements are
paid for one by one and pay nothing themselves. -/
theorem yields_decodeArray_of_isHeadless
    (helements : ∀ value ∈ values, value.type = element ∧ value.IsValid)
    (hheadless : element.isHeadless = true) (hbound : data.length < AbiType.sizeCount)
    (hblock : Value.block values = []) (hcount : SizeAt data position values.length)
    (hend : position + Word.size ≤ data.length)
    (hroom : values.length ≤ (data.length - (position + Word.size)) / Word.size) :
    (decodeValue data (.array element) position).Yields (budget + (1 + values.length))
      (.array element values) budget := by
  obtain ⟨hstatic, hsize⟩ := AbiType.isHeadless_iff.mp hheadless
  have hplain : ∀ value ∈ values, value.isSolid = true ∧ value.isMeasured = true := by
    intro value hvalue
    obtain ⟨htype, hvalid⟩ := helements value hvalue
    exact Value.isSolid_and_isMeasured_of_isStatic hvalid
      ((Value.isDynamic_of_type_eq htype).trans hstatic)
  have hempty : ∀ value ∈ values, value.contents.length = 0 := by
    intro value hvalue
    have hle := Value.length_contents_le_block hvalue
    rwa [hblock, List.length_nil, Nat.le_zero] at hle
  have hweights : Value.weights values = 0 := by
    have hle : Word.size * Value.weights values ≤ (Value.block values).length :=
      Value.mul_weights_le_length_block fun value hvalue =>
        Value.mul_weight_le_length_contents (helements value hvalue).2 (hplain value hvalue).1
          (by rw [hempty value hvalue]; decide)
    rw [hblock, List.length_nil, Word.size] at hle
    omega
  have hat : Bytes.At data (position + Word.size) (Value.block values) := by
    rw [hblock]
    exact ⟨hend, List.nil_prefix⟩
  have hmembers : (decodeMembers data (position + Word.size) (Value.types values)
      (position + Word.size)).Yields (budget + Value.weights values) values budget :=
    yields_decodeMembers_block (fun value hvalue => (helements value hvalue).2) hbound
      (fun value hvalue => yields_decodeValue_of_at (helements value hvalue).2
        (hplain value hvalue).1 (hplain value hvalue).2 hbound) hat
  rw [Value.types_eq_replicate fun value hvalue => (helements value hvalue).1, hweights,
    Nat.add_zero] at hmembers
  exact yields_decodeArray.mpr ⟨values.length, values, budget, hcount, hroom,
    by rw [hsize, Option.isSome_some], hmembers, rfl, by rw [if_pos hheadless]⟩

/-- A decoded array stands where the first word points to and has no more elements than
words follow its length. -/
theorem length_le_of_decode {offset : Nat} (hoffset : SizeAt data 0 offset)
    (hdecode : decode data [.array element] = .ok [.array element values]) :
    values.length ≤ (data.length - (offset + Word.size)) / Word.size := by
  obtain ⟨rest, hvalues⟩ := decode_eq_ok_iff.mp hdecode
  obtain ⟨position, value, middle, _, _, hposition, hvalue, -, -, hcons⟩ :=
    yields_decodeMembers_cons.mp hvalues
  obtain ⟨rfl, -⟩ := List.cons.inj hcons
  obtain ⟨start, hstart, rfl, -⟩ := hposition
  obtain ⟨count, others, _, -, hroom, -, hothers, hvalue, -⟩ := yields_decodeArray.mp hvalue
  obtain ⟨-, rfl⟩ := Value.array.inj hvalue
  have hcount := length_of_yields_decodeMembers hothers
  rw [List.length_replicate] at hcount
  rwa [hcount, ← hstart.unique hoffset, ← Nat.zero_add start]

end Reading

/-! ## Lengths with nothing behind them -/

section Announced

variable {element : AbiType} {values : List Value} {count : Nat}

theorem sizeAt_offset_announcement (count : Nat) (extra : Bytes) :
    SizeAt (Value.announcement count ++ extra) 0 Word.size :=
  sizeAt_of_at_lengthWord (by decide) ((Bytes.At.start _).append extra).left

theorem sizeAt_length_announcement (hcount : count < AbiType.sizeCount) (extra : Bytes) :
    SizeAt (Value.announcement count ++ extra) Word.size count := by
  have hat := ((Bytes.At.start (Value.announcement count)).append extra).right
  rw [Value.length_lengthWord, Nat.zero_add] at hat
  exact sizeAt_of_at_lengthWord hcount hat

/-- Elements without heads are read behind their number exactly if as many words follow it. -/
theorem decode_announcement_iff (extra : Bytes)
    (helements : ∀ value ∈ values, value.type = element ∧ value.IsValid)
    (hheadless : element.isHeadless = true) (hblock : Value.block values = [])
    (hbound : (Value.announcement values.length ++ extra).length < AbiType.sizeCount) :
    decode (Value.announcement values.length ++ extra) [.array element] =
        .ok [.array element values] ↔
      values.length ≤ extra.length / Word.size := by
  have hoffset := sizeAt_offset_announcement values.length extra
  have hlength := Value.length_announcement_append values.length extra
  constructor
  · intro hdecode
    have hle := length_le_of_decode hoffset hdecode
    rwa [hlength, Nat.add_sub_cancel_left] at hle
  · intro hroom
    obtain ⟨rest, hbudget⟩ :
        ∃ rest, (Value.announcement values.length ++ extra).length / Word.size =
          rest + (1 + values.length) := by
      refine Nat.exists_eq_add_of_le' ?_
      rw [hlength]
      simp only [Word.size] at hroom ⊢
      omega
    have hcount : values.length < AbiType.sizeCount := by
      rw [hlength] at hbound
      exact (hroom.trans (Nat.div_le_self _ _)).trans_lt (by omega)
    have harray : (decodeValue (Value.announcement values.length ++ extra) (.array element)
        Word.size).Yields (rest + (1 + values.length)) (.array element values) rest :=
      yields_decodeArray_of_isHeadless helements hheadless hbound hblock
        (sizeAt_length_announcement hcount extra) (by omega)
        (by rwa [hlength, Nat.add_sub_cancel_left])
    refine decode_eq_ok_iff.mpr ⟨rest, ?_⟩
    rw [hbudget]
    exact yields_decodeMembers_cons.mpr ⟨Word.size, .array element values, rest, Word.size, [],
      ⟨Word.size, hoffset, (Nat.zero_add _).symm, by omega⟩, harray, (Nat.zero_add _).symm,
      yields_decodeMembers_nil.mpr ⟨rfl, rfl⟩, rfl⟩

/-- A number of elements is refused if it is larger than the number of words that follow it. -/
theorem decode_announcement_eq_error {extra : Bytes} (hcount : count < AbiType.sizeCount)
    (hlong : extra.length / Word.size < count) :
    decode (Value.announcement count ++ extra) [.array element] =
      .error (.malformed (.arrayTooLong count)) := by
  have hlength := Value.length_announcement_append count extra
  refine decode_eq_error rfl (sizeAt_offset_announcement count extra) (by omega) ?_
  refine decodeArray_eq_error (sizeAt_length_announcement hcount extra) ?_ ?_
  · rw [hlength]
    simp only [Word.size]
    omega
  · rwa [hlength, Nat.add_sub_cancel_left]

end Announced

/-- An encoded array whose elements have no heads is decoded to itself only if it is empty.
With data behind it that does not belong to it, it is decoded exactly if that data has a word
for every element; otherwise it is refused as too long. -/
theorem decode_array_headless_iff {element : AbiType} {values : List Value} {data : Bytes}
    (hstatic : element.isDynamic = false) (hsize : element.headSize? = some 0)
    (hencode : encode [.array element values] = .ok data) (hbound : data.length < 2 ^ 63) :
    (decode data [.array element] = .ok [.array element values] ↔ values = []) ∧
    ∀ extra : Bytes, (data ++ extra).length < 2 ^ 63 →
      (decode (data ++ extra) [.array element] = .ok [.array element values] ↔
        values.length ≤ extra.length / Word.size) ∧
      (extra.length / Word.size < values.length → values.length < AbiType.sizeCount →
        decode (data ++ extra) [.array element] =
          .error (.malformed (.arrayTooLong values.length))) := by
  have hheadless := AbiType.isHeadless_iff.mpr ⟨hstatic, hsize⟩
  obtain ⟨hvalid, rfl⟩ := encode_eq_ok_iff.mp hencode
  have helements := Value.isValid_array.mp (hvalid _ List.mem_cons_self)
  rw [Value.block_array] at hbound ⊢
  have hblock : Value.block values = [] := by
    refine Value.block_eq_nil helements hheadless ?_
    rw [List.length_append] at hbound
    exact (Nat.le_add_left _ _).trans_lt (hbound.trans (by decide))
  rw [hblock, List.append_nil] at hbound ⊢
  refine ⟨?_, fun extra hextra => ⟨?_, fun hlong hcount => ?_⟩⟩
  · have hiff := decode_announcement_iff [] helements hheadless hblock
      (by rw [List.append_nil]; exact hbound.trans (by decide))
    rwa [List.append_nil, List.length_nil, Nat.zero_div, Nat.le_zero,
      List.length_eq_zero_iff] at hiff
  · exact decode_announcement_iff extra helements hheadless hblock (hextra.trans (by decide))
  · exact decode_announcement_eq_error hcount hlong

/-- Two elements are missed behind their number and read where two words follow it. -/
theorem decode_array_headless_iff_pair :
    let element : AbiType := .tuple [.fixedArray (.tuple []) 2]
    let pair : Value := .tuple [.fixedArray (.tuple []) [.tuple [], .tuple []]]
    let data := Value.announcement 2
    encode [.array element [pair, pair]] = .ok data ∧
      decode data [.array element] = .error (.malformed (.arrayTooLong 2)) ∧
      decode (data ++ Bytes.zeros 64) [.array element] = .ok [.array element [pair, pair]] := by
  intro element pair data
  have hencode : encode [.array element [pair, pair]] = .ok data := by decide +kernel
  obtain ⟨-, hextra⟩ := decode_array_headless_iff (by decide +kernel) (by decide +kernel) hencode
    (by decide +kernel)
  have hrefused := (hextra [] (by decide +kernel)).2 (by decide) (by decide)
  have hread := (hextra (Bytes.zeros 64) (by decide +kernel)).1.mpr (by decide +kernel)
  rw [List.append_nil] at hrefused
  exact ⟨hencode, hrefused, hread⟩

/-- An array of one empty tuple is encoded and refused. -/
theorem decode_ne_of_encode_array :
    ¬ ∀ {element : AbiType} {values : List Value} {data : Bytes},
      element.isDynamic = false → element.headSize? = some 0 →
      encode [.array element values] = .ok data →
      decode data [.array element] = .ok [.array element values] := by
  intro hclaim
  have hencode : encode [.array (.tuple []) [.tuple []]] = .ok (Value.announcement 1) := by
    decide +kernel
  have hdecode := hclaim (by decide +kernel) (by decide +kernel) hencode
  revert hdecode
  decide +kernel

end ChainClient.Abi
