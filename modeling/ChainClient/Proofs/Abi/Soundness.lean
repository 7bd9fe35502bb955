import ChainClient.Proofs.Abi.Budget
import ChainClient.Proofs.Abi.RoundTrip
import ChainClient.Proofs.Abi.WellFormed

/-!
# Decoded values are valid

Whatever the offsets in the data are, values of well-formed types that are decoded
from it have these types and are valid. So they can be encoded, and what is encoded
is decoded to the same values although it may differ from the data.
-/

namespace ChainClient.Abi

open Decoding

variable {data : Bytes} {start cursor position budget rest : Nat}

/-- If each component of a block has its type and is valid, so have all of them. -/
theorem types_of_yields_decodeMembers {types : List AbiType} {values : List Value}
    (hmembers : ∀ type ∈ types, ∀ {position budget value rest},
      (decodeValue data type position).Yields budget value rest →
        value.type = type ∧ value.IsValid)
    (hvalues : (decodeMembers data start types cursor).Yields budget values rest) :
    Value.types values = types ∧ ∀ value ∈ values, value.IsValid := by
  induction types generalizing cursor budget values with
  | nil =>
      obtain ⟨rfl, -⟩ := yields_decodeMembers_nil.mp hvalues
      exact ⟨rfl, by simp⟩
  | cons type types ih =>
      obtain ⟨position, value, middle, next, others, -, hvalue, -, hothers, rfl⟩ :=
        yields_decodeMembers_cons.mp hvalues
      obtain ⟨htype, hvalid⟩ := hmembers type List.mem_cons_self hvalue
      obtain ⟨htypes, hvalids⟩ := ih
        (fun other hother => hmembers other (List.mem_cons_of_mem _ hother)) hothers
      exact ⟨by rw [Value.types, htype, htypes], List.forall_mem_cons.mpr ⟨hvalid, hvalids⟩⟩

/-- If an element has its type and is valid, so have all elements of an array, and
there are as many as were asked for. -/
theorem elements_of_yields_decodeMembers {element : AbiType} {count : Nat} {values : List Value}
    (helement : ∀ {position budget value rest},
      (decodeValue data element position).Yields budget value rest →
        value.type = element ∧ value.IsValid)
    (hvalues : (decodeMembers data start (List.replicate count element) cursor).Yields
      budget values rest) :
    values.length = count ∧ ∀ value ∈ values, value.type = element ∧ value.IsValid := by
  have hmembers : ∀ type ∈ List.replicate count element, ∀ {position budget value rest},
      (decodeValue data type position).Yields budget value rest →
        value.type = type ∧ value.IsValid := by
    intro type htype
    obtain rfl := List.eq_of_mem_replicate htype
    exact helement
  obtain ⟨htypes, hvalids⟩ := types_of_yields_decodeMembers hmembers hvalues
  rw [Value.types_eq_map, List.eq_replicate_iff, List.length_map] at htypes
  obtain ⟨hlength, htypes⟩ := htypes
  exact ⟨hlength, fun value hvalue =>
    ⟨htypes _ (List.mem_map_of_mem hvalue), hvalids value hvalue⟩⟩

/-- A decoded value of a well-formed type has this type and is valid. -/
theorem type_of_yields_decodeValue {type : AbiType} {value : Value}
    (hwell : type.isWellFormed = true)
    (hvalue : (decodeValue data type position).Yields budget value rest) :
    value.type = type ∧ value.IsValid := by
  induction type generalizing position budget value rest with
  | bool =>
      obtain ⟨_, flag, _, _, rfl, _⟩ := yields_decodeBool.mp hvalue
      exact ⟨rfl, Value.isValid_bool flag⟩
  | uint bits =>
      obtain ⟨_, _, hbits, rfl, _⟩ := yields_decodeUint.mp hvalue
      exact ⟨rfl, Value.isValid_uint.mpr ⟨hwell, hbits⟩⟩
  | int bits =>
      obtain ⟨_, _, hbits, rfl, _⟩ := yields_decodeInt.mp hvalue
      exact ⟨rfl, Value.isValid_int.mpr ⟨hwell, hbits.2⟩⟩
  | address =>
      obtain ⟨_, _, _, rfl, _⟩ := yields_decodeAddress.mp hvalue
      exact ⟨rfl, Value.isValid_address _⟩
  | fixedBytes length =>
      obtain ⟨word, ⟨hword, _⟩, hlength, _, rfl, _⟩ := yields_decodeFixedBytes.mp hvalue
      have htake : (word.take length).length = length := by
        rw [List.length_take, hword]
        exact Nat.min_eq_left hlength
      simp only [AbiType.isWellFormed, Bool.and_eq_true, decide_eq_true_eq] at hwell
      rw [Value.type, Value.isValid_fixedBytes, htake]
      exact ⟨rfl, hwell⟩
  | bytes =>
      obtain ⟨_, _, rfl, _⟩ := yields_decodeBytes.mp hvalue
      exact ⟨rfl, Value.isValid_bytes _⟩
  | string =>
      obtain ⟨_, _, rfl, _⟩ := yields_decodeString.mp hvalue
      exact ⟨rfl, Value.isValid_string _⟩
  | fixedArray element length ih =>
      obtain ⟨values, hvalues, rfl⟩ := yields_decodeFixedArray.mp hvalue
      simp only [AbiType.isWellFormed, Bool.and_eq_true, decide_eq_true_eq] at hwell
      obtain ⟨⟨hnonzero, -⟩, hwell⟩ := hwell
      obtain ⟨hlength, helements⟩ := elements_of_yields_decodeMembers (ih hwell) hvalues
      refine ⟨by rw [Value.type, hlength], Value.isValid_fixedArray.mpr ⟨?_, helements⟩⟩
      exact List.ne_nil_of_length_pos (by omega)
  | array element ih =>
      obtain ⟨_, values, _, _, _, _, hvalues, rfl, _⟩ := yields_decodeArray.mp hvalue
      obtain ⟨_, helements⟩ := elements_of_yields_decodeMembers (ih hwell) hvalues
      exact ⟨rfl, Value.isValid_array.mpr helements⟩
  | tuple members ih =>
      obtain ⟨values, hvalues, rfl⟩ := yields_decodeTuple.mp hvalue
      rw [AbiType.isWellFormed, AbiType.areWellFormed_iff] at hwell
      obtain ⟨htypes, hvalids⟩ := types_of_yields_decodeMembers
        (fun member hmember => ih member hmember (hwell member hmember)) hvalues
      exact ⟨by rw [Value.type, htypes], Value.isValid_tuple.mpr hvalids⟩

/-! ## Decoded arrays -/

/-- If each component of a block is measured, so are all of them. -/
theorem areMeasured_of_yields_decodeMembers {types : List AbiType} {values : List Value}
    (hmembers : ∀ type ∈ types, ∀ {position budget value rest},
      (decodeValue data type position).Yields budget value rest → value.isMeasured = true)
    (hvalues : (decodeMembers data start types cursor).Yields budget values rest) :
    Value.areMeasured values = true := by
  induction types generalizing cursor budget values with
  | nil =>
      obtain ⟨rfl, -⟩ := yields_decodeMembers_nil.mp hvalues
      rfl
  | cons type types ih =>
      obtain ⟨position, value, middle, next, others, -, hvalue, -, hothers, rfl⟩ :=
        yields_decodeMembers_cons.mp hvalues
      have hrest := ih (fun other hother => hmembers other (List.mem_cons_of_mem _ hother)) hothers
      rw [Value.areMeasured, hmembers type List.mem_cons_self hvalue, hrest, Bool.and_self]

/-- The elements of a decoded array were measured before they were read. -/
theorem isMeasured_of_yields_decodeValue {type : AbiType} {value : Value}
    (hvalue : (decodeValue data type position).Yields budget value rest) :
    value.isMeasured = true := by
  induction type generalizing position budget value rest with
  | bool =>
      obtain ⟨_, _, _, _, rfl, _⟩ := yields_decodeBool.mp hvalue
      rfl
  | uint bits =>
      obtain ⟨_, _, _, rfl, _⟩ := yields_decodeUint.mp hvalue
      rfl
  | int bits =>
      obtain ⟨_, _, _, rfl, _⟩ := yields_decodeInt.mp hvalue
      rfl
  | address =>
      obtain ⟨_, _, _, rfl, _⟩ := yields_decodeAddress.mp hvalue
      rfl
  | fixedBytes length =>
      obtain ⟨_, _, _, _, rfl, _⟩ := yields_decodeFixedBytes.mp hvalue
      rfl
  | bytes =>
      obtain ⟨_, _, rfl, _⟩ := yields_decodeBytes.mp hvalue
      rfl
  | string =>
      obtain ⟨_, _, rfl, _⟩ := yields_decodeString.mp hvalue
      rfl
  | fixedArray element length ih =>
      obtain ⟨values, hvalues, rfl⟩ := yields_decodeFixedArray.mp hvalue
      refine areMeasured_of_yields_decodeMembers ?_ hvalues
      intro type htype
      obtain rfl := List.eq_of_mem_replicate htype
      exact ih
  | array element ih =>
      obtain ⟨_, values, _, _, _, hsize, hvalues, rfl, _⟩ := yields_decodeArray.mp hvalue
      have hmeasured : Value.areMeasured values = true := by
        refine areMeasured_of_yields_decodeMembers ?_ hvalues
        intro type htype
        obtain rfl := List.eq_of_mem_replicate htype
        exact ih
      rw [Value.isMeasured, hsize, hmeasured, Bool.and_self]
  | tuple members ih =>
      obtain ⟨values, hvalues, rfl⟩ := yields_decodeTuple.mp hvalue
      exact areMeasured_of_yields_decodeMembers (fun type htype => ih type htype) hvalues

/-- Decoded values of types that texts denote have these types, are valid, and can be
encoded; and what is encoded is decoded to them again, if no array among them has
elements of a hollow type. Offsets that share a place make the encoded bytes longer
than the data, so that these need a bound of their own. -/
theorem decode_sound {types : List AbiType} {values : List Value}
    (hparsed : ∀ type ∈ types, ∃ text, AbiType.parse text = .ok type)
    (hdecode : decode data types = .ok values) :
    values.length = types.length ∧ values.map Value.type = types ∧
      (∀ value ∈ values, value.check = .ok ()) ∧
      ∃ encoded, encode values = .ok encoded ∧
        (encoded.length < 2 ^ 63 → (∀ value ∈ values, value.isSolid = true) →
          decode encoded types = .ok values) := by
  obtain ⟨rest, hvalues⟩ := decode_eq_ok_iff.mp hdecode
  have hmembers : ∀ type ∈ types, ∀ {position budget value rest},
      (decodeValue data type position).Yields budget value rest →
        value.type = type ∧ value.IsValid := by
    intro type htype position budget value rest hvalue
    obtain ⟨text, htext⟩ := hparsed type htype
    exact type_of_yields_decodeValue (AbiType.isWellFormed_of_parse htext) hvalue
  obtain ⟨htypes, hvalid⟩ := types_of_yields_decodeMembers hmembers hvalues
  rw [Value.types_eq_map] at htypes
  refine ⟨length_of_yields_decodeMembers hvalues, htypes, hvalid, Value.block values,
    encode_eq_ok_iff.mpr ⟨hvalid, rfl⟩, ?_⟩
  intro hbound hsolid
  have hmeasured := Value.areMeasured_iff.mp (areMeasured_of_yields_decodeMembers
    (fun type _ _ _ _ _ => isMeasured_of_yields_decodeValue) hvalues)
  rw [← htypes]
  exact decode_block hvalid hsolid hmeasured (hbound.trans (by decide))

/-- One word of zeros holds a byte string within two tuples: every offset points back
at itself. The encoded bytes are four words, and they are decoded to the same value. -/
theorem decode_sound_cyclic :
    let types : List AbiType := [.tuple [.tuple [.bytes]]]
    let values : List Value := [.tuple [.tuple [.bytes []]]]
    AbiType.parse "((bytes))" = .ok (.tuple [.tuple [.bytes]]) ∧
      decode (Bytes.zeros 32) types = .ok values ∧
      encode values = .ok (Value.lengthWord 32 ++ Value.lengthWord 32 ++ Value.lengthWord 32 ++
        Value.lengthWord 0) ∧
      (Value.block values).length < 2 ^ 63 ∧ (∀ value ∈ values, value.isSolid = true) ∧
      decode (Value.block values) types = .ok values := by
  intro types values
  have hparse : AbiType.parse "((bytes))" = .ok (.tuple [.tuple [.bytes]]) := by decide +kernel
  have hdecode : decode (Bytes.zeros 32) types = .ok values := by decide +kernel
  have hencode : encode values = .ok (Value.lengthWord 32 ++ Value.lengthWord 32 ++
      Value.lengthWord 32 ++ Value.lengthWord 0) := by decide +kernel
  have hbound : (Value.block values).length < 2 ^ 63 := by decide +kernel
  have hsolid : ∀ value ∈ values, value.isSolid = true := by decide +kernel
  have hparsed : ∀ type ∈ types, ∃ text, AbiType.parse text = .ok type := by
    intro type htype
    obtain rfl := List.mem_singleton.mp htype
    exact ⟨_, hparse⟩
  obtain ⟨-, -, -, encoded, hencoded, hagain⟩ := decode_sound hparsed hdecode
  obtain rfl := (encode_eq_ok_iff.mp hencoded).2
  exact ⟨hparse, hdecode, hencode, hbound, hsolid, hagain hbound hsolid⟩

end ChainClient.Abi
