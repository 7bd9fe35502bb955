import ChainClient.Proofs.Abi.RoundTrip
import ChainClient.Proofs.Abi.Soundness

/-!
# Static data is decoded exactly

Values of static types stand one behind another. Each kind of word is accepted only
if it is what the decoded value is written with, and the cursor moves by what the
type announces, which is the length of what is written. So what static data is
decoded to says which bytes the data begins with. The lemmas go the way of those
about reading what was written, backwards.
-/

namespace ChainClient.Abi

open Decoding

namespace Value

/-! ## Words that are written -/

theorem lengthWord_toNat {word : Bytes} (hword : word.length = Word.size) :
    lengthWord (Bytes.toNat word) = word :=
  Word.toBytes_ofBytes hword

/-- An address is written with the word it is taken from if the word starts with zeros. -/
theorem contents_address_of_areZero {word : Bytes} (hword : word.length = Word.size)
    (hzero : Bytes.areZero (word.take 12) = true) :
    (Value.address (Address.ofLastBytes (word.drop 12))).contents = word := by
  rw [Word.size] at hword
  have htake : word.take 12 = Bytes.zeros 12 := by
    rw [Bytes.areZero_iff.mp hzero, List.length_take, hword]
    rfl
  have hdrop : (word.drop 12).length = Address.size := by
    rw [List.length_drop, hword]
    rfl
  rw [contents, Address.toBytes_ofLastBytes hdrop, ← htake, List.take_append_drop]

/-- A byte string is written with the word it begins if zeros follow it there. -/
theorem padRight_take_of_areZero {word : Bytes} {length : Nat} (hword : word.length = Word.size)
    (hpos : 1 ≤ length) (hle : length ≤ Word.size)
    (hzero : Bytes.areZero (word.drop length) = true) : padRight (word.take length) = word := by
  have htake : (word.take length).length = length := by
    rw [List.length_take, hword]
    exact Nat.min_eq_left hle
  have hdrop : word.drop length = Bytes.zeros (Word.size - length) := by
    rw [Bytes.areZero_iff.mp hzero, List.length_drop, hword]
  have hpadding : (Word.size - length % Word.size) % Word.size = Word.size - length := by
    rw [Word.size] at hle ⊢
    omega
  rw [padRight, htake, hpadding, ← hdrop, List.take_append_drop]

end Value

/-! ## Static values -/

/-- A static value of the type stands at the position, as long as the type announces. -/
structure Value.Occupies (value : Value) (type : AbiType) (data : Bytes) (position : Nat) :
    Prop where
  isStatic : value.isDynamic = false
  at_contents : Bytes.At data position value.contents
  headSize?_eq : type.headSize? = some value.contents.length

variable {data : Bytes} {start cursor position offset budget rest : Nat} {value : Value}
  {values : List Value} {type : AbiType} {types : List AbiType}

/-- If each static component of a block is read from its own bytes, the values are
read from the bytes that stand for all of them, and no cursor wraps around. -/
theorem at_place_of_yields_decodeMembers (hstatic : ∀ type ∈ types, type.isDynamic = false)
    (hmembers : ∀ type ∈ types, ∀ {position budget value rest}, position ≤ data.length →
      position < AbiType.sizeCount →
      (decodeValue data type position).Yields budget value rest →
        value.Occupies type data position)
    (hcursor : cursor ≤ data.length) (hbound : cursor < AbiType.sizeCount)
    (hvalues : (decodeMembers data start types cursor).Yields budget values rest) :
    (∀ value ∈ values, value.isDynamic = false) ∧
      Bytes.At data cursor (Value.place offset values).1 ∧
      AbiType.headSizes? types = some (Value.place offset values).1.length ∧
      cursor + (Value.place offset values).1.length < AbiType.sizeCount := by
  induction types generalizing cursor budget values with
  | nil =>
      obtain ⟨rfl, -⟩ := yields_decodeMembers_nil.mp hvalues
      exact ⟨by simp, ⟨hcursor, List.nil_prefix⟩, rfl, hbound⟩
  | cons type types ih =>
      obtain ⟨hhead, htail⟩ := List.forall_mem_cons.mp hstatic
      obtain ⟨position, value, middle, next, others, hposition, hvalue, hnext, hothers, rfl⟩ :=
        yields_decodeMembers_cons.mp hvalues
      simp only [Component.Locates, Component.Advances, AbiType.component, hhead,
        Bool.false_eq_true, if_false] at hposition hnext
      obtain rfl := hposition
      obtain ⟨size, hsize, rfl, hnext⟩ := hnext
      obtain ⟨hvalue, hat, hlength⟩ := hmembers type List.mem_cons_self hcursor hbound hvalue
      obtain rfl := Option.some.inj (hsize.symm.trans hlength)
      obtain ⟨hrest, hplace, hsum, hlast⟩ := ih htail
        (fun other hother => hmembers other (List.mem_cons_of_mem _ hother)) hat.end_le hnext
        hothers
      rw [Nat.add_assoc] at hlast
      rw [Value.place_cons_of_isStatic hvalue, List.length_append]
      refine ⟨List.forall_mem_cons.mpr ⟨hvalue, hrest⟩, hat.join hplace, ?_, hlast⟩
      rw [AbiType.headSizes?, hlength, hsum]
      exact if_pos (by omega)

/-- Static components that are read from their own bytes are read from their block. -/
theorem at_block_of_yields_decodeMembers (hstatic : ∀ type ∈ types, type.isDynamic = false)
    (hmembers : ∀ type ∈ types, ∀ {position budget value rest}, position ≤ data.length →
      position < AbiType.sizeCount →
      (decodeValue data type position).Yields budget value rest →
        value.Occupies type data position)
    (hcursor : cursor ≤ data.length) (hbound : cursor < AbiType.sizeCount)
    (hvalues : (decodeMembers data start types cursor).Yields budget values rest) :
    (∀ value ∈ values, value.isDynamic = false) ∧ Bytes.At data cursor (Value.block values) ∧
      AbiType.headSizes? types = some (Value.block values).length ∧
      (Value.block values).length < AbiType.sizeCount := by
  obtain ⟨hvalues, hat, hlength, hlast⟩ :=
    at_place_of_yields_decodeMembers hstatic hmembers hcursor hbound hvalues
  rw [Value.block_eq_append, Value.place_snd_eq_nil hvalues, List.append_nil]
  exact ⟨hvalues, hat, hlength, by omega⟩

/-- Equal sizes that add up to a size are as much as their product. -/
theorem map_headSize?_of_headSizes?_replicate {element : AbiType} {length total : Nat}
    (hnonzero : length ≠ 0)
    (htotal : AbiType.headSizes? (List.replicate length element) = some total) :
    (element.headSize?.map fun size => min (size * length) (AbiType.sizeCount - 1)) =
      some total := by
  obtain ⟨sizes, hsizes, rfl, hbound⟩ := AbiType.headSizes?_eq_some_iff.mp htotal
  rw [List.map_replicate] at hsizes
  have hlength : length = sizes.length := by simpa using congrArg List.length hsizes
  obtain ⟨size, hsize⟩ : ∃ size, element.headSize? = some size := by
    have hmem : element.headSize? ∈ sizes.map some := by
      rw [← hsizes]
      exact List.mem_replicate.mpr ⟨hnonzero, rfl⟩
    obtain ⟨size, -, hsize⟩ := List.mem_map.mp hmem
    exact ⟨size, hsize.symm⟩
  obtain rfl : sizes = List.replicate length size := by
    refine List.eq_replicate_iff.mpr ⟨hlength.symm, fun other hother => ?_⟩
    have hmem : some other ∈ List.replicate length element.headSize? := by
      rw [hsizes]
      exact List.mem_map_of_mem hother
    exact Option.some.inj ((List.eq_of_mem_replicate hmem).trans hsize)
  rw [List.sum_replicate_nat, Nat.mul_comm] at hbound ⊢
  rw [hsize, Option.map_some, Option.some.injEq]
  exact Nat.min_eq_left (Nat.le_sub_one_of_lt hbound)

theorem occupies_of_at_word {word : Bytes} (hstatic : value.isDynamic = false)
    (hsize : type.headSize? = some Word.size) (hcontents : value.contents = word)
    (hword : WordAt data position word) : value.Occupies type data position :=
  ⟨hstatic, by rw [hcontents]; exact hword.2, by rw [hcontents, hsize, hword.1]⟩

/-- A value of a well-formed static type is read from the bytes it is written with. -/
theorem occupies_of_yields_decodeValue (hwell : type.isWellFormed = true)
    (hstatic : type.isDynamic = false) (hposition : position ≤ data.length)
    (hbound : position < AbiType.sizeCount)
    (hvalue : (decodeValue data type position).Yields budget value rest) :
    value.Occupies type data position := by
  induction type generalizing position budget value rest with
  | bool =>
      obtain ⟨word, flag, hword, hflag, rfl, -⟩ := yields_decodeBool.mp hvalue
      refine occupies_of_at_word rfl rfl ?_ hword
      rw [Value.contents, ← hflag, Value.lengthWord_toNat hword.1]
  | uint bits =>
      obtain ⟨word, hword, -, rfl, -⟩ := yields_decodeUint.mp hvalue
      refine occupies_of_at_word rfl rfl ?_ hword
      rw [Value.contents, Word.toBytes_ofBytes hword.1]
  | int bits =>
      obtain ⟨word, hword, -, rfl, -⟩ := yields_decodeInt.mp hvalue
      refine occupies_of_at_word rfl rfl ?_ hword
      rw [Value.contents, Word.toBytes_ofBytes hword.1]
  | address =>
      obtain ⟨word, hword, hzero, rfl, -⟩ := yields_decodeAddress.mp hvalue
      exact occupies_of_at_word rfl rfl (Value.contents_address_of_areZero hword.1 hzero) hword
  | fixedBytes length =>
      obtain ⟨word, hword, hle, hzero, rfl, -⟩ := yields_decodeFixedBytes.mp hvalue
      simp only [AbiType.isWellFormed, Bool.and_eq_true, decide_eq_true_eq] at hwell
      refine occupies_of_at_word rfl rfl ?_ hword
      rw [Value.contents, Value.padRight_take_of_areZero hword.1 hwell.1 hle hzero]
  | bytes => simp [AbiType.isDynamic] at hstatic
  | string => simp [AbiType.isDynamic] at hstatic
  | array element ih => simp [AbiType.isDynamic] at hstatic
  | fixedArray element length ih =>
      obtain ⟨values, hvalues, rfl⟩ := yields_decodeFixedArray.mp hvalue
      simp only [AbiType.isWellFormed, Bool.and_eq_true, decide_eq_true_eq] at hwell
      rw [AbiType.isDynamic] at hstatic
      obtain ⟨-, hat, hlength, hsum⟩ := at_block_of_yields_decodeMembers
        (fun type htype => by rw [List.eq_of_mem_replicate htype, hstatic])
        (fun type htype => by
          obtain rfl := List.eq_of_mem_replicate htype
          exact ih hwell.2 hstatic) hposition hbound hvalues
      refine ⟨hstatic, by rwa [Value.contents_fixedArray], ?_⟩
      rw [Value.contents_fixedArray, AbiType.headSize?, hstatic, if_neg Bool.false_ne_true]
      exact map_headSize?_of_headSizes?_replicate hwell.1.1 hlength
  | tuple members ih =>
      obtain ⟨values, hvalues, rfl⟩ := yields_decodeTuple.mp hvalue
      rw [AbiType.isWellFormed, AbiType.areWellFormed_iff] at hwell
      rw [AbiType.isDynamic] at hstatic
      have hmembers : ∀ member ∈ members, member.isDynamic = false := by
        rw [AbiType.anyDynamic_eq_any, List.any_eq_false] at hstatic
        exact fun member hmember => Bool.eq_false_iff.mpr (hstatic member hmember)
      obtain ⟨hvalue, hat, hlength, hsum⟩ := at_block_of_yields_decodeMembers hmembers
        (fun member hmember => ih member hmember (hwell member hmember)
          (hmembers member hmember)) hposition hbound hvalues
      refine ⟨?_, by rwa [Value.contents_tuple], ?_⟩
      · rw [Value.isDynamic, Value.anyDynamic_eq_any, List.any_eq_false]
        exact fun value hmember => Bool.eq_false_iff.mp (hvalue value hmember)
      · rw [Value.contents_tuple, AbiType.headSize?, hstatic, if_neg Bool.false_ne_true, hlength]

/-! ## Data of static types -/

/-- Static data that is decoded begins with the block of the decoded values. -/
theorem block_eq_take_of_decode (hwell : ∀ type ∈ types, type.isWellFormed = true)
    (hstatic : ∀ type ∈ types, type.isDynamic = false) (hdecode : decode data types = .ok values) :
    ∃ size, AbiType.headSizes? types = some size ∧ size ≤ data.length ∧
      Value.block values = data.take size := by
  obtain ⟨rest, hvalues⟩ := decode_eq_ok_iff.mp hdecode
  obtain ⟨-, hat, hlength, -⟩ := at_block_of_yields_decodeMembers hstatic
    (fun type htype => occupies_of_yields_decodeValue (hwell type htype) (hstatic type htype))
    (Nat.zero_le _) (by decide) hvalues
  have hend := hat.end_le
  have htake := hat.eq_take_drop
  rw [Nat.zero_add] at hend
  rw [List.drop_zero] at htake
  exact ⟨_, hlength, hend, htake.symm⟩

/-- What data is decoded to by static types is encoded to the bytes it was decoded
from: as many as the types announce together. So data that differs in these bytes
is decoded to different values, or not at all. -/
theorem encode_of_decode_static
    (hparsed : ∀ type ∈ types, ∃ text, AbiType.parse text = .ok type)
    (hstatic : ∀ type ∈ types, type.isDynamic = false) (hdecode : decode data types = .ok values) :
    ∃ sizes : List Nat, types.map AbiType.headSize? = sizes.map some ∧
      sizes.sum ≤ data.length ∧ encode values = .ok (data.take sizes.sum) ∧
      ∀ other : Bytes, other.take sizes.sum ≠ data.take sizes.sum →
        decode other types ≠ .ok values := by
  have hwell : ∀ type ∈ types, type.isWellFormed = true := by
    intro type htype
    obtain ⟨text, htext⟩ := hparsed type htype
    exact AbiType.isWellFormed_of_parse htext
  obtain ⟨size, hsize, hend, hblock⟩ := block_eq_take_of_decode hwell hstatic hdecode
  obtain ⟨sizes, hsizes, rfl, -⟩ := AbiType.headSizes?_eq_some_iff.mp hsize
  refine ⟨sizes, hsizes, hend, ?_, ?_⟩
  · obtain ⟨rest, hvalues⟩ := decode_eq_ok_iff.mp hdecode
    obtain ⟨-, hvalid⟩ := types_of_yields_decodeMembers
      (fun type htype => type_of_yields_decodeValue (hwell type htype)) hvalues
    exact encode_eq_ok_iff.mpr ⟨hvalid, hblock⟩
  · intro other hdiffers hother
    obtain ⟨same, hsame, -, hblock'⟩ := block_eq_take_of_decode hwell hstatic hother
    obtain rfl := Option.some.inj (hsize.symm.trans hsame)
    exact hdiffers (hblock'.symm.trans hblock)

/-- A pair in an array, a negative number of two bytes, and three bytes: five words,
with a byte behind them that belongs to none. -/
theorem encode_of_decode_static_nested :
    let types : List AbiType := [.fixedArray (.tuple [.address, .bool]) 1, .int 16, .fixedBytes 3]
    let values : List Value := [.fixedArray (.tuple [.address, .bool])
      [.tuple [.address (Address.ofLastBytes [7]), .bool true]], .int (-2) 16,
        .fixedBytes [1, 2, 3]]
    let data := Value.lengthWord 7 ++ Value.lengthWord 1 ++ Word.toBytes (-2) ++
      Value.padRight [1, 2, 3] ++ [9]
    decode data types = .ok values ∧ encode values = .ok (data.take 128) ∧
      ∀ other : Bytes, other.take 128 ≠ data.take 128 → decode other types ≠ .ok values := by
  intro types values data
  have hpairs : AbiType.parse "(address,bool)[1]" =
      .ok (.fixedArray (.tuple [.address, .bool]) 1) := by decide +kernel
  have hint : AbiType.parse "int16" = .ok (.int 16) := by decide +kernel
  have hbytes : AbiType.parse "bytes3" = .ok (.fixedBytes 3) := by decide +kernel
  have hparsed : ∀ type ∈ types, ∃ text, AbiType.parse text = .ok type := by
    simp only [types, List.forall_mem_cons]
    exact ⟨⟨_, hpairs⟩, ⟨_, hint⟩, ⟨_, hbytes⟩, by simp⟩
  have hstatic : ∀ type ∈ types, type.isDynamic = false := by decide
  have hdecode : decode data types = .ok values := by decide +kernel
  obtain ⟨sizes, hsizes, -, hencode, hothers⟩ := encode_of_decode_static hparsed hstatic hdecode
  have hknown : types.map AbiType.headSize? = [64, 32, 32].map some := by decide
  obtain rfl : sizes = [64, 32, 32] :=
    List.map_injective_iff.mpr (Option.some_injective Nat) (hsizes.symm.trans hknown)
  exact ⟨hdecode, hencode, hothers⟩

end ChainClient.Abi
