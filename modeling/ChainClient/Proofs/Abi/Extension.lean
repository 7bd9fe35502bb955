import ChainClient.Proofs.Abi.Reading

/-!
# Decoding with trailing data

Longer data has every word and every byte string of shorter data where it was, and a
larger budget. So each step of decoding that succeeds on the shorter data succeeds on
the longer data with the same outcome, and what was added to the budget is left over.
The tests that look at the length of the data only become easier to pass.
-/

namespace ChainClient.Abi

namespace Decoding

variable {data : Bytes} {position start cursor number : Nat}

theorem WordAt.append {word : Bytes} (hword : WordAt data position word) (extra : Bytes) :
    WordAt (data ++ extra) position word :=
  ⟨hword.1, hword.2.append extra⟩

theorem SizeAt.append (hsize : SizeAt data position number) (extra : Bytes) :
    SizeAt (data ++ extra) position number := by
  obtain ⟨hbound, word, hword, hnumber⟩ := hsize
  exact ⟨hbound, word, hword.append extra, hnumber⟩

theorem BlobAt.append {body : Bytes} (hblob : BlobAt data position body) (extra : Bytes) :
    BlobAt (data ++ extra) position body :=
  ⟨hblob.1.append extra, hblob.2.append extra⟩

/-- Where a component stands does not depend on what its contents are read from. -/
theorem Component.Locates.append {type : AbiType}
    (hposition : (type.component data).Locates data start cursor position) (extra : Bytes) :
    (type.component (data ++ extra)).Locates (data ++ extra) start cursor position := by
  cases hdynamic : type.isDynamic with
  | true =>
      simp only [Component.Locates, AbiType.component, hdynamic, if_true] at hposition ⊢
      obtain ⟨offset, hoffset, hstart, hrange⟩ := hposition
      refine ⟨offset, hoffset.append extra, hstart, ?_⟩
      rw [List.length_append]
      omega
  | false => simpa [Component.Locates, AbiType.component, hdynamic] using hposition

end Decoding

open Decoding

variable {data extra : Bytes} {start cursor position budget rest more : Nat}

/-- If each component of a block is read from longer data as well, so is the block. -/
theorem yields_decodeMembers_append {types : List AbiType} {values : List Value}
    (hmembers : ∀ type ∈ types, ∀ {position budget value rest},
      (decodeValue data type position).Yields budget value rest →
        (decodeValue (data ++ extra) type position).Yields (budget + more) value (rest + more))
    (hvalues : (decodeMembers data start types cursor).Yields budget values rest) :
    (decodeMembers (data ++ extra) start types cursor).Yields
      (budget + more) values (rest + more) := by
  induction types generalizing cursor budget values with
  | nil =>
      obtain ⟨rfl, rfl⟩ := yields_decodeMembers_nil.mp hvalues
      exact yields_decodeMembers_nil.mpr ⟨rfl, rfl⟩
  | cons type types ih =>
      obtain ⟨position, value, middle, next, others, hposition, hvalue, hnext, hothers, rfl⟩ :=
        yields_decodeMembers_cons.mp hvalues
      have hfirst := hmembers type List.mem_cons_self hvalue
      have hrest := ih (fun other hother => hmembers other (List.mem_cons_of_mem _ hother)) hothers
      exact yields_decodeMembers_cons.mpr
        ⟨position, value, middle + more, next, others, hposition.append extra, hfirst, hnext,
          hrest, rfl⟩

/-- A value that is read is read from longer data under a larger budget, and costs
as much. -/
theorem yields_decodeValue_append (type : AbiType) {value : Value} (extra : Bytes) (more : Nat)
    (hvalue : (decodeValue data type position).Yields budget value rest) :
    (decodeValue (data ++ extra) type position).Yields (budget + more) value (rest + more) := by
  induction type generalizing position budget value rest with
  | bool =>
      obtain ⟨word, flag, hword, hflag, rfl, rfl⟩ := yields_decodeBool.mp hvalue
      exact yields_decodeBool.mpr ⟨word, flag, hword.append extra, hflag, rfl, by omega⟩
  | uint bits =>
      obtain ⟨word, hword, hbits, rfl, rfl⟩ := yields_decodeUint.mp hvalue
      exact yields_decodeUint.mpr ⟨word, hword.append extra, hbits, rfl, by omega⟩
  | int bits =>
      obtain ⟨word, hword, hbits, rfl, rfl⟩ := yields_decodeInt.mp hvalue
      exact yields_decodeInt.mpr ⟨word, hword.append extra, hbits, rfl, by omega⟩
  | address =>
      obtain ⟨word, hword, hzero, rfl, rfl⟩ := yields_decodeAddress.mp hvalue
      exact yields_decodeAddress.mpr ⟨word, hword.append extra, hzero, rfl, by omega⟩
  | fixedBytes length =>
      obtain ⟨word, hword, hlength, hzero, rfl, rfl⟩ := yields_decodeFixedBytes.mp hvalue
      exact yields_decodeFixedBytes.mpr
        ⟨word, hword.append extra, hlength, hzero, rfl, by omega⟩
  | bytes =>
      obtain ⟨body, hbody, rfl, rfl⟩ := yields_decodeBytes.mp hvalue
      exact yields_decodeBytes.mpr ⟨body, hbody.append extra, rfl, by omega⟩
  | string =>
      obtain ⟨text, hbody, rfl, rfl⟩ := yields_decodeString.mp hvalue
      exact yields_decodeString.mpr ⟨text, hbody.append extra, rfl, by omega⟩
  | fixedArray element length ih =>
      obtain ⟨values, hvalues, rfl⟩ := yields_decodeFixedArray.mp hvalue
      refine yields_decodeFixedArray.mpr ⟨values, yields_decodeMembers_append ?_ hvalues, rfl⟩
      intro type htype
      obtain rfl := List.eq_of_mem_replicate htype
      exact ih
  | array element ih =>
      obtain ⟨count, values, middle, hcount, hroom, hsize, hvalues, rfl, rfl⟩ :=
        yields_decodeArray.mp hvalue
      have hlonger : count ≤ ((data ++ extra).length - (position + Word.size)) / Word.size := by
        refine Nat.le_trans hroom (Nat.div_le_div_right ?_)
        rw [List.length_append]
        exact Nat.sub_le_sub_right (Nat.le_add_right _ _) _
      have helements : (decodeMembers (data ++ extra) (position + Word.size)
          (List.replicate count element) (position + Word.size)).Yields
            (middle + more) values (rest + more) := by
        refine yields_decodeMembers_append ?_ hvalues
        intro type htype
        obtain rfl := List.eq_of_mem_replicate htype
        exact ih
      exact yields_decodeArray.mpr ⟨count, values, middle + more, hcount.append extra, hlonger,
        hsize, helements, rfl, by omega⟩
  | tuple members ih =>
      obtain ⟨values, hvalues, rfl⟩ := yields_decodeTuple.mp hvalue
      exact yields_decodeTuple.mpr
        ⟨values, yields_decodeMembers_append (fun type htype => ih type htype) hvalues, rfl⟩

/-- What data is decoded to does not change when anything is appended to the data. -/
theorem decode_append {types : List AbiType} {values : List Value} (extra : Bytes)
    (hdecode : decode data types = .ok values) : decode (data ++ extra) types = .ok values := by
  obtain ⟨rest, hvalues⟩ := decode_eq_ok_iff.mp hdecode
  -- the longer data has at least as many whole words
  obtain ⟨more, hmore⟩ : ∃ more,
      (data ++ extra).length / Word.size = data.length / Word.size + more := by
    refine Nat.exists_eq_add_of_le (Nat.div_le_div_right ?_)
    rw [List.length_append]
    exact Nat.le_add_right _ _
  refine decode_eq_ok_iff.mpr ⟨rest + more, ?_⟩
  rw [hmore]
  exact yields_decodeMembers_append
    (fun type _ _ _ _ _ => yields_decodeValue_append type extra more) hvalues

/-- An array of one byte string and seven bytes behind it, which are less than a word. -/
theorem decode_append_array :
    let data := Value.lengthWord 32 ++ Value.lengthWord 1 ++ Value.lengthWord 32 ++
      Value.lengthWord 1 ++ Value.padRight [7]
    let extra : Bytes := [1, 2, 3, 4, 5, 6, 7]
    decode data [.array .bytes] = .ok [.array .bytes [.bytes [7]]] ∧
      decode (data ++ extra) [.array .bytes] = .ok [.array .bytes [.bytes [7]]] := by
  intro data extra
  have hdecode : decode data [.array .bytes] = .ok [.array .bytes [.bytes [7]]] := by
    decide +kernel
  exact ⟨hdecode, decode_append extra hdecode⟩

end ChainClient.Abi
