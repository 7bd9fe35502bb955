import Mathlib.Algebra.Order.BigOperators.Group.List
import Mathlib.Algebra.Order.Group.Nat
import ChainClient.Proofs.Bytes
import ChainClient.Proofs.Abi.Weight

/-!
# Sizes of values and of their types

The encoder measures values and the decoder measures types. Both agree on what is
dynamic, and they agree on the size of a head as long as it is below the number of
sizes; the bytes that are written have that size. Everything written is a whole
number of words, and at least as many words as the value weighs.
-/

namespace ChainClient.Abi

mutual

/-- The number of bytes a type occupies in the head of a block, however many these are. -/
def AbiType.extent : AbiType → Nat
  | .fixedArray element length =>
      if element.isDynamic then Word.size else AbiType.extent element * length
  | .tuple members =>
      if AbiType.anyDynamic members then Word.size else AbiType.extents members
  | _ => Word.size

/-- The number of bytes several types occupy together. -/
def AbiType.extents : List AbiType → Nat
  | [] => 0
  | type :: types => AbiType.extent type + AbiType.extents types

end

theorem AbiType.extents_eq_sum (types : List AbiType) :
    AbiType.extents types = (types.map AbiType.extent).sum := by
  induction types with
  | nil => rfl
  | cons type types ih => rw [AbiType.extents, ih, List.map_cons, List.sum_cons]

/-- The sizes of heads are added up if their sum is a size. -/
theorem AbiType.headSizes?_eq_some_iff {types : List AbiType} {total : Nat} :
    AbiType.headSizes? types = some total ↔
      ∃ sizes : List Nat, types.map AbiType.headSize? = sizes.map some ∧ sizes.sum = total ∧
        total < AbiType.sizeCount := by
  induction types generalizing total with
  | nil =>
      rw [AbiType.headSizes?]
      constructor
      · rintro ⟨⟩
        exact ⟨[], rfl, rfl, by decide⟩
      · rintro ⟨sizes, hsizes, rfl, -⟩
        obtain rfl : sizes = [] := by simpa using hsizes.symm
        rfl
  | cons type types ih =>
      simp only [AbiType.headSizes?, Option.bind_eq_bind, Option.bind_eq_some_iff,
        Option.ite_none_right_eq_some, Option.some.injEq, List.map_cons]
      constructor
      · rintro ⟨size, hsize, others, hothers, hbound, rfl⟩
        obtain ⟨sizes, hsizes, rfl, -⟩ := ih.mp hothers
        exact ⟨size :: sizes, by rw [hsize, hsizes, List.map_cons], List.sum_cons, hbound⟩
      · rintro ⟨sizes, hsizes, rfl, hbound⟩
        cases sizes with
        | nil => cases hsizes
        | cons size sizes =>
            rw [List.map_cons] at hsizes
            obtain ⟨hsize, hothers⟩ := List.cons.inj hsizes
            rw [List.sum_cons] at hbound ⊢
            exact ⟨size, hsize, _, ih.mpr ⟨sizes, hothers, rfl, by omega⟩, hbound, rfl⟩

namespace Value

/-! ## Dynamic values -/

@[simp] theorem isDynamic_type (value : Value) : value.type.isDynamic = value.isDynamic := by
  induction value with
  | tuple members ih =>
      rw [type, AbiType.isDynamic, isDynamic, AbiType.anyDynamic_eq_any, anyDynamic_eq_any,
        types_eq_map, List.any_map]
      induction members with
      | nil => rfl
      | cons member members ihs =>
          rw [List.any_cons, List.any_cons, ihs fun other hother =>
            ih other (List.mem_cons_of_mem _ hother), Function.comp_apply,
            ih member List.mem_cons_self]
  | _ => rfl

theorem headLength_of_isDynamic {value : Value} (hdynamic : value.isDynamic = true) :
    value.headLength = Word.size := by
  cases value with
  | fixedArray element values => simp_all [isDynamic, headLength]
  | tuple members => simp_all [isDynamic, headLength]
  | _ => rfl

theorem isDynamic_of_type_eq {value : Value} {element : AbiType} (htype : value.type = element) :
    value.isDynamic = element.isDynamic := by
  rw [← htype, isDynamic_type]

theorem isDynamic_of_mem {members : List Value} (hstatic : anyDynamic members = false)
    {member : Value} (hmember : member ∈ members) : member.isDynamic = false := by
  rw [anyDynamic_eq_any, List.any_eq_false] at hstatic
  exact Bool.eq_false_iff.mpr (hstatic member hmember)

/-! ## Heads measured by value and by type -/

theorem headLength_le_headLengths {values : List Value} {value : Value} (hvalue : value ∈ values) :
    value.headLength ≤ headLengths values := by
  rw [headLengths_eq_sum]
  exact List.le_sum_of_mem (List.mem_map_of_mem hvalue)

theorem headLengths_eq_mul {values : List Value} {size : Nat}
    (hsize : ∀ value ∈ values, value.headLength = size) :
    headLengths values = size * values.length := by
  rw [headLengths_eq_sum, List.map_eq_replicate_iff.mpr hsize, List.sum_replicate_nat,
    Nat.mul_comm]

theorem headSizes?_types {values : List Value} (hbound : headLengths values < AbiType.sizeCount)
    (hsize : ∀ value ∈ values, value.type.headSize? = some value.headLength) :
    AbiType.headSizes? (types values) = some (headLengths values) := by
  refine AbiType.headSizes?_eq_some_iff.mpr
    ⟨values.map headLength, ?_, (headLengths_eq_sum values).symm, hbound⟩
  rw [types_eq_map, List.map_map, List.map_map]
  exact List.map_congr_left hsize

/-- The size of a valid value's head is the one its type announces. -/
theorem headSize?_type {value : Value} (hvalid : value.IsValid)
    (hbound : value.headLength < AbiType.sizeCount) :
    value.type.headSize? = some value.headLength := by
  induction value with
  | fixedArray element values ih =>
      obtain ⟨hnonempty, helements⟩ := isValid_fixedArray.mp hvalid
      rw [type, AbiType.headSize?, headLength]
      rw [headLength] at hbound
      split at hbound
      next hdynamic => rw [if_pos hdynamic, if_pos hdynamic]
      next hstatic =>
        have hsize : ∀ value ∈ values, element.headSize? = some value.headLength := by
          intro value hvalue
          obtain ⟨htype, hvalue'⟩ := helements value hvalue
          have hle := headLength_le_headLengths hvalue
          rw [← ih value hvalue hvalue' (by omega), htype]
        -- any element tells the size of all, whose product is the length of the heads
        obtain ⟨first, hfirst⟩ := List.exists_mem_of_ne_nil values hnonempty
        have hproduct := headLengths_eq_mul fun value hvalue =>
          Option.some.inj ((hsize value hvalue).symm.trans (hsize first hfirst))
        rw [if_neg hstatic, if_neg hstatic, hsize first hfirst, hproduct, Option.map_some,
          Option.some.injEq]
        omega
  | tuple members ih =>
      have hmembers := isValid_tuple.mp hvalid
      have hdynamic : AbiType.anyDynamic (types members) = anyDynamic members :=
        isDynamic_type (.tuple members)
      rw [type, AbiType.headSize?, headLength, hdynamic]
      rw [headLength] at hbound
      split at hbound
      next hdynamic => rw [if_pos hdynamic, if_pos hdynamic]
      next hstatic =>
        rw [if_neg hstatic, if_neg hstatic]
        refine headSizes?_types hbound fun member hmember => ?_
        have hle := headLength_le_headLengths hmember
        exact ih member hmember (hmembers member hmember) (by omega)
  | _ => rfl

/-! ## Exact sizes -/

/-- The size of a valid value's head, measured by its type without regard to the largest
size there is. -/
theorem headLength_eq_extent {value : Value} (hvalid : value.IsValid) :
    value.headLength = value.type.extent := by
  induction value with
  | fixedArray element values ih =>
      obtain ⟨-, helements⟩ := isValid_fixedArray.mp hvalid
      have hsize : ∀ value ∈ values, value.headLength = element.extent := by
        intro value hvalue
        obtain ⟨htype, hvalue'⟩ := helements value hvalue
        rw [ih value hvalue hvalue', htype]
      rw [type, AbiType.extent, headLength, headLengths_eq_mul hsize]
  | tuple members ih =>
      have hmembers := isValid_tuple.mp hvalid
      have hdynamic : AbiType.anyDynamic (types members) = anyDynamic members :=
        isDynamic_type (.tuple members)
      have hsize : members.map headLength = (types members).map AbiType.extent := by
        rw [types_eq_map, List.map_map]
        exact List.map_congr_left fun member hmember => ih member hmember (hmembers member hmember)
      rw [type, AbiType.extent, headLength, hdynamic, headLengths_eq_sum, hsize,
        AbiType.extents_eq_sum]
  | _ => rfl

/-! ## What is written -/

attribute [local simp] contents place

@[simp] theorem length_lengthWord (number : Nat) : (lengthWord number).length = Word.size := by
  simp [lengthWord, Word.size]

theorem length_padRight (bytes : Bytes) :
    (padRight bytes).length = Word.size * wordCount bytes.length := by
  rw [padRight, List.length_append, Bytes.length_zeros, wordCount]
  simp only [Word.size]
  omega

theorem length_blob (bytes : Bytes) :
    (blob bytes).length = Word.size * (1 + wordCount bytes.length) := by
  rw [blob, List.length_append, length_lengthWord, length_padRight, Nat.mul_add, Nat.mul_one]

theorem place_cons_of_isDynamic {offset : Nat} {value : Value} {values : List Value}
    (hdynamic : value.isDynamic = true) :
    place offset (value :: values) =
      (lengthWord offset ++ (place (offset + value.contents.length) values).1,
        value.contents ++ (place (offset + value.contents.length) values).2) := by
  simp [hdynamic]

theorem place_cons_of_isStatic {offset : Nat} {value : Value} {values : List Value}
    (hstatic : value.isDynamic = false) :
    place offset (value :: values) =
      (value.contents ++ (place offset values).1, (place offset values).2) := by
  simp [hstatic]

theorem block_eq_append (values : List Value) :
    block values =
      (place (headLengths values) values).1 ++ (place (headLengths values) values).2 := rfl

theorem contents_fixedArray (element : AbiType) (values : List Value) :
    contents (.fixedArray element values) = block values := by
  rw [contents]
  rfl

theorem contents_array (element : AbiType) (values : List Value) :
    contents (.array element values) = lengthWord values.length ++ block values := by
  rw [contents]
  rfl

theorem contents_tuple (members : List Value) : contents (.tuple members) = block members := by
  rw [contents]
  rfl

theorem place_snd_eq_nil {values : List Value} (hstatic : ∀ value ∈ values, value.isDynamic = false)
    (offset : Nat) : (place offset values).2 = [] := by
  induction values with
  | nil => rfl
  | cons value values ih =>
      rw [place_cons_of_isStatic (hstatic value List.mem_cons_self)]
      exact ih fun other hother => hstatic other (List.mem_cons_of_mem _ hother)

/-- The heads of a block are as long as they were measured. -/
theorem length_place_fst {values : List Value}
    (hlength : ∀ value ∈ values, value.isDynamic = false →
      value.contents.length = value.headLength) (offset : Nat) :
    (place offset values).1.length = headLengths values := by
  induction values generalizing offset with
  | nil => rfl
  | cons value values ih =>
      have hothers := ih fun other hother => hlength other (List.mem_cons_of_mem _ hother)
      rw [headLengths]
      cases hdynamic : value.isDynamic with
      | true =>
          rw [place_cons_of_isDynamic hdynamic, List.length_append, length_lengthWord, hothers,
            headLength_of_isDynamic hdynamic]
      | false =>
          rw [place_cons_of_isStatic hdynamic, List.length_append, hothers,
            hlength value List.mem_cons_self hdynamic]

theorem length_block_of_isStatic {values : List Value}
    (hstatic : ∀ value ∈ values, value.isDynamic = false)
    (hlength : ∀ value ∈ values, value.isDynamic = false →
      value.contents.length = value.headLength) :
    (block values).length = headLengths values := by
  rw [block_eq_append, List.length_append, length_place_fst hlength, place_snd_eq_nil hstatic,
    List.length_nil, Nat.add_zero]

/-- A valid static value is written with the bytes its head was measured by. -/
theorem length_contents_of_isStatic {value : Value} (hvalid : value.IsValid)
    (hstatic : value.isDynamic = false) : value.contents.length = value.headLength := by
  induction value with
  | bool value => simp [headLength]
  | uint value bits => simp [headLength, Word.size]
  | int value bits => simp [headLength, Word.size]
  | address value => simp [headLength, Word.size]
  | fixedBytes value =>
      obtain ⟨hpos, hle⟩ := isValid_fixedBytes.mp hvalid
      have hone : wordCount value.length = 1 := by
        simp only [wordCount, Word.size]
        omega
      rw [contents, length_padRight, hone]
      simp [headLength]
  | bytes value => simp [isDynamic] at hstatic
  | string value => simp [isDynamic] at hstatic
  | array element values => simp [isDynamic] at hstatic
  | fixedArray element values ih =>
      -- a static composite value is a block without tails
      obtain ⟨-, helements⟩ := isValid_fixedArray.mp hvalid
      rw [isDynamic] at hstatic
      rw [contents_fixedArray, headLength, hstatic, if_neg Bool.false_ne_true]
      refine length_block_of_isStatic (fun value hvalue => ?_) fun value hvalue =>
        ih value hvalue (helements value hvalue).2
      rw [isDynamic_of_type_eq (helements value hvalue).1, hstatic]
  | tuple members ih =>
      have hmembers := isValid_tuple.mp hvalid
      rw [isDynamic] at hstatic
      rw [contents_tuple, headLength, hstatic, if_neg Bool.false_ne_true]
      exact length_block_of_isStatic (fun member => isDynamic_of_mem hstatic) fun member hmember =>
        ih member hmember (hmembers member hmember)

theorem length_heads {values : List Value} (hvalid : ∀ value ∈ values, value.IsValid)
    (offset : Nat) : (place offset values).1.length = headLengths values :=
  length_place_fst (fun value hvalue => length_contents_of_isStatic (hvalid value hvalue)) offset

theorem sum_length_contents_le (values : List Value) (offset : Nat) :
    (values.map fun value => value.contents.length).sum ≤
      (place offset values).1.length + (place offset values).2.length := by
  induction values generalizing offset with
  | nil => exact Nat.zero_le _
  | cons value values ih =>
      rw [List.map_cons, List.sum_cons]
      cases hdynamic : value.isDynamic with
      | true =>
          have hothers := ih (offset + value.contents.length)
          rw [place_cons_of_isDynamic hdynamic]
          simp only [List.length_append]
          omega
      | false =>
          have hothers := ih offset
          rw [place_cons_of_isStatic hdynamic]
          simp only [List.length_append]
          omega

theorem sum_length_contents_le_block (values : List Value) :
    (values.map fun value => value.contents.length).sum ≤ (block values).length := by
  rw [block_eq_append, List.length_append]
  exact sum_length_contents_le values _

theorem dvd_length_place {values : List Value}
    (hwords : ∀ value ∈ values, Word.size ∣ value.contents.length) (offset : Nat) :
    Word.size ∣ (place offset values).1.length ∧ Word.size ∣ (place offset values).2.length := by
  induction values generalizing offset with
  | nil => exact ⟨Nat.dvd_zero _, Nat.dvd_zero _⟩
  | cons value values ih =>
      have hvalue := hwords value List.mem_cons_self
      have hothers := ih fun other hother => hwords other (List.mem_cons_of_mem _ hother)
      cases hdynamic : value.isDynamic with
      | true =>
          obtain ⟨hheads, htails⟩ := hothers (offset + value.contents.length)
          rw [place_cons_of_isDynamic hdynamic, List.length_append, List.length_append,
            length_lengthWord]
          exact ⟨Nat.dvd_add (Nat.dvd_refl _) hheads, Nat.dvd_add hvalue htails⟩
      | false =>
          obtain ⟨hheads, htails⟩ := hothers offset
          rw [place_cons_of_isStatic hdynamic, List.length_append]
          exact ⟨Nat.dvd_add hvalue hheads, htails⟩

theorem dvd_length_block {values : List Value}
    (hwords : ∀ value ∈ values, Word.size ∣ value.contents.length) :
    Word.size ∣ (block values).length := by
  obtain ⟨hheads, htails⟩ := dvd_length_place hwords (headLengths values)
  rw [block_eq_append, List.length_append]
  exact Nat.dvd_add hheads htails

/-- A value is written in whole words. -/
theorem dvd_length_contents (value : Value) : Word.size ∣ value.contents.length := by
  induction value with
  | bool value => simp
  | uint value bits => simp [Word.size]
  | int value bits => simp [Word.size]
  | address value => simp [Word.size]
  | fixedBytes value =>
      rw [contents, length_padRight]
      exact Nat.dvd_mul_right _ _
  | bytes value =>
      rw [contents, length_blob]
      exact Nat.dvd_mul_right _ _
  | string value =>
      rw [contents, length_blob]
      exact Nat.dvd_mul_right _ _
  | fixedArray element values ih =>
      rw [contents_fixedArray]
      exact dvd_length_block ih
  | array element values ih =>
      rw [contents_array, List.length_append, length_lengthWord]
      exact Nat.dvd_add (Nat.dvd_refl _) (dvd_length_block ih)
  | tuple members ih =>
      rw [contents_tuple]
      exact dvd_length_block ih

end Value

end ChainClient.Abi
