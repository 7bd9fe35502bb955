import ChainClient.Proofs.Abi.Size
import ChainClient.Proofs.Abi.WellFormed

/-!
# Sizes of heads

The number of bytes that a type occupies in the head of a block may exceed the largest size
there is. Where an element is multiplied by a length it stops there; where the members of a
tuple are added up it does not, and there is no size if the sum is too large. So the size of
a head is the extent of its type, cut down to the largest size, if no sum exceeds that size.
For a type that a text denotes this is so whenever its extent is a size.
-/

namespace ChainClient.Abi.AbiType

def largestSize : Nat := sizeCount - 1

/-- The number of bytes a type occupies, cut down to the largest size. -/
def cappedExtent (type : AbiType) : Nat :=
  min type.extent largestSize

mutual

/-- Whether the members of every tuple that is measured occupy together no more than the
largest size, each cut down to that size. The members of a dynamic tuple are not measured. -/
def addsUp : AbiType → Bool
  | .fixedArray element _ => isDynamic element || addsUp element
  | .tuple members =>
      anyDynamic members || (allAddUp members && (members.map cappedExtent).sum < sizeCount)
  | _ => true

def allAddUp : List AbiType → Bool
  | [] => true
  | type :: types => addsUp type && allAddUp types

end

attribute [local simp] headSize? headSizes? addsUp allAddUp extent extents

theorem allAddUp_iff {types : List AbiType} :
    allAddUp types = true ↔ ∀ type ∈ types, type.addsUp = true := by
  induction types with
  | nil => simp
  | cons type types ih => rw [allAddUp, List.forall_mem_cons, Bool.and_eq_true, ih]

/-! ## Sizes cut down -/

theorem min_mul_min (size length limit : Nat) :
    min (min size limit * length) limit = min (size * length) limit := by
  cases length with
  | zero => rw [Nat.mul_zero, Nat.mul_zero]
  | succ length =>
      by_cases hsize : size ≤ limit
      · rw [Nat.min_eq_left hsize]
      · have hlimit : limit ≤ limit * (length + 1) := Nat.le_mul_of_pos_right _ (by omega)
        have hlarge : limit * (length + 1) ≤ size * (length + 1) :=
          Nat.mul_le_mul_right _ (by omega)
        have hcut : min size limit = limit := Nat.min_eq_right (by omega)
        rw [hcut, Nat.min_eq_right hlimit, Nat.min_eq_right (hlimit.trans hlarge)]

/-- Sizes that were cut down add up to the sum cut down, if they add up to a size. -/
theorem sum_cappedExtent {types : List AbiType}
    (hsum : (types.map cappedExtent).sum < sizeCount) :
    (types.map cappedExtent).sum = min (extents types) largestSize := by
  induction types with
  | nil => exact (Nat.min_eq_left (Nat.zero_le _)).symm
  | cons type types ih =>
      rw [List.map_cons, List.sum_cons] at hsum ⊢
      have hothers : (types.map cappedExtent).sum = min (extents types) largestSize :=
        ih (by omega)
      rw [hothers] at hsum ⊢
      simp only [cappedExtent, largestSize, extents] at hsum ⊢
      omega

theorem sum_cappedExtent_le (types : List AbiType) :
    (types.map cappedExtent).sum ≤ extents types := by
  rw [extents_eq_sum]
  exact List.sum_le_sum fun type _ => Nat.min_le_left _ _

/-! ## Sums -/

theorem headSizes?_eq {types : List AbiType}
    (htypes : ∀ type ∈ types,
      type.headSize? = if type.addsUp then some type.cappedExtent else none) :
    headSizes? types =
      if allAddUp types ∧ (types.map cappedExtent).sum < sizeCount then
        some (types.map cappedExtent).sum
      else none := by
  induction types with
  | nil => rfl
  | cons type types ih =>
      obtain ⟨htype, hothers⟩ := List.forall_mem_cons.mp htypes
      rw [headSizes?, htype, ih hothers, allAddUp, List.map_cons, List.sum_cons]
      by_cases hadds : type.addsUp = true
      · by_cases hall : allAddUp types = true ∧ (types.map cappedExtent).sum < sizeCount
        · simp [hadds, hall]
        · have hnot : ¬ (allAddUp types = true ∧
              type.cappedExtent + (types.map cappedExtent).sum < sizeCount) := by
            rintro ⟨hothers, hsum⟩
            exact hall ⟨hothers, by omega⟩
          simp only [hadds, hall, hnot, Bool.true_and]
          rfl
      · simp [hadds]

/-- No sum exceeds the largest size exactly if all add up, and then the size of the head is
the extent cut down. -/
theorem headSize?_eq (type : AbiType) :
    type.headSize? = if type.addsUp then some type.cappedExtent else none := by
  have hword : min Word.size largestSize = Word.size := by decide
  induction type with
  | fixedArray element length ih =>
      rw [headSize?, addsUp, cappedExtent, extent]
      cases hdynamic : element.isDynamic with
      | true => simp [hword]
      | false =>
          rw [ih]
          by_cases hadds : element.addsUp = true
          · have hcut := min_mul_min element.extent length largestSize
            rw [largestSize] at hcut
            simp [hadds, cappedExtent, largestSize, hcut]
          · simp [hadds]
  | tuple members ih =>
      rw [headSize?, addsUp, cappedExtent, extent]
      cases hdynamic : anyDynamic members with
      | true => simp [hword]
      | false =>
          rw [headSizes?_eq ih]
          by_cases hadds : allAddUp members = true ∧ (members.map cappedExtent).sum < sizeCount
          · simp [hadds, sum_cappedExtent hadds.2]
          · simp [hadds]
  | _ => simp [cappedExtent, hword]

/-! ## Types whose extent is a size -/

/-- In a type whose extent is a size everything adds up, since no part of it is larger. -/
theorem addsUp_of_extent_lt {type : AbiType} (hwell : type.isWellFormed = true)
    (hbound : type.extent < sizeCount) : type.addsUp = true := by
  induction type with
  | fixedArray element length ih =>
      simp only [isWellFormed, Bool.and_eq_true, decide_eq_true_eq] at hwell
      obtain ⟨⟨hnonzero, -⟩, hwell⟩ := hwell
      rw [addsUp, Bool.or_eq_true]
      cases hdynamic : element.isDynamic with
      | true => exact .inl rfl
      | false =>
          have hle : element.extent ≤ element.extent * length :=
            Nat.le_mul_of_pos_right _ (Nat.pos_of_ne_zero (by simpa using hnonzero))
          simp only [extent, hdynamic, Bool.false_eq_true, if_false] at hbound
          exact .inr (ih hwell (by omega))
  | tuple members ih =>
      rw [isWellFormed, areWellFormed_iff] at hwell
      rw [addsUp, Bool.or_eq_true]
      cases hdynamic : anyDynamic members with
      | true => exact .inl rfl
      | false =>
          simp only [extent, hdynamic, Bool.false_eq_true, if_false] at hbound
          have hsum := sum_cappedExtent_le members
          rw [Bool.and_eq_true, allAddUp_iff, decide_eq_true_eq]
          refine .inr ⟨fun member hmember => ih member hmember (hwell member hmember) ?_, by omega⟩
          have hle : member.extent ≤ extents members := by
            rw [extents_eq_sum]
            exact List.le_sum_of_mem (List.mem_map_of_mem hmember)
          omega
  | _ => rfl

theorem headSize?_of_extent_lt {type : AbiType} (hwell : type.isWellFormed = true)
    (hbound : type.extent < sizeCount) : type.headSize? = some type.extent := by
  have hcapped : type.cappedExtent = type.extent := Nat.min_eq_left (by rw [largestSize]; omega)
  rw [headSize?_eq, if_pos (addsUp_of_extent_lt hwell hbound), hcapped]

/-- Of a type that a text denotes the size of the head is its extent, cut down to the largest
size, unless the members of a tuple in it occupy more than that together, and then it has
none; no sum exceeds the largest size if the extent of the type does not. -/
theorem headSize?_of_parse {text : String} {type : AbiType} (hparse : parse text = .ok type) :
    type.headSize? = (if type.addsUp then some (min type.extent largestSize) else none) ∧
      (type.extent < sizeCount → type.headSize? = some type.extent) :=
  ⟨headSize?_eq type, headSize?_of_extent_lt (isWellFormed_of_parse hparse)⟩

/-- A tuple may be as large as the largest multiple of a word that is a size, and an array in
it with no more than empty tuples takes nothing of that. -/
theorem headSize?_of_parse_largest :
    let text := "(uint8[576460752303423486],()[3],bool)"
    let type : AbiType :=
      .tuple [.fixedArray (.uint 8) 576460752303423486, .fixedArray (.tuple []) 3, .bool]
    parse text = .ok type ∧ type.extent = 18446744073709551584 ∧
      type.headSize? = some 18446744073709551584 := by
  intro text type
  have hparse : parse text = .ok type := by decide +kernel
  have hextent : type.extent = 18446744073709551584 := by decide +kernel
  obtain ⟨-, hexact⟩ := headSize?_of_parse hparse
  exact ⟨hparse, hextent, by rw [hexact (by decide +kernel), hextent]⟩

/-- Beside an array whose size is the largest one, a single word makes the sum too large. -/
theorem headSize?_ne_min_extent :
    let text := "(uint256[18446744073709551615],bool)"
    let type : AbiType := .tuple [.fixedArray (.uint 256) 18446744073709551615, .bool]
    parse text = .ok type ∧ min type.extent largestSize = 18446744073709551615 ∧
      type.headSize? = none := by
  decide +kernel

end ChainClient.Abi.AbiType
