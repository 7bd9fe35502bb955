import ChainClient.Proofs.Abi.RoundTrip

/-!
# Heads and cursors

The encoder lays out the heads of a block by measuring values, the decoder walks over
them by measuring types, and the bytes between two heads are a third measure. On a valid
value the three agree, and so they do on every value inside it: behind the components it
has read the decoder looks where the head of the next one was written.
-/

namespace ChainClient.Abi

namespace Decoding

/-! ## The cursor of the decoder -/

/-- The position behind the heads of components of the given types, the first of which
stands at `cursor`. -/
def cursorBehind (data : Bytes) (types : List AbiType) (cursor : Nat) : Decoding Nat :=
  types.foldlM (fun position type => (type.component data).next position) cursor

variable {data : Bytes} {start cursor next budget rest : Nat}

theorem Component.Advances.unique {component : Component} {other : Nat}
    (hnext : component.Advances cursor next) (hother : component.Advances cursor other) :
    next = other := by
  simp only [Component.Advances] at hnext hother
  split at hnext
  next hdynamic =>
    rw [if_pos hdynamic] at hother
    rw [hnext, hother]
  next hstatic =>
    rw [if_neg hstatic] at hother
    obtain ⟨size, hsize, rfl, -⟩ := hnext
    obtain ⟨_, hsame, rfl, -⟩ := hother
    rw [Option.some.inj (hsize.symm.trans hsame)]

theorem yields_cursorBehind_nil :
    (cursorBehind data [] cursor).Yields budget next rest ↔ cursor = next ∧ budget = rest := by
  rw [cursorBehind, List.foldlM_nil, yields_pure]

theorem yields_cursorBehind_cons {type : AbiType} {types : List AbiType} :
    (cursorBehind data (type :: types) cursor).Yields budget next rest ↔
      ∃ second, (type.component data).Advances cursor second ∧
        (cursorBehind data types second).Yields budget next rest := by
  simp only [cursorBehind, List.foldlM_cons, yields_bind, yields_next]
  constructor
  · rintro ⟨second, _, ⟨hsecond, rfl⟩, hnext⟩
    exact ⟨second, hsecond, hnext⟩
  · rintro ⟨second, hsecond, hnext⟩
    exact ⟨second, budget, ⟨hsecond, rfl⟩, hnext⟩

/-- A block is read by reading some first components and then the others, whose heads
start at the cursor behind the first. -/
theorem yields_decodeMembers_iff_behind {firsts seconds : List AbiType} {values : List Value} :
    (decodeMembers data start (firsts ++ seconds) cursor).Yields budget values rest ↔
      ∃ before middle next after,
        (decodeMembers data start firsts cursor).Yields budget before middle ∧
        (cursorBehind data firsts cursor).Yields middle next middle ∧
        (decodeMembers data start seconds next).Yields middle after rest ∧
        values = before ++ after := by
  induction firsts generalizing cursor budget values with
  | nil =>
      constructor
      · intro hvalues
        exact ⟨[], budget, cursor, values, yields_decodeMembers_nil.mpr ⟨rfl, rfl⟩,
          yields_cursorBehind_nil.mpr ⟨rfl, rfl⟩, hvalues, rfl⟩
      · rintro ⟨before, middle, next, after, hbefore, hnext, hafter, rfl⟩
        obtain ⟨rfl, rfl⟩ := yields_decodeMembers_nil.mp hbefore
        obtain ⟨rfl, -⟩ := yields_cursorBehind_nil.mp hnext
        exact hafter
  | cons type types ih =>
      simp only [List.cons_append, yields_decodeMembers_cons, yields_cursorBehind_cons]
      constructor
      · rintro ⟨position, value, paid, second, _, hposition, hvalue, hsecond, hothers, rfl⟩
        obtain ⟨before, middle, next, after, hbefore, hnext, hafter, rfl⟩ := ih.mp hothers
        exact ⟨value :: before, middle, next, after,
          ⟨position, value, paid, second, before, hposition, hvalue, hsecond, hbefore, rfl⟩,
          ⟨second, hsecond, hnext⟩, hafter, rfl⟩
      · rintro ⟨_, middle, next, after,
          ⟨position, value, paid, second, before, hposition, hvalue, hsecond, hbefore, rfl⟩,
          ⟨other, hother, hnext⟩, hafter, rfl⟩
        obtain rfl := hsecond.unique hother
        exact ⟨position, value, paid, second, before ++ after, hposition, hvalue, hsecond,
          ih.mpr ⟨before, middle, next, after, hbefore, hnext, hafter, rfl⟩, rfl⟩

end Decoding

open Decoding

namespace Value

/-! ## The heads of the encoder -/

theorem headLengths_append (firsts seconds : List Value) :
    headLengths (firsts ++ seconds) = headLengths firsts + headLengths seconds := by
  simp only [headLengths_eq_sum, List.map_append, List.sum_append]

/-- The size of a head is a size on the machine if the contents are no longer than a size. -/
theorem headLength_lt {value : Value} (hvalid : value.IsValid)
    (hbound : value.contents.length < AbiType.sizeCount) :
    value.headLength < AbiType.sizeCount := by
  cases hdynamic : value.isDynamic with
  | true =>
      rw [headLength_of_isDynamic hdynamic]
      decide
  | false => rwa [← length_contents_of_isStatic hvalid hdynamic]

/-- The heads and tails of some first values are followed by those of the others. -/
theorem place_append (firsts seconds : List Value) (offset : Nat) :
    place offset (firsts ++ seconds) =
      let before := place offset firsts
      let after := place (offset + before.2.length) seconds
      (before.1 ++ after.1, before.2 ++ after.2) := by
  induction firsts generalizing offset with
  | nil => rfl
  | cons value values ih =>
      rw [List.cons_append]
      cases hdynamic : value.isDynamic with
      | true =>
          simp only [place_cons_of_isDynamic hdynamic, ih, List.append_assoc, List.length_append,
            Nat.add_assoc]
      | false => simp only [place_cons_of_isStatic hdynamic, ih, List.append_assoc]

variable {data : Bytes} {start budget : Nat} {before after : List Value} {part : Value}

/-- The decoder steps over the head of a value by as many bytes as the encoder wrote. -/
theorem advances_headLength {value : Value} {cursor : Nat} (hvalid : value.IsValid)
    (hbound : cursor + value.headLength < AbiType.sizeCount) :
    (value.type.component data).Advances cursor (cursor + value.headLength) := by
  have hsize := headSize?_type hvalid (by omega)
  simp only [Component.Advances, AbiType.component, isDynamic_type, hsize]
  cases hdynamic : value.isDynamic with
  | true => simp [headLength_of_isDynamic hdynamic]
  | false => simpa using hbound

/-- Behind values the cursor of the decoder stands at the end of the heads of the encoder. -/
theorem yields_cursorBehind_types {values : List Value} {cursor : Nat}
    (hvalid : ∀ value ∈ values, value.IsValid)
    (hbound : cursor + headLengths values < AbiType.sizeCount) :
    (cursorBehind data (types values) cursor).Yields budget (cursor + headLengths values)
      budget := by
  induction values generalizing cursor with
  | nil => exact yields_cursorBehind_nil.mpr ⟨rfl, rfl⟩
  | cons value values ih =>
      obtain ⟨hvalue, hothers⟩ := List.forall_mem_cons.mp hvalid
      rw [headLengths, ← Nat.add_assoc] at hbound ⊢
      exact yields_cursorBehind_cons.mpr
        ⟨cursor + value.headLength, advances_headLength hvalue (by omega), ih hothers hbound⟩

/-- From the head of a value the decoder finds the contents that the encoder wrote. -/
theorem exists_locates_of_at_block (hvalid : ∀ value ∈ before ++ part :: after, value.IsValid)
    (hbound : data.length < AbiType.sizeCount)
    (hat : Bytes.At data start (block (before ++ part :: after))) :
    ∃ position,
      (part.type.component data).Locates data start (start + headLengths before) position ∧
        Bytes.At data position part.contents := by
  have hbefore : ∀ value ∈ before, value.IsValid := fun value hvalue =>
    hvalid value (List.mem_append_left _ hvalue)
  rw [block_eq_append] at hat
  have hheads := hat.left
  have htails := hat.right
  rw [length_heads hvalid] at htails
  -- where the tails start does not matter for where the heads stand
  generalize headLengths (before ++ part :: after) = offset at hheads htails
  rw [place_append] at hheads htails
  have hhead := hheads.right
  have htail := htails.right
  rw [length_heads hbefore] at hhead
  cases hdynamic : part.isDynamic with
  | true =>
      rw [place_cons_of_isDynamic hdynamic] at hhead htail
      rw [Nat.add_assoc] at htail
      have hend := htail.left.end_le
      -- the word that stands at the head is where the tail stands, counted from the start
      refine ⟨_, ?_, htail.left⟩
      simp only [Component.Locates, AbiType.component, isDynamic_type, hdynamic, if_true]
      exact ⟨_, sizeAt_of_at_lengthWord (by omega) hhead.left, rfl, by omega⟩
  | false =>
      rw [place_cons_of_isStatic hdynamic] at hhead
      refine ⟨_, ?_, hhead.left⟩
      simp only [Component.Locates, AbiType.component, isDynamic_type, hdynamic,
        Bool.false_eq_true, if_false]

/-! ## Values inside values -/

/-- The inner value is the outer one, or stands in one of its elements or members. -/
inductive Contains : (outer inner : Value) → Prop where
  | self (value : Value) : Contains value value
  | part {outer part inner : Value} {parts : List Value} (hparts : outer.asList? = some parts)
      (hpart : part ∈ parts) (hinner : Contains part inner) : Contains outer inner

theorem isValid_of_asList? {value : Value} {parts : List Value} (hvalid : value.IsValid)
    (hparts : value.asList? = some parts) : ∀ part ∈ parts, part.IsValid := by
  intro part hpart
  cases value with
  | fixedArray element values =>
      obtain rfl := Option.some.inj hparts
      exact ((isValid_fixedArray.mp hvalid).2 part hpart).2
  | array element values =>
      obtain rfl := Option.some.inj hparts
      exact (isValid_array.mp hvalid part hpart).2
  | tuple members =>
      obtain rfl := Option.some.inj hparts
      exact isValid_tuple.mp hvalid part hpart
  | _ => simp [asList?] at hparts

/-- Where the block of its parts starts in the contents of a value, and where the decoder
starts to read them: an array of any length has its length in front. -/
def partsOffset : Value → Nat
  | .array _ _ => Word.size
  | _ => 0

theorem at_block_of_asList? {value : Value} {parts : List Value} {position : Nat}
    (hparts : value.asList? = some parts) (hat : Bytes.At data position value.contents) :
    Bytes.At data (position + value.partsOffset) (block parts) := by
  cases value with
  | fixedArray element values =>
      obtain rfl := Option.some.inj hparts
      rwa [contents_fixedArray] at hat
  | array element values =>
      obtain rfl := Option.some.inj hparts
      rw [contents_array] at hat
      have hblock := hat.right
      rwa [length_lengthWord] at hblock
  | tuple members =>
      obtain rfl := Option.some.inj hparts
      rwa [contents_tuple] at hat
  | _ => simp [asList?] at hparts

theorem length_block_le_of_asList? {value : Value} {parts : List Value}
    (hparts : value.asList? = some parts) : (block parts).length ≤ value.contents.length := by
  have hend := (at_block_of_asList? hparts (Bytes.At.start value.contents)).end_le
  omega

/-- What a valid value contains is valid, and no longer than the value. -/
theorem Contains.isValid_and_length_le {outer inner : Value} (hcontains : outer.Contains inner)
    (hvalid : outer.IsValid) :
    inner.IsValid ∧ inner.contents.length ≤ outer.contents.length := by
  induction hcontains with
  | self value => exact ⟨hvalid, Nat.le_refl _⟩
  | part hparts hpart _ ih =>
      obtain ⟨hinner, hle⟩ := ih (isValid_of_asList? hvalid hparts _ hpart)
      exact ⟨hinner, hle.trans
        ((length_contents_le_block hpart).trans (length_block_le_of_asList? hparts))⟩

/-! ## Layouts -/

/-- The measures of a value by its type are those by which it is written: its head is as
long as its type says, and so are its contents if they stand in the head. Wherever its
contents stand, the decoder steps over the heads of some first parts to the head of the next
one, and finds the contents of that part from there. -/
structure IsLaidOut (value : Value) : Prop where
  headSize?_eq : value.type.headSize? = some value.headLength
  headSize?_eq_length : value.isDynamic = false →
    value.type.headSize? = some value.contents.length
  cursor : ∀ before part after, value.asList? = some (before ++ part :: after) →
    ∀ data position budget, data.length < 2 ^ 63 → Bytes.At data position value.contents →
      let start := position + value.partsOffset
      (cursorBehind data (types before) start).Yields budget (start + headLengths before) budget ∧
        ∃ found,
          (part.type.component data).Locates data start (start + headLengths before) found ∧
            Bytes.At data found part.contents

theorem isLaidOut {value : Value} (hvalid : value.IsValid)
    (hbound : value.contents.length < AbiType.sizeCount) : value.IsLaidOut where
  headSize?_eq := headSize?_type hvalid (headLength_lt hvalid hbound)
  headSize?_eq_length hstatic := by
    rw [headSize?_type hvalid (headLength_lt hvalid hbound),
      length_contents_of_isStatic hvalid hstatic]
  cursor before part after hparts data position budget hdata hat := by
    have hparts' := isValid_of_asList? hvalid hparts
    have hblock := at_block_of_asList? hparts hat
    have hsize : data.length < AbiType.sizeCount := hdata.trans (by decide)
    have hend := hblock.end_le
    have hheads := headLengths_le_block hparts'
    rw [headLengths_append] at hheads
    exact ⟨yields_cursorBehind_types
        (fun other hother => hparts' other (List.mem_append_left _ hother)) (by omega),
      exists_locates_of_at_block hparts' hsize hblock⟩

/-- A value and its type agree on its size. They agree on whether any value is dynamic, valid
or not. A valid value that is written in less than 2 ^ 63 bytes is laid out as its type says,
and so is every value inside it; and behind some first components of a block the decoder goes
on with the cursor behind their heads. -/
theorem sizes_of_value_and_type :
    (∀ value : Value, value.isDynamic = value.type.isDynamic) ∧
      (∀ outer inner : Value, outer.IsValid → outer.contents.length < 2 ^ 63 →
        outer.Contains inner → inner.IsLaidOut) ∧
      ∀ (data : Bytes) (start cursor budget rest : Nat) (firsts seconds : List AbiType)
        (values : List Value),
        (decodeMembers data start (firsts ++ seconds) cursor).Yields budget values rest ↔
          ∃ before middle next after,
            (decodeMembers data start firsts cursor).Yields budget before middle ∧
            (cursorBehind data firsts cursor).Yields middle next middle ∧
            (decodeMembers data start seconds next).Yields middle after rest ∧
            values = before ++ after := by
  refine ⟨fun value => (isDynamic_type value).symm, ?_, ?_⟩
  · intro outer inner hvalid hbound hcontains
    obtain ⟨hinner, hle⟩ := hcontains.isValid_and_length_le hvalid
    exact isLaidOut hinner (hle.trans_lt (hbound.trans (by decide)))
  · intro data start cursor budget rest firsts seconds values
    exact yields_decodeMembers_iff_behind

/-- Two pairs in the head, then the offset of a text and a flag: the decoder comes to the
offset after the four words of the pairs. -/
theorem sizes_of_value_and_type_pairs :
    let pair (number : Word) (flag : Bool) : Value := .tuple [.uint number 8, .bool flag]
    let pairs : Value := .fixedArray (.tuple [.uint 8, .bool]) [pair 1 true, pair 2 false]
    let outer : Value := .tuple [pairs, .string "a", .bool true]
    outer.IsValid ∧ outer.contents.length < 2 ^ 63 ∧ outer.Contains pairs ∧
      pairs.type.headSize? = some 128 ∧ pairs.contents.length = 128 ∧
      (cursorBehind outer.contents [pairs.type] 0).Yields 0 128 0 := by
  intro pair pairs outer
  have hvalid : outer.IsValid := rfl
  have hbound : outer.contents.length < 2 ^ 63 := by decide +kernel
  have hpairs : outer.Contains pairs := .part rfl List.mem_cons_self (.self pairs)
  have hsize : pairs.type.headSize? = some 128 := by decide +kernel
  obtain ⟨-, hlaid, -⟩ := sizes_of_value_and_type
  refine ⟨hvalid, hbound, hpairs, hsize, ?_, ?_⟩
  · have hlength := (hlaid outer pairs hvalid hbound hpairs).headSize?_eq_length (by decide +kernel)
    exact Option.some.inj (hlength.symm.trans hsize)
  · have hcursor := (hlaid outer outer hvalid hbound (.self outer)).cursor
      [pairs] (.string "a") [.bool true] rfl outer.contents 0 0 hbound
    exact (hcursor (Bytes.At.start _)).1

end Value

end ChainClient.Abi
