import ChainClient.Abi.Decoder
import ChainClient.Proofs.Bytes
import ChainClient.Proofs.Abi.Weight

/-!
# What a successful reading says

Each step of decoding is described by when it succeeds, with what, and what is left
of the budget. A description is an equivalence: read forwards it says what decoded
data holds, read backwards that data is decoded. Arrays and tuples are read by one
rule, because the elements of an array are the members of a tuple that repeats one
type.
-/

namespace ChainClient.Abi

namespace Decoding

/-- Reading under a budget gives the value and leaves the rest of the budget. -/
def Yields {α : Type} (reading : Decoding α) (budget : Nat) (value : α) (rest : Nat) : Prop :=
  reading budget = .ok (value, rest)

section Steps

variable {α β : Type} {data : Bytes} {position budget rest : Nat}

@[simp] theorem yields_pure {value result : α} :
    (pure value : Decoding α).Yields budget result rest ↔ value = result ∧ budget = rest := by
  change Except.ok (value, budget) = .ok (result, rest) ↔ _
  simp

@[simp] theorem yields_bind {reading : Decoding α} {next : α → Decoding β} {result : β} :
    (reading >>= next).Yields budget result rest ↔
      ∃ value middle, reading.Yields budget value middle ∧
        (next value).Yields middle result rest := by
  simp only [Yields, bind, StateT.bind, Except.bind]
  cases reading budget with
  | error => simp
  | ok outcome =>
      obtain ⟨value, middle⟩ := outcome
      simp

/-- What follows a step that succeeds goes on with what the step gives. -/
theorem Yields.bind_eq {reading : Decoding α} {value : α}
    (hreading : reading.Yields budget value rest) (next : α → Decoding β) :
    (reading >>= next) budget = next value rest := by
  simp only [bind, StateT.bind, show reading budget = _ from hreading, Except.bind]

/-- A defect that is met ends the reading. -/
theorem bind_eq_error {reading : Decoding α} {error : DecodeError}
    (hreading : reading budget = .error error) (next : α → Decoding β) :
    (reading >>= next) budget = .error error := by
  simp only [bind, StateT.bind, hreading, Except.bind]

@[simp] theorem not_yields_refuse {defect : Defect} {result : α} :
    ¬ (refuse defect : Decoding α).Yields budget result rest := by
  simp [Yields, refuse]

@[simp] theorem not_yields_stop {result : α} :
    ¬ (stop : Decoding α).Yields budget result rest := by
  simp [Yields, stop]

@[simp] theorem not_yields_error {error : DecodeError} {result : α} :
    ¬ Yields (fun _ => .error error) budget result rest := by
  simp [Yields]

@[simp] theorem yields_charge {words : Nat} {result : Unit} :
    (charge words).Yields budget result rest ↔ budget = rest + words := by
  simp only [Yields, charge]
  split
  · simp only [Except.ok.injEq, Prod.mk.injEq, true_and]
    omega
  · simp only [reduceCtorEq, false_iff]
    omega

theorem yields_map {reading : Decoding α} {wrap : α → β} {result : β} :
    (reading >>= fun value => pure (wrap value)).Yields budget result rest ↔
      ∃ value, reading.Yields budget value rest ∧ result = wrap value := by
  simp only [yields_bind, yields_pure]
  constructor
  · rintro ⟨value, middle, hvalue, rfl, rfl⟩
    exact ⟨value, hvalue, rfl⟩
  · rintro ⟨value, hvalue, rfl⟩
    exact ⟨value, rest, hvalue, rfl, rfl⟩

/-- A reading that is paid for at the end needs so much more in the beginning. -/
theorem yields_paid {reading : Decoding α} {words : Nat} {result : α} :
    (reading >>= fun value => charge words >>= fun _ => pure value).Yields budget result rest ↔
      reading.Yields budget result (rest + words) := by
  simp only [yields_bind, yields_charge, yields_pure]
  constructor
  · rintro ⟨value, middle, hvalue, _, _, rfl, rfl, rfl⟩
    exact hvalue
  · intro hresult
    exact ⟨result, rest + words, hresult, (), rest, rfl, rfl, rfl⟩

/-- A word of 32 bytes stands at the position. -/
def WordAt (data : Bytes) (position : Nat) (word : Bytes) : Prop :=
  word.length = Word.size ∧ Bytes.At data position word

/-- A length or offset that is no larger than any size stands at the position. -/
def SizeAt (data : Bytes) (position number : Nat) : Prop :=
  number < AbiType.sizeCount ∧ ∃ word, WordAt data position word ∧ Bytes.toNat word = number

/-- A byte string behind its length stands at the position. -/
def BlobAt (data : Bytes) (position : Nat) (body : Bytes) : Prop :=
  SizeAt data position body.length ∧ Bytes.At data (position + Word.size) body

@[simp] theorem yields_peekWord {word : Bytes} :
    (peekWord data position).Yields budget word rest ↔
      WordAt data position word ∧ budget = rest := by
  simp only [peekWord]
  split
  next hlength =>
    rw [yields_pure, and_congr_left_iff]
    rintro -
    constructor
    · rintro rfl
      have hposition : position ≤ data.length := by
        rw [List.length_take, List.length_drop] at hlength
        simp only [Word.size] at hlength
        omega
      exact ⟨hlength, Bytes.at_take_drop hposition _⟩
    · rintro ⟨hword, hat⟩
      rw [← hword, hat.eq_take_drop]
  next hlength =>
    simp only [not_yields_refuse, false_iff, not_and]
    rintro ⟨hword, hat⟩ -
    rw [← hword, hat.eq_take_drop] at hlength
    exact hlength rfl

@[simp] theorem yields_peekSize {number : Nat} :
    (peekSize data position).Yields budget number rest ↔
      SizeAt data position number ∧ budget = rest := by
  simp only [peekSize, yields_bind, yields_peekWord, SizeAt]
  constructor
  · rintro ⟨word, middle, ⟨hword, rfl⟩, hsize⟩
    split at hsize
    next hbound =>
      obtain ⟨rfl, rfl⟩ := yields_pure.mp hsize
      exact ⟨⟨hbound, word, hword, rfl⟩, rfl⟩
    next => exact absurd hsize not_yields_refuse
  · rintro ⟨⟨hbound, word, hword, rfl⟩, rfl⟩
    exact ⟨word, budget, ⟨hword, rfl⟩, by simp [hbound]⟩

@[simp] theorem yields_word {word : Bytes} :
    (Decoding.word data position).Yields budget word rest ↔
      WordAt data position word ∧ budget = rest + 1 := by
  rw [Decoding.word, yields_paid, yields_peekWord]

@[simp] theorem yields_length {number : Nat} :
    (Decoding.length data position).Yields budget number rest ↔
      SizeAt data position number ∧ budget = rest + 1 := by
  rw [Decoding.length, yields_paid, yields_peekSize]

/-- A byte string is paid for with its length and the words it occupies. -/
@[simp] theorem yields_blob {body : Bytes} :
    (blob data position).Yields budget body rest ↔
      BlobAt data position body ∧ budget = rest + (1 + wordCount body.length) := by
  simp only [blob, yields_bind, yields_length, BlobAt]
  constructor
  · rintro ⟨count, middle, ⟨hsize, rfl⟩, hbody⟩
    split at hbody
    next hend =>
      simp only [yields_bind, yields_charge, yields_pure] at hbody
      obtain ⟨_, _, rfl, rfl, rfl⟩ := hbody
      -- the bytes that are cut out are as many as the length says
      have hcut : Bytes.At data (position + Word.size)
          ((data.drop (position + Word.size)).take count) :=
        Bytes.at_take_drop (by omega) count
      have hcount : ((data.drop (position + Word.size)).take count).length = count := by
        rw [List.length_take, List.length_drop]
        omega
      rw [hcount, wordCount]
      exact ⟨⟨hsize, hcut⟩, by omega⟩
    next => exact absurd hbody not_yields_refuse
  · rintro ⟨⟨hsize, hbody⟩, rfl⟩
    refine ⟨body.length, rest + wordCount body.length, ⟨hsize, by omega⟩, ?_⟩
    rw [if_pos hbody.end_le]
    simp only [yields_bind, yields_charge, yields_pure]
    exact ⟨(), rest, rfl, hbody.eq_take_drop, rfl⟩

end Steps

/-! ## Components of a block -/

section Components

variable {component : Component} {data : Bytes} {start cursor budget rest : Nat}

/-- The contents of a component whose head stands at `cursor` stand at `position`. -/
def Component.Locates (component : Component) (data : Bytes) (start cursor position : Nat) : Prop :=
  if component.isDynamic then
    ∃ offset, SizeAt data cursor offset ∧ position = start + offset ∧ position ≤ data.length
  else position = cursor

/-- The head behind that of a component at `cursor` stands at `next`. -/
def Component.Advances (component : Component) (cursor next : Nat) : Prop :=
  if component.isDynamic then next = cursor + Word.size
  else ∃ size, component.headSize? = some size ∧ next = cursor + size ∧ next < AbiType.sizeCount

theorem yields_read {value : Value} :
    (component.read data start cursor).Yields budget value rest ↔
      ∃ position, component.Locates data start cursor position ∧
        (component.contents position).Yields budget value rest := by
  simp only [Component.read, Component.Locates]
  split
  next =>
    simp only [yields_bind, yields_peekSize]
    constructor
    · rintro ⟨offset, middle, ⟨hoffset, rfl⟩, hvalue⟩
      split at hvalue
      next hrange => exact ⟨start + offset, ⟨offset, hoffset, rfl, hrange⟩, hvalue⟩
      next => exact absurd hvalue not_yields_refuse
    · rintro ⟨position, ⟨offset, hoffset, rfl, hrange⟩, hvalue⟩
      exact ⟨offset, budget, ⟨hoffset, rfl⟩, by rwa [if_pos hrange]⟩
  next => simp

@[simp] theorem yields_headSize {size : Nat} :
    component.headSize.Yields budget size rest ↔
      component.headSize? = some size ∧ budget = rest := by
  simp only [Component.headSize]
  cases component.headSize? <;> simp

theorem yields_next {next : Nat} :
    (component.next cursor).Yields budget next rest ↔
      component.Advances cursor next ∧ budget = rest := by
  simp only [Component.next, Component.Advances]
  split
  next => simp [eq_comm]
  next =>
    simp only [yields_bind, yields_headSize]
    constructor
    · rintro ⟨size, _, ⟨hsize, rfl⟩, hnext⟩
      split at hnext
      next hbound =>
        obtain ⟨rfl, rfl⟩ := yields_pure.mp hnext
        exact ⟨⟨size, hsize, rfl, hbound⟩, rfl⟩
      next => exact absurd hnext not_yields_refuse
    · rintro ⟨⟨size, hsize, rfl, hbound⟩, rfl⟩
      exact ⟨size, budget, ⟨hsize, rfl⟩, by rw [if_pos hbound]; simp⟩

/-- The elements of an array fit the data behind its length, static ones have heads of some
size, and those without a head of their own are paid for one by one. -/
theorem yields_checkCount {count : Nat} {result : Unit} :
    (checkCount data component start count).Yields budget result rest ↔
      count ≤ (data.length - start) / Word.size ∧
        (component.isDynamic = true ∨ component.headSize?.isSome = true) ∧
        budget = rest + if !component.isDynamic && component.headSize? == some 0 then count
          else 0 := by
  simp only [checkCount]
  split
  next hcount =>
    simp only [not_yields_refuse, false_iff, not_and]
    omega
  next hcount =>
    rw [and_iff_right (by omega)]
    cases hdynamic : component.isDynamic with
    | true => simp
    | false =>
        simp only [Bool.false_eq_true, if_false, yields_bind, yields_headSize]
        cases hsize : component.headSize? with
        | none => simp
        | some size => by_cases hzero : size = 0 <;> simp [hzero]

end Components

end Decoding

open Decoding

/-! ## Values -/

/-- How the values of a type are read as components of a block. -/
def AbiType.component (data : Bytes) (type : AbiType) : Component :=
  ⟨type.isDynamic, type.headSize?, decodeValue data type⟩

section Values

variable {data : Bytes} {position start cursor budget rest : Nat} {value : Value}
  {values : List Value}

attribute [local simp] decodeValue decodeMembers

theorem mk_eq_component (type : AbiType) :
    (⟨type.isDynamic, type.headSize?, decodeValue data type⟩ : Component) =
      type.component data := rfl

theorem yields_decodeMembers_nil :
    (decodeMembers data start [] cursor).Yields budget values rest ↔
      values = [] ∧ budget = rest := by
  simp [eq_comm]

/-- A block is read by reading its first component where it stands and the others
behind its head. -/
theorem yields_decodeMembers_cons {type : AbiType} {types : List AbiType} :
    (decodeMembers data start (type :: types) cursor).Yields budget values rest ↔
      ∃ position value middle next others,
        (type.component data).Locates data start cursor position ∧
        (decodeValue data type position).Yields budget value middle ∧
        (type.component data).Advances cursor next ∧
        (decodeMembers data start types next).Yields middle others rest ∧
        values = value :: others := by
  simp only [decodeMembers, yields_bind, yields_pure]
  constructor
  · rintro ⟨value, middle, hvalue, next, _, hnext, others, _, hothers, rfl, rfl⟩
    obtain ⟨position, hposition, hvalue⟩ := yields_read.mp hvalue
    obtain ⟨hadvance, rfl⟩ := yields_next.mp hnext
    exact ⟨position, value, middle, next, others, hposition, hvalue, hadvance, hothers, rfl⟩
  · rintro ⟨position, value, middle, next, others, hposition, hvalue, hnext, hothers, rfl⟩
    exact ⟨value, middle, yields_read.mpr ⟨position, hposition, hvalue⟩, next, middle,
      yields_next.mpr ⟨hnext, rfl⟩, others, rest, hothers, rfl, rfl⟩

/-- The elements of an array are read like the members of a tuple of one type. -/
theorem elements_eq_decodeMembers (type : AbiType) (count : Nat) :
    elements (type.component data) data start count cursor =
      decodeMembers data start (List.replicate count type) cursor := by
  induction count generalizing cursor with
  | zero => rfl
  | succ count ih =>
      rw [elements, List.replicate_succ, decodeMembers]
      simp only [ih]
      rfl

theorem yields_decodeBool :
    (decodeValue data .bool position).Yields budget value rest ↔
      ∃ word flag, WordAt data position word ∧ Bytes.toNat word = Bool.toNat flag ∧
        value = .bool flag ∧ budget = rest + 1 := by
  simp only [decodeValue, yields_bind, yields_word]
  constructor
  · rintro ⟨word, middle, ⟨hword, rfl⟩, hvalue⟩
    split at hvalue
    next hzero =>
      obtain ⟨rfl, rfl⟩ := yields_pure.mp hvalue
      exact ⟨word, false, hword, hzero, rfl, rfl⟩
    next hone =>
      obtain ⟨rfl, rfl⟩ := yields_pure.mp hvalue
      exact ⟨word, true, hword, hone, rfl, rfl⟩
    next => exact absurd hvalue not_yields_refuse
  · rintro ⟨word, flag, hword, hflag, rfl, rfl⟩
    refine ⟨word, rest, ⟨hword, rfl⟩, ?_⟩
    cases flag <;> simp [hflag]

/-- A word is read, paid for, and turned into a value if it is acceptable. -/
theorem yields_checkedWord (accepts : Bytes → Bool) (defect : Defect) (result : Bytes → Value) :
    (do
      let word ← Decoding.word data position
      if accepts word then pure (result word) else refuse defect : Decoding Value).Yields
        budget value rest ↔
      ∃ word, WordAt data position word ∧ accepts word = true ∧ value = result word ∧
        budget = rest + 1 := by
  simp only [yields_bind, yields_word]
  constructor
  · rintro ⟨word, middle, ⟨hword, rfl⟩, hvalue⟩
    split at hvalue
    next haccepts =>
      obtain ⟨rfl, rfl⟩ := yields_pure.mp hvalue
      exact ⟨word, hword, haccepts, rfl, rfl⟩
    next => exact absurd hvalue not_yields_refuse
  · rintro ⟨word, hword, haccepts, rfl, rfl⟩
    exact ⟨word, rest, ⟨hword, rfl⟩, by simp [haccepts]⟩

theorem yields_decodeUint {bits : Nat} :
    (decodeValue data (.uint bits) position).Yields budget value rest ↔
      ∃ word, WordAt data position word ∧ bitLength (Word.ofBytes word).toNat ≤ bits ∧
        value = .uint (Word.ofBytes word) bits ∧ budget = rest + 1 := by
  rw [decodeValue]
  simpa only [decide_eq_true_eq] using
    yields_checkedWord (fun word => decide (bitLength (Word.ofBytes word).toNat ≤ bits))
      (.uintTooWide bits) (fun word => .uint (Word.ofBytes word) bits)

theorem yields_decodeInt {bits : Nat} :
    (decodeValue data (.int bits) position).Yields budget value rest ↔
      ∃ word, WordAt data position word ∧
        (bits ≠ 0 ∧ Value.fitsSigned (Word.ofBytes word) bits = true) ∧
        value = .int (Word.ofBytes word) bits ∧ budget = rest + 1 := by
  rw [decodeValue]
  by_cases hbits : bits = 0
  · -- there is no sign bit to look at
    simp [hbits]
  · simpa [hbits] using
      yields_checkedWord (fun word => Value.fitsSigned (Word.ofBytes word) bits)
        (.intTooWide bits) (fun word => .int (Word.ofBytes word) bits)

theorem yields_decodeAddress :
    (decodeValue data .address position).Yields budget value rest ↔
      ∃ word, WordAt data position word ∧ Bytes.areZero (word.take 12) = true ∧
        value = .address (Address.ofLastBytes (word.drop 12)) ∧ budget = rest + 1 := by
  rw [decodeValue]
  exact yields_checkedWord (fun word => Bytes.areZero (word.take 12)) _ _

theorem yields_decodeFixedBytes {count : Nat} :
    (decodeValue data (.fixedBytes count) position).Yields budget value rest ↔
      ∃ word, WordAt data position word ∧ count ≤ Word.size ∧
        Bytes.areZero (word.drop count) = true ∧
        value = .fixedBytes (word.take count) ∧ budget = rest + 1 := by
  simp only [decodeValue, yields_bind, yields_word]
  constructor
  · rintro ⟨word, middle, ⟨hword, rfl⟩, hvalue⟩
    split at hvalue
    next => exact absurd hvalue not_yields_refuse
    next hcount =>
      split at hvalue
      next hzero =>
        obtain ⟨rfl, rfl⟩ := yields_pure.mp hvalue
        exact ⟨word, hword, Nat.le_of_not_lt hcount, hzero, rfl, rfl⟩
      next => exact absurd hvalue not_yields_refuse
  · rintro ⟨word, hword, hcount, hzero, rfl, rfl⟩
    exact ⟨word, rest, ⟨hword, rfl⟩, by simp [Nat.not_lt.mpr hcount, hzero]⟩

theorem yields_decodeBytes :
    (decodeValue data .bytes position).Yields budget value rest ↔
      ∃ body, BlobAt data position body ∧ value = .bytes body ∧
        budget = rest + (1 + wordCount body.length) := by
  rw [decodeValue, yields_map]
  refine exists_congr fun body => ?_
  rw [yields_blob, and_right_comm, and_assoc]

theorem yields_decodeString :
    (decodeValue data .string position).Yields budget value rest ↔
      ∃ text, BlobAt data position (Bytes.ofText text) ∧ value = .string text ∧
        budget = rest + (1 + wordCount (Bytes.ofText text).length) := by
  simp only [decodeValue, yields_bind, yields_blob]
  constructor
  · rintro ⟨body, middle, ⟨hbody, rfl⟩, hvalue⟩
    split at hvalue
    next text htext =>
      obtain ⟨rfl, rfl⟩ := yields_pure.mp hvalue
      obtain rfl := Bytes.ofText_of_toText? htext
      exact ⟨text, hbody, rfl, rfl⟩
    next => exact absurd hvalue not_yields_error
  · rintro ⟨text, hbody, rfl, rfl⟩
    exact ⟨Bytes.ofText text, rest, ⟨hbody, rfl⟩, by simp⟩

theorem yields_decodeFixedArray {element : AbiType} {count : Nat} :
    (decodeValue data (.fixedArray element count) position).Yields budget value rest ↔
      ∃ values, (decodeMembers data position (List.replicate count element) position).Yields
          budget values rest ∧ value = .fixedArray element values := by
  simp only [decodeValue, mk_eq_component, elements_eq_decodeMembers]
  exact yields_map

theorem yields_decodeArray {element : AbiType} :
    (decodeValue data (.array element) position).Yields budget value rest ↔
      ∃ count values middle, SizeAt data position count ∧
        count ≤ (data.length - (position + Word.size)) / Word.size ∧
        element.headSize?.isSome = true ∧
        (decodeMembers data (position + Word.size) (List.replicate count element)
          (position + Word.size)).Yields middle values rest ∧
        value = .array element values ∧
        budget = middle + (1 + if element.isHeadless then count else 0) := by
  simp only [decodeValue, mk_eq_component, elements_eq_decodeMembers, yields_bind, yields_length,
    yields_checkCount, yields_pure]
  constructor
  · rintro ⟨count, _, ⟨hcount, rfl⟩, _, middle, ⟨hroom, hmeasured, rfl⟩, values, _, hvalues, rfl,
      rfl⟩
    have hsize : element.headSize?.isSome = true := by
      rcases hmeasured with hdynamic | hsize
      · rw [AbiType.headSize?_of_isDynamic hdynamic, Option.isSome_some]
      · exact hsize
    refine ⟨count, values, middle, hcount, hroom, hsize, hvalues, rfl, ?_⟩
    rw [Nat.add_comm 1, ← Nat.add_assoc]
    rfl
  · rintro ⟨count, values, middle, hcount, hroom, hsize, hvalues, rfl, rfl⟩
    exact ⟨count, middle + if element.isHeadless then count else 0,
      ⟨hcount, by omega⟩, (), middle, ⟨hroom, .inr hsize, rfl⟩, values, rest, hvalues, rfl, rfl⟩

theorem yields_decodeTuple {members : List AbiType} :
    (decodeValue data (.tuple members) position).Yields budget value rest ↔
      ∃ values, (decodeMembers data position members position).Yields budget values rest ∧
        value = .tuple values := by
  rw [decodeValue]
  exact yields_map

end Values

/-- Data is decoded if it is read as one block under the budget of its words. -/
theorem decode_eq_ok_iff {data : Bytes} {types : List AbiType} {values : List Value} :
    decode data types = .ok values ↔
      ∃ rest, (decodeMembers data 0 types 0).Yields (data.length / Word.size) values rest := by
  simp only [decode, StateT.run', Yields]
  cases decodeMembers data 0 types 0 (data.length / Word.size) with
  | error => simp [Functor.map, Except.map]
  | ok outcome =>
      obtain ⟨result, rest⟩ := outcome
      simp [Functor.map, Except.map]

end ChainClient.Abi
