import ChainClient.Proofs.Abi.RoundTrip

/-!
# Where decoding stops

The reader asks for the size of the elements of an array before it reads any, and
stops if the sizes in a tuple cannot be added up. Elements that are written are too
short for that, so it happens at an empty array. A valid value that is not measured
has such an array, and reading it where it stands comes to that array and stops.
-/

namespace ChainClient.Abi

namespace Decoding

/-- Reading under a budget stops at sizes that cannot be added up. -/
def Stops {α : Type} (reading : Decoding α) (budget : Nat) : Prop :=
  reading budget = .error .overflow

section Steps

variable {α β : Type} {data : Bytes} {start cursor position budget middle : Nat}

theorem Stops.bind {reading : Decoding α} (hreading : reading.Stops budget)
    (next : α → Decoding β) : (reading >>= next).Stops budget :=
  bind_eq_error hreading next

theorem Yields.bind_stops {reading : Decoding α} {next : α → Decoding β} {value : α}
    (hreading : reading.Yields budget value middle) (hnext : (next value).Stops middle) :
    (reading >>= next).Stops budget :=
  (hreading.bind_eq next).trans hnext

theorem Component.Locates.stops_read {component : Component}
    (hposition : component.Locates data start cursor position)
    (hcontents : (component.contents position).Stops budget) :
    (component.read data start cursor).Stops budget := by
  simp only [Component.read, Component.Locates] at hposition ⊢
  split at hposition
  next hdynamic =>
    obtain ⟨offset, hoffset, rfl, hrange⟩ := hposition
    rw [if_pos hdynamic]
    refine (yields_peekSize.mpr ⟨hoffset, rfl⟩).bind_stops ?_
    rwa [if_pos hrange]
  next hstatic =>
    rw [if_neg hstatic]
    rwa [hposition] at hcontents

/-- The size of static elements is asked for once there is room for them. -/
theorem stops_checkCount {component : Component} {count : Nat}
    (hroom : count ≤ (data.length - start) / Word.size)
    (hstatic : component.isDynamic = false) (hsize : component.headSize? = none) :
    (checkCount data component start count).Stops budget := by
  rw [checkCount, if_neg (Nat.not_lt.mpr hroom), hstatic, if_neg Bool.false_ne_true]
  refine Stops.bind ?_ _
  rw [Component.headSize, hsize]
  rfl

end Steps

end Decoding

open Decoding

section Values

variable {data : Bytes} {start cursor offset position budget middle : Nat}

/-! ## Blocks and arrays -/

theorem stops_decodeMembers_first {type : AbiType} {types : List AbiType}
    (hposition : (type.component data).Locates data start cursor position)
    (hvalue : (decodeValue data type position).Stops budget) :
    (decodeMembers data start (type :: types) cursor).Stops budget := by
  rw [decodeMembers]
  exact (hposition.stops_read hvalue).bind _

theorem stops_decodeMembers_later {type : AbiType} {types : List AbiType} {value : Value}
    {next : Nat} (hposition : (type.component data).Locates data start cursor position)
    (hvalue : (decodeValue data type position).Yields budget value middle)
    (hnext : (type.component data).Advances cursor next)
    (hothers : (decodeMembers data start types next).Stops middle) :
    (decodeMembers data start (type :: types) cursor).Stops budget := by
  rw [decodeMembers]
  refine Yields.bind_stops (yields_read.mpr ⟨position, hposition, hvalue⟩) ?_
  exact Yields.bind_stops (yields_next.mpr ⟨hnext, rfl⟩) (hothers.bind _)

theorem stops_decodeArray_of_headSize?_eq_none {element : AbiType} {count : Nat}
    (hcount : SizeAt data position count)
    (hroom : count ≤ (data.length - (position + Word.size)) / Word.size)
    (hsize : element.headSize? = none) :
    (decodeValue data (.array element) position).Stops (budget + 1) := by
  -- the head of a dynamic element is an offset, which has a size
  have hstatic : element.isDynamic = false := by
    rw [← Bool.not_eq_true]
    intro hdynamic
    rw [AbiType.headSize?_of_isDynamic hdynamic] at hsize
    cases hsize
  rw [decodeValue]
  refine Yields.bind_stops (yields_length.mpr ⟨hcount, rfl⟩) ?_
  exact (stops_checkCount hroom hstatic hsize).bind _

theorem stops_decodeArray_of_elements {element : AbiType} {count : Nat}
    (hcount : SizeAt data position count)
    (hroom : count ≤ (data.length - (position + Word.size)) / Word.size)
    (hsize : element.headSize?.isSome = true)
    (helements : (decodeMembers data (position + Word.size) (List.replicate count element)
      (position + Word.size)).Stops budget) :
    (decodeValue data (.array element) position).Stops
      (budget + (1 + if element.isHeadless then count else 0)) := by
  have hlength : (Decoding.length data position).Yields
      (budget + (1 + if element.isHeadless then count else 0)) count
      (budget + if element.isHeadless then count else 0) :=
    yields_length.mpr ⟨hcount, by omega⟩
  have hchecked : (checkCount data (element.component data) (position + Word.size) count).Yields
      (budget + if element.isHeadless then count else 0) () budget :=
    yields_checkCount.mpr ⟨hroom, .inr hsize, rfl⟩
  simp only [decodeValue, mk_eq_component, elements_eq_decodeMembers]
  exact hlength.bind_stops (hchecked.bind_stops (helements.bind _))

/-! ## Values that are not measured -/

/-- Reading a placed block stops at the first of its values whose reading stops. -/
theorem stops_decodeMembers_place {values : List Value}
    (hvalid : ∀ value ∈ values, value.IsValid) (hsolid : ∀ value ∈ values, value.isSolid = true)
    (hbound : data.length < AbiType.sizeCount)
    (hstop : ∀ value ∈ values, value.isMeasured = false → ∀ {position budget},
      Bytes.At data position value.contents →
        (decodeValue data value.type position).Stops (budget + value.weight))
    (hunmeasured : Value.areMeasured values = false)
    (hheads : Bytes.At data cursor (Value.place offset values).1)
    (htails : Bytes.At data (start + offset) (Value.place offset values).2) :
    (decodeMembers data start (Value.types values) cursor).Stops
      (budget + Value.weights values) := by
  induction values generalizing cursor offset budget with
  | nil => cases hunmeasured
  | cons value values ih =>
      obtain ⟨hvalid, hvalids⟩ := List.forall_mem_cons.mp hvalid
      obtain ⟨hsolid, hsolids⟩ := List.forall_mem_cons.mp hsolid
      obtain ⟨position, next, later, hposition, hcontents, hnext, hheads, htails⟩ :=
        exists_placed hvalid hbound hheads htails
      have hpaid : budget + Value.weights (value :: values) =
          budget + Value.weights values + value.weight := by
        rw [Value.weights]
        omega
      rw [hpaid]
      cases hmeasured : value.isMeasured with
      | false =>
          exact stops_decodeMembers_first hposition
            (hstop value List.mem_cons_self hmeasured hcontents)
      | true =>
          -- the first value is read, so that the reason lies in the others
          have hothers : Value.areMeasured values = false := by
            simpa [Value.areMeasured, hmeasured] using hunmeasured
          exact stops_decodeMembers_later hposition
            (yields_decodeValue_of_at hvalid hsolid hmeasured hbound hcontents) hnext
            (ih hvalids hsolids
              (fun other hother => hstop other (List.mem_cons_of_mem _ hother)) hothers hheads
              htails)

theorem stops_decodeMembers_block {values : List Value}
    (hvalid : ∀ value ∈ values, value.IsValid) (hsolid : ∀ value ∈ values, value.isSolid = true)
    (hbound : data.length < AbiType.sizeCount)
    (hstop : ∀ value ∈ values, value.isMeasured = false → ∀ {position budget},
      Bytes.At data position value.contents →
        (decodeValue data value.type position).Stops (budget + value.weight))
    (hunmeasured : Value.areMeasured values = false)
    (hat : Bytes.At data position (Value.block values)) :
    (decodeMembers data position (Value.types values) position).Stops
      (budget + Value.weights values) := by
  rw [Value.block_eq_append] at hat
  have htails := hat.right
  rw [Value.length_heads hvalid] at htails
  exact stops_decodeMembers_place hvalid hsolid hbound hstop hunmeasured hat.left htails

/-- Reading a valid value that is not measured stops where its contents stand. -/
theorem stops_decodeValue_of_at {value : Value} (hvalid : value.IsValid)
    (hsolid : value.isSolid = true) (hunmeasured : value.isMeasured = false)
    (hbound : data.length < AbiType.sizeCount) (hat : Bytes.At data position value.contents) :
    (decodeValue data value.type position).Stops (budget + value.weight) := by
  induction value generalizing position budget with
  | fixedArray element values ih =>
      obtain ⟨-, helements⟩ := Value.isValid_fixedArray.mp hvalid
      rw [Value.isSolid, Value.areSolid_iff] at hsolid
      rw [Value.contents_fixedArray] at hat
      simp only [Value.type, decodeValue, mk_eq_component, elements_eq_decodeMembers]
      refine Stops.bind ?_ _
      rw [← Value.types_eq_replicate fun value hvalue => (helements value hvalue).1]
      exact stops_decodeMembers_block (fun value hvalue => (helements value hvalue).2) hsolid hbound
        (fun value hvalue hmeasured => ih value hvalue (helements value hvalue).2
          (hsolid value hvalue) hmeasured) hunmeasured hat
  | array element values ih =>
      have helements := Value.isValid_array.mp hvalid
      rw [Value.isSolid, Bool.and_eq_true, Value.areSolid_iff] at hsolid
      obtain ⟨hhollow, hsolid⟩ := hsolid
      obtain ⟨hlength, hroom, hblock, hfree⟩ := exists_array_at helements hhollow hbound hat
      -- either the array itself is not measured, or one of its elements is not
      cases hsize : element.headSize? with
      | none =>
          rw [Value.weight, Nat.add_assoc 1, Nat.add_comm 1, ← Nat.add_assoc]
          exact stops_decodeArray_of_headSize?_eq_none hlength hroom hsize
      | some size =>
          have hunmeasured : Value.areMeasured values = false := by
            simpa [Value.isMeasured, hsize] using hunmeasured
          have hpaid : budget + (Value.array element values).weight =
              budget + Value.weights values +
                (1 + if element.isHeadless then values.length else 0) := by
            rw [Value.weight]
            omega
          rw [hpaid]
          refine stops_decodeArray_of_elements hlength hroom (by rw [hsize, Option.isSome_some]) ?_
          rw [← Value.types_eq_replicate fun value hvalue => (helements value hvalue).1]
          exact stops_decodeMembers_block (fun value hvalue => (helements value hvalue).2) hsolid
            hbound
            (fun value hvalue hmeasured => ih value hvalue (helements value hvalue).2
              (hsolid value hvalue) hmeasured) hunmeasured hblock
  | tuple members ih =>
      have hmembers := Value.isValid_tuple.mp hvalid
      rw [Value.isSolid, Value.areSolid_iff] at hsolid
      rw [Value.contents_tuple] at hat
      rw [Value.type, decodeValue]
      refine Stops.bind ?_ _
      exact stops_decodeMembers_block hmembers hsolid hbound
        (fun member hmember hmeasured => ih member hmember (hmembers member hmember)
          (hsolid member hmember) hmeasured) hunmeasured hat
  | _ => cases hunmeasured

end Values

/-! ## Encoded values -/

/-- Decoding the block of valid values stops if one of them is not measured. -/
theorem decode_block_eq_error {values : List Value} (hvalid : ∀ value ∈ values, value.IsValid)
    (hsolid : ∀ value ∈ values, value.isSolid = true)
    (hunmeasured : Value.areMeasured values = false)
    (hbound : (Value.block values).length < AbiType.sizeCount) :
    decode (Value.block values) (values.map Value.type) = .error .overflow := by
  obtain ⟨rest, hrest⟩ := exists_budget [] hvalid hsolid hbound
  rw [List.append_nil] at hrest
  have hstops : (decodeMembers (Value.block values) 0 (Value.types values) 0).Stops
      (rest + Value.weights values) :=
    stops_decodeMembers_block hvalid hsolid hbound
      (fun value hvalue hmeasured => stops_decodeValue_of_at (hvalid value hvalue)
        (hsolid value hvalue) hmeasured hbound) hunmeasured (Bytes.At.start _)
  rw [decode, ← Value.types_eq_map, hrest, StateT.run', show _ = _ from hstops]
  rfl

/-- The block of valid values is decoded to them if they are measured, and otherwise decoding
stops. -/
theorem decode_block_eq {values : List Value} (hvalid : ∀ value ∈ values, value.IsValid)
    (hsolid : ∀ value ∈ values, value.isSolid = true)
    (hbound : (Value.block values).length < AbiType.sizeCount) :
    decode (Value.block values) (values.map Value.type) =
      if ∀ value ∈ values, value.isMeasured = true then .ok values else .error .overflow := by
  split
  next hmeasured => exact decode_block hvalid hsolid hmeasured hbound
  next hunmeasured =>
    rw [← Value.areMeasured_iff, Bool.not_eq_true] at hunmeasured
    exact decode_block_eq_error hvalid hsolid hunmeasured hbound

/-- Encoded values are decoded to themselves exactly if they are measured, and otherwise
decoding stops, if no array among them has elements of a hollow type. -/
theorem decode_encode {values : List Value} {data : Bytes} (hencode : encode values = .ok data)
    (hbound : data.length < 2 ^ 63) (hsolid : ∀ value ∈ values, value.isSolid = true) :
    decode data (values.map Value.type) =
      if ∀ value ∈ values, value.isMeasured = true then .ok values else .error .overflow := by
  obtain ⟨hvalid, rfl⟩ := encode_eq_ok_iff.mp hencode
  exact decode_block_eq hvalid hsolid (hbound.trans (by decide))

/-- A tuple of a text and nested arrays, a negative number, and empty tuples outside
any array are decoded to themselves. -/
theorem decode_encode_nested :
    let values : List Value :=
      [.tuple [.string "wé", .array (.array (.uint 8))
          [.array (.uint 8) [.uint 1 8, .uint 255 8], .array (.uint 8) []]],
        .int (-2) 16, .fixedArray (.tuple []) [.tuple [], .tuple []]]
    encode values = .ok (Value.block values) ∧ (Value.block values).length < 2 ^ 63 ∧
      decode (Value.block values) (values.map Value.type) = .ok values := by
  intro values
  have hencode : encode values = .ok (Value.block values) := by decide +kernel
  have hbound : (Value.block values).length < 2 ^ 63 := by decide +kernel
  have hdecode := decode_encode hencode hbound (by decide +kernel)
  exact ⟨hencode, hbound, hdecode.trans (if_pos (by decide +kernel))⟩

/-- The empty array of pairs of the longest array and a flag is encoded, and its bytes
are not decoded. -/
theorem decode_ne_of_encode :
    let values : List Value :=
      [.array (.tuple [.fixedArray (.uint 256) 18446744073709551615, .bool]) []]
    encode values = .ok (Value.lengthWord 32 ++ Value.lengthWord 0) ∧
      (∀ value ∈ values, value.isSolid = true) ∧
      decode (Value.lengthWord 32 ++ Value.lengthWord 0) (values.map Value.type) =
        .error .overflow := by
  decide +kernel

end ChainClient.Abi
