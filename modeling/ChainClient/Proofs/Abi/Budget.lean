import ChainClient.Proofs.Abi.Reading

/-!
# The budget of decoding

Decoding pays exactly the weight of what it decodes, so the weight of all decoded
values is at most the number of words in the data. Offsets that overlap, point
backwards, or meet cannot make the values weigh more.
-/

namespace ChainClient.Abi

open Decoding

variable {data : Bytes} {start cursor budget rest : Nat}

theorem length_of_yields_decodeMembers {types : List AbiType} {values : List Value}
    (hvalues : (decodeMembers data start types cursor).Yields budget values rest) :
    values.length = types.length := by
  induction types generalizing cursor budget values with
  | nil =>
      obtain ⟨rfl, -⟩ := yields_decodeMembers_nil.mp hvalues
      rfl
  | cons type types ih =>
      obtain ⟨_, _, _, _, others, -, -, -, hothers, rfl⟩ := yields_decodeMembers_cons.mp hvalues
      rw [List.length_cons, List.length_cons, ih hothers]

/-- If each component of a block pays its weight, the block pays the sum. -/
theorem budget_of_yields_decodeMembers {types : List AbiType} {values : List Value}
    (hmembers : ∀ type ∈ types, ∀ {position budget value rest},
      (decodeValue data type position).Yields budget value rest → budget = rest + value.weight)
    (hvalues : (decodeMembers data start types cursor).Yields budget values rest) :
    budget = rest + Value.weights values := by
  induction types generalizing cursor budget values with
  | nil =>
      obtain ⟨rfl, rfl⟩ := yields_decodeMembers_nil.mp hvalues
      rfl
  | cons type types ih =>
      obtain ⟨position, value, middle, next, others, -, hvalue, -, hothers, rfl⟩ :=
        yields_decodeMembers_cons.mp hvalues
      have hpaid := hmembers type List.mem_cons_self hvalue
      have hrest := ih (fun other hother => hmembers other (List.mem_cons_of_mem _ hother)) hothers
      rw [Value.weights]
      omega

/-- Decoding a value pays its weight. -/
theorem budget_of_yields_decodeValue (type : AbiType) {position : Nat} {value : Value}
    (hvalue : (decodeValue data type position).Yields budget value rest) :
    budget = rest + value.weight := by
  induction type generalizing position budget value rest with
  | bool =>
      obtain ⟨_, _, _, _, rfl, hpaid⟩ := yields_decodeBool.mp hvalue
      exact hpaid
  | uint bits =>
      obtain ⟨_, _, _, rfl, hpaid⟩ := yields_decodeUint.mp hvalue
      exact hpaid
  | int bits =>
      obtain ⟨_, _, _, rfl, hpaid⟩ := yields_decodeInt.mp hvalue
      exact hpaid
  | address =>
      obtain ⟨_, _, _, rfl, hpaid⟩ := yields_decodeAddress.mp hvalue
      exact hpaid
  | fixedBytes length =>
      obtain ⟨_, _, _, _, rfl, hpaid⟩ := yields_decodeFixedBytes.mp hvalue
      exact hpaid
  | bytes =>
      obtain ⟨_, _, rfl, hpaid⟩ := yields_decodeBytes.mp hvalue
      exact hpaid
  | string =>
      obtain ⟨_, _, rfl, hpaid⟩ := yields_decodeString.mp hvalue
      exact hpaid
  | fixedArray element length ih =>
      obtain ⟨values, hvalues, rfl⟩ := yields_decodeFixedArray.mp hvalue
      refine budget_of_yields_decodeMembers ?_ hvalues
      intro type htype
      obtain rfl := List.eq_of_mem_replicate htype
      exact ih
  | array element ih =>
      -- elements without heads are paid for by their number before they are read
      obtain ⟨count, values, middle, -, -, -, hvalues, rfl, rfl⟩ := yields_decodeArray.mp hvalue
      have hlength := length_of_yields_decodeMembers hvalues
      have hpaid : middle = rest + Value.weights values := by
        refine budget_of_yields_decodeMembers ?_ hvalues
        intro type htype
        obtain rfl := List.eq_of_mem_replicate htype
        exact ih
      rw [List.length_replicate] at hlength
      rw [Value.weight, hlength, hpaid]
      omega
  | tuple members ih =>
      obtain ⟨values, hvalues, rfl⟩ := yields_decodeTuple.mp hvalue
      exact budget_of_yields_decodeMembers (fun type htype => ih type htype) hvalues

/-- Decoded values weigh together no more than the data has words, however its
offsets overlap. -/
theorem weight_le_of_decode {types : List AbiType} {values : List Value}
    (hdecode : decode data types = .ok values) :
    (values.map Value.weight).sum ≤ data.length / 32 := by
  obtain ⟨rest, hvalues⟩ := decode_eq_ok_iff.mp hdecode
  have hpaid := budget_of_yields_decodeMembers
    (fun type _ _ _ _ _ => budget_of_yields_decodeValue type) hvalues
  rw [← Value.weights_eq_sum]
  exact le_of_le_of_eq (Nat.le_add_left _ _) hpaid.symm

/-- Two byte strings read from one place: three words of data hold values that
weigh two. -/
theorem weight_le_of_decode_shared :
    let data := Value.lengthWord 64 ++ Value.lengthWord 64 ++ Value.lengthWord 0
    decode data [.bytes, .bytes] = .ok [.bytes [], .bytes []] ∧
      ([Value.bytes [], Value.bytes []].map Value.weight).sum ≤ data.length / 32 := by
  have hdecode : decode (Value.lengthWord 64 ++ Value.lengthWord 64 ++ Value.lengthWord 0)
      [.bytes, .bytes] = .ok [.bytes [], .bytes []] := by decide +kernel
  exact ⟨hdecode, weight_le_of_decode hdecode⟩

end ChainClient.Abi
