import Mathlib.Algebra.Ring.Nat
import Mathlib.Data.List.Forall2
import ChainClient.Abi.Encoder

/-!
# Induction over types and values

Composite types and values hold lists of their own kind. The induction principles
here assume the statement for every member of such a list, and the equations
express the functions on lists through the functions on their members. A step that
may fail is taken on every member of a list if it succeeds on each of them.
-/

namespace ChainClient.Abi

/-- A statement holds of every type if it holds of the plain ones and of every
composite type whose parts have it. -/
@[elab_as_elim, induction_eliminator]
theorem AbiType.induction {motive : AbiType → Prop}
    (bool : motive .bool)
    (uint : ∀ bits, motive (.uint bits))
    (int : ∀ bits, motive (.int bits))
    (address : motive .address)
    (fixedBytes : ∀ length, motive (.fixedBytes length))
    (bytes : motive .bytes)
    (string : motive .string)
    (fixedArray : ∀ element length, motive element → motive (.fixedArray element length))
    (array : ∀ element, motive element → motive (.array element))
    (tuple : ∀ members, (∀ member ∈ members, motive member) → motive (.tuple members)) :
    ∀ type, motive type :=
  fun type =>
    @AbiType.rec motive (fun members => ∀ member ∈ members, motive member)
      bool uint int address fixedBytes bytes string fixedArray array tuple
      (fun _ hmember => absurd hmember List.not_mem_nil)
      (fun _ _ hhead htail _ hmember =>
        (List.mem_cons.mp hmember).elim (fun heq => heq ▸ hhead) (htail _))
      type

/-- A statement holds of every value if it holds of the plain ones and of every
composite value whose parts have it. -/
@[elab_as_elim, induction_eliminator]
theorem Value.induction {motive : Value → Prop}
    (bool : ∀ value, motive (.bool value))
    (uint : ∀ value bits, motive (.uint value bits))
    (int : ∀ value bits, motive (.int value bits))
    (address : ∀ value, motive (.address value))
    (fixedBytes : ∀ value, motive (.fixedBytes value))
    (bytes : ∀ value, motive (.bytes value))
    (string : ∀ value, motive (.string value))
    (fixedArray : ∀ element values, (∀ value ∈ values, motive value) →
      motive (.fixedArray element values))
    (array : ∀ element values, (∀ value ∈ values, motive value) → motive (.array element values))
    (tuple : ∀ members, (∀ member ∈ members, motive member) → motive (.tuple members)) :
    ∀ value, motive value :=
  fun value =>
    @Value.rec motive (fun values => ∀ value ∈ values, motive value)
      bool uint int address fixedBytes bytes string fixedArray array tuple
      (fun _ hmember => absurd hmember List.not_mem_nil)
      (fun _ _ hhead htail _ hmember =>
        (List.mem_cons.mp hmember).elim (fun heq => heq ▸ hhead) (htail _))
      value

theorem AbiType.anyDynamic_eq_any (types : List AbiType) :
    AbiType.anyDynamic types = types.any AbiType.isDynamic := by
  induction types with
  | nil => rfl
  | cons type types ih => rw [AbiType.anyDynamic, ih, List.any_cons]

namespace Value

attribute [local simp] type types headLength headLengths check checkElements checkMembers

theorem anyDynamic_eq_any (values : List Value) :
    anyDynamic values = values.any isDynamic := by
  induction values with
  | nil => rfl
  | cons value values ih => rw [anyDynamic, ih, List.any_cons]

theorem headLengths_eq_sum (values : List Value) :
    headLengths values = (values.map headLength).sum := by
  induction values with
  | nil => rfl
  | cons value values ih => rw [headLengths, ih, List.map_cons, List.sum_cons]

/-! ## Valid values -/

/-- A value that the check lets pass. -/
def IsValid (value : Value) : Prop :=
  value.check = .ok ()

theorem checkMembers_eq_ok_iff {members : List Value} :
    checkMembers members = .ok () ↔ ∀ member ∈ members, member.IsValid := by
  induction members with
  | nil => simp
  | cons member members ih =>
      rw [checkMembers, List.forall_mem_cons, ← ih, IsValid]
      cases member.check <;> simp [bind, Except.bind]

theorem checkElements_eq_ok_iff {element : AbiType} {values : List Value} :
    checkElements element values = .ok () ↔
      ∀ value ∈ values, value.type = element ∧ value.IsValid := by
  induction values with
  | nil => simp
  | cons value values ih =>
      rw [checkElements, List.forall_mem_cons, ← ih, IsValid]
      by_cases htype : value.type = element
      · cases value.check <;> simp [htype, bind, Except.bind]
      · simp [htype, bind, Except.bind]

@[simp] theorem isValid_bool (value : Bool) : (Value.bool value).IsValid := rfl

@[simp] theorem isValid_address (value : Address) : (Value.address value).IsValid := rfl

@[simp] theorem isValid_bytes (value : Bytes) : (Value.bytes value).IsValid := rfl

@[simp] theorem isValid_string (value : String) : (Value.string value).IsValid := rfl

@[simp] theorem isValid_uint {value : Word} {bits : Nat} :
    (Value.uint value bits).IsValid ↔
      AbiType.isWidth bits = true ∧ bitLength value.toNat ≤ bits := by
  simp [IsValid]

@[simp] theorem isValid_int {value : Word} {bits : Nat} :
    (Value.int value bits).IsValid ↔
      AbiType.isWidth bits = true ∧ fitsSigned value bits = true := by
  simp [IsValid]

@[simp] theorem isValid_fixedBytes {value : Bytes} :
    (Value.fixedBytes value).IsValid ↔ 1 ≤ value.length ∧ value.length ≤ 32 := by
  simp [IsValid]

@[simp] theorem isValid_fixedArray {element : AbiType} {values : List Value} :
    (Value.fixedArray element values).IsValid ↔
      values ≠ [] ∧ ∀ value ∈ values, value.type = element ∧ value.IsValid := by
  rw [← checkElements_eq_ok_iff, IsValid, check]
  cases values <;> simp

@[simp] theorem isValid_array {element : AbiType} {values : List Value} :
    (Value.array element values).IsValid ↔
      ∀ value ∈ values, value.type = element ∧ value.IsValid := by
  rw [← checkElements_eq_ok_iff, IsValid, check]

@[simp] theorem isValid_tuple {members : List Value} :
    (Value.tuple members).IsValid ↔ ∀ member ∈ members, member.IsValid := by
  rw [← checkMembers_eq_ok_iff, IsValid, check]

theorem types_eq_replicate {element : AbiType} {values : List Value}
    (helements : ∀ value ∈ values, value.type = element) :
    types values = List.replicate values.length element := by
  rw [types_eq_map, List.eq_replicate_iff]
  refine ⟨List.length_map _, ?_⟩
  intro type htype
  obtain ⟨value, hvalue, rfl⟩ := List.mem_map.mp htype
  exact helements value hvalue

end Value

/-- Encoding succeeds exactly on valid values, and then gives their block. -/
theorem encode_eq_ok_iff {values : List Value} {data : Bytes} :
    encode values = .ok data ↔ (∀ value ∈ values, value.IsValid) ∧ Value.block values = data := by
  rw [encode, ← Value.checkMembers_eq_ok_iff]
  cases Value.checkMembers values <;> simp [bind, Except.bind]

/-! ## Steps in a row -/

/-- Two steps in a row succeed if the second succeeds with what the first gives. -/
theorem bind_eq_ok_iff {α β ε : Type} {first : Except ε α} {next : α → Except ε β} {result : β} :
    first >>= next = .ok result ↔ ∃ value, first = .ok value ∧ next value = .ok result := by
  cases first <;> simp [bind, Except.bind]

/-- A step taken on each item in a row succeeds if it succeeds on every item. -/
theorem mapM_eq_ok_iff {α β ε : Type} {step : α → Except ε β} {items : List α}
    {results : List β} :
    items.mapM step = .ok results ↔
      List.Forall₂ (fun item result => step item = .ok result) items results := by
  induction items generalizing results with
  | nil => simp [pure, Except.pure, eq_comm]
  | cons item items ih =>
      rw [List.mapM_cons, List.forall₂_cons_left_iff]
      cases hitem : step item with
      | error error => simp [bind, Except.bind]
      | ok result =>
          cases hitems : items.mapM step with
          | error error => simp [bind, Except.bind, ← ih, hitems]
          | ok others => simp [bind, Except.bind, pure, Except.pure, ← ih, hitems, eq_comm]

theorem exists_mapM_eq_ok {α β ε : Type} {step : α → Except ε β} {items : List α}
    (hstep : ∀ item ∈ items, ∃ result, step item = .ok result) :
    ∃ results, items.mapM step = .ok results := by
  induction items with
  | nil => exact ⟨[], rfl⟩
  | cons item items ih =>
      obtain ⟨⟨result, hresult⟩, hothers⟩ := List.forall_mem_cons.mp hstep
      obtain ⟨others, hothers⟩ := ih hothers
      exact ⟨result :: others, by rw [List.mapM_cons, hresult, hothers]; rfl⟩

end ChainClient.Abi
