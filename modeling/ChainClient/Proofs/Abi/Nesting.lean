import ChainClient.Proofs.Abi.Balance
import ChainClient.Proofs.Abi.Declared
import ChainClient.Abi.Struct

/-!
# Nested tuples

A tuple may stand at any depth in the type of a parameter, below array dimensions and other
tuples, and each tuple is nested less deeply than those it stands in. The parameters
that an interface declares have the types of their components: where a type is built on
a tuple, the tuple holds these types in their order.
-/

namespace ChainClient.Abi

/-! ## Types within types -/

namespace AbiType

/-- The inner type is the outer one, or stands in its elements or in one of its members. -/
inductive Contains : (outer inner : AbiType) → Prop where
  | self (type : AbiType) : Contains type type
  | fixedArray {element inner : AbiType} {length : Nat} (hinner : Contains element inner) :
      Contains (.fixedArray element length) inner
  | array {element inner : AbiType} (hinner : Contains element inner) :
      Contains (.array element) inner
  | member {members : List AbiType} {member inner : AbiType} (hmember : member ∈ members)
      (hinner : Contains member inner) : Contains (.tuple members) inner

theorem contains_base (type : AbiType) : type.Contains type.base := by
  induction type with
  | fixedArray element length ih => exact .fixedArray ih
  | array element ih => exact .array ih
  | _ => exact .self _

theorem Contains.trans {outer middle inner : AbiType} (hmiddle : outer.Contains middle)
    (hinner : middle.Contains inner) : outer.Contains inner := by
  induction hmiddle with
  | self => exact hinner
  | fixedArray _ ih => exact .fixedArray (ih hinner)
  | array _ ih => exact .array (ih hinner)
  | member hmember _ ih => exact .member hmember (ih hinner)

/-- Below its dimensions a type is a tuple, or it contains those that the members of its tuple
contain. -/
theorem Contains.base_eq_or_exists_member {type : AbiType} {types : List AbiType}
    (hcontains : type.Contains (.tuple types)) :
    type.base = .tuple types ∨
      ∃ members, type.base = .tuple members ∧
        ∃ member ∈ members, member.Contains (.tuple types) := by
  generalize hinner : AbiType.tuple types = inner at hcontains
  induction hcontains with
  | self type =>
      subst hinner
      exact .inl rfl
  | fixedArray _ ih => exact ih hinner
  | array _ ih => exact ih hinner
  | member hmember hcontains _ => exact .inr ⟨_, rfl, _, hmember, hcontains⟩

theorem isTuple_iff {type : AbiType} : type.isTuple = true ↔ ∃ members, type = .tuple members := by
  cases type <;> simp [isTuple]

theorem nestingDepth_base (type : AbiType) : type.base.nestingDepth = type.nestingDepth := by
  induction type with
  | fixedArray element length ih => exact ih
  | array element ih => exact ih
  | _ => rfl

theorem isWellFormed_base {type : AbiType} (hwell : type.isWellFormed = true) :
    type.base.isWellFormed = true := by
  induction type with
  | fixedArray element length ih =>
      rw [isWellFormed, Bool.and_eq_true] at hwell
      exact ih hwell.2
  | array element ih => exact ih hwell
  | _ => exact hwell

theorem nestingDepth_le_deepest {types : List AbiType} :
    ∀ type ∈ types, type.nestingDepth ≤ deepest types := by
  induction types with
  | nil => exact List.forall_mem_nil _
  | cons type types ih =>
      rw [List.forall_mem_cons, deepest]
      exact ⟨Nat.le_max_left _ _, fun other hother =>
        Nat.le_trans (ih other hother) (Nat.le_max_right _ _)⟩

/-- A tuple is nested more deeply than its members. -/
theorem nestingDepth_lt_of_mem {members : List AbiType} {member : AbiType}
    (hmember : member ∈ members) : member.nestingDepth < (tuple members).nestingDepth := by
  have hdeepest := nestingDepth_le_deepest member hmember
  rw [nestingDepth]
  omega

/-- What a type contains is nested no more deeply than it. -/
theorem Contains.nestingDepth_le {outer inner : AbiType} (hcontains : outer.Contains inner) :
    inner.nestingDepth ≤ outer.nestingDepth := by
  induction hcontains with
  | self => exact Nat.le_refl _
  | fixedArray _ ih => exact ih
  | array _ ih => exact ih
  | member hmember _ ih => exact Nat.le_trans ih (Nat.le_of_lt (nestingDepth_lt_of_mem hmember))

end AbiType

/-! ## Parameters within parameters -/

namespace Param

mutual

/-- The parameter and all below it, each in front of its components. -/
def preorder : Param → List Param
  | ⟨name, type, indexed, internalType, components⟩ =>
      ⟨name, type, indexed, internalType, components⟩ :: preorders components

/-- The parameters and all below them. -/
def preorders : List Param → List Param
  | [] => []
  | param :: params => preorder param ++ preorders params

end

theorem preorder_eq_cons (param : Param) :
    param.preorder = param :: preorders param.components := by
  cases param
  rfl

theorem mem_preorders_iff {inner : Param} {params : List Param} :
    inner ∈ preorders params ↔ ∃ param ∈ params, inner ∈ param.preorder := by
  induction params with
  | nil => simp [preorders]
  | cons param params ih => simp [preorders, ih]

theorem mem_preorders_of_mem_preorder {param inner : Param} {params : List Param}
    (hparam : param ∈ params) (hinner : inner ∈ param.preorder) : inner ∈ preorders params :=
  mem_preorders_iff.mpr ⟨param, hparam, hinner⟩

theorem mem_preorders_of_mem {param : Param} {params : List Param} (hparam : param ∈ params) :
    param ∈ preorders params :=
  mem_preorders_of_mem_preorder hparam (by simp [preorder_eq_cons])

theorem mem_preorder_of_mem_components {param component : Param}
    (hcomponent : component ∈ param.components) : component ∈ param.preorder := by
  rw [preorder_eq_cons]
  exact List.mem_cons_of_mem _ (mem_preorders_of_mem hcomponent)

/-- What is below a parameter is below all that the parameter is below. -/
theorem mem_preorder_trans {outer middle inner : Param} (hmiddle : middle ∈ outer.preorder)
    (hinner : inner ∈ middle.preorder) : inner ∈ outer.preorder := by
  induction outer with
  | mk name type indexed internalType components ih =>
      rw [preorder_eq_cons, List.mem_cons] at hmiddle
      rcases hmiddle with rfl | hmiddle
      · exact hinner
      · obtain ⟨component, hcomponent, hmiddle⟩ := mem_preorders_iff.mp hmiddle
        rw [preorder_eq_cons]
        exact List.mem_cons_of_mem _
          (mem_preorders_of_mem_preorder hcomponent (ih component hcomponent hmiddle))

theorem mem_preorders_trans {params : List Param} {middle inner : Param}
    (hmiddle : middle ∈ preorders params) (hinner : inner ∈ middle.preorder) :
    inner ∈ preorders params := by
  obtain ⟨param, hparam, hmiddle⟩ := mem_preorders_iff.mp hmiddle
  exact mem_preorders_of_mem_preorder hparam (mem_preorder_trans hmiddle hinner)

/-- The type of a parameter fits its components: if it is built on a tuple, this is the tuple
of their types. -/
structure Fits (param : Param) : Prop where
  wellFormed : param.type.isWellFormed = true
  base_eq : param.type.base.isTuple = true →
    param.type.base = .tuple (param.components.map Param.type)

/-- A tuple that the type of a parameter contains is what the type of some parameter below it
is built on, by induction on the parameter. -/
theorem exists_base_eq {param : Param} {types : List AbiType}
    (hfits : ∀ inner ∈ param.preorder, inner.Fits)
    (hcontains : param.type.Contains (.tuple types)) :
    ∃ inner ∈ param.preorder, inner.type.base = .tuple types := by
  induction param with
  | mk name type indexed internalType components ih =>
      rw [preorder_eq_cons, List.forall_mem_cons] at hfits
      rw [preorder_eq_cons]
      rcases hcontains.base_eq_or_exists_member with hbase | ⟨members, hbase, member, hmember, hin⟩
      · exact ⟨_, List.mem_cons_self, hbase⟩
      · have htypes := hfits.1.base_eq (AbiType.isTuple_iff.mpr ⟨members, hbase⟩)
        rw [hbase, AbiType.tuple.injEq] at htypes
        subst htypes
        obtain ⟨component, hcomponent, rfl⟩ := List.mem_map.mp hmember
        obtain ⟨inner, hinner, hinnerBase⟩ := ih component hcomponent
          (fun inner hinner => hfits.2 inner (mem_preorders_of_mem_preorder hcomponent hinner)) hin
        exact ⟨inner, List.mem_cons_of_mem _ (mem_preorders_of_mem_preorder hcomponent hinner),
          hinnerBase⟩

theorem exists_base_eq_of_contains {params : List Param} {param : Param} {types : List AbiType}
    (hfits : ∀ inner ∈ preorders params, inner.Fits) (hparam : param ∈ preorders params)
    (hcontains : param.type.Contains (.tuple types)) :
    ∃ inner ∈ preorders params, inner.type.base = .tuple types := by
  obtain ⟨inner, hinner, hbase⟩ :=
    exists_base_eq (fun inner hinner => hfits inner (mem_preorders_trans hparam hinner)) hcontains
  exact ⟨inner, mem_preorders_trans hparam hinner, hbase⟩

/-- Where only tuples have components, the type of a parameter contains those of the parameters
below it. -/
theorem contains_of_mem_preorder {param inner : Param}
    (hfits : ∀ other ∈ param.preorder, other.Fits)
    (htuples : ∀ other ∈ param.preorder,
      other.components ≠ [] → other.type.base.isTuple = true)
    (hinner : inner ∈ param.preorder) : param.type.Contains inner.type := by
  induction param with
  | mk name type indexed internalType components ih =>
      rw [preorder_eq_cons, List.forall_mem_cons] at hfits htuples
      rw [preorder_eq_cons, List.mem_cons] at hinner
      rcases hinner with rfl | hinner
      · exact .self _
      · obtain ⟨component, hcomponent, hinner⟩ := mem_preorders_iff.mp hinner
        have hbase := hfits.1.base_eq (htuples.1 (List.ne_nil_of_mem hcomponent))
        have hin := ih component hcomponent
          (fun other hother => hfits.2 other (mem_preorders_of_mem_preorder hcomponent hother))
          (fun other hother => htuples.2 other (mem_preorders_of_mem_preorder hcomponent hother))
          hinner
        have hmember := List.mem_map_of_mem (f := Param.type) hcomponent
        exact (AbiType.contains_base type).trans (hbase ▸ .member hmember hin)

end Param

end ChainClient.Abi
