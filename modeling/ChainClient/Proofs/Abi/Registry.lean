import ChainClient.Proofs.Abi.Written

/-!
# The registry of structures

The registry visits the parameters of an interface, each in front of its components, and
keeps the first for each tuple. It puts them in the order of their depth of nesting, so that
a structure stands behind all structures in its fields. Where the types of the parameters fit
their components, each structure is the tuple of its fields, and no tuple is missing.
-/

namespace ChainClient.Abi

/-! ## Visiting the parameters -/

namespace StructRegistry

/-- The parameters found once one more has been visited. -/
def visit (found : List Param) (param : Param) : List Param :=
  if isNew found param then param :: found else found

theorem collectAll_eq_foldl {params : List Param}
    (hcollect : ∀ param ∈ params, ∀ found, collect found param = param.preorder.foldl visit found)
    (found : List Param) :
    collectAll found params = (Param.preorders params).foldl visit found := by
  induction params generalizing found with
  | nil => rfl
  | cons param params ih =>
      obtain ⟨hfirst, hothers⟩ := List.forall_mem_cons.mp hcollect
      rw [collectAll, hfirst, ih hothers, Param.preorders, List.foldl_append]

/-- Parameters are visited in front of their components, by induction on the parameter. -/
theorem collect_eq_foldl (param : Param) (found : List Param) :
    collect found param = param.preorder.foldl visit found := by
  induction param generalizing found with
  | mk name type indexed internalType components ih =>
      rw [collect, collectAll_eq_foldl ih, Param.preorder_eq_cons, List.foldl_cons]
      rfl

/-- The parameters found among those visited: one for each tuple that some of them is built
on. -/
structure Covers (found visited : List Param) : Prop where
  mem : ∀ param ∈ found, param ∈ visited
  isTuple : ∀ param ∈ found, param.type.base.isTuple = true
  exists_base_eq : ∀ param ∈ visited, param.type.base.isTuple = true →
    ∃ other ∈ found, other.type.base = param.type.base
  nodup : (found.map fun param => param.type.base).Nodup

theorem isNew_iff {found : List Param} {param : Param} :
    isNew found param = true ↔
      param.type.base.isTuple = true ∧ ∀ other ∈ found, other.type.base ≠ param.type.base := by
  simp [isNew]

theorem Covers.visit {found visited : List Param} (hcovers : Covers found visited)
    (param : Param) : Covers (visit found param) (visited ++ [param]) := by
  have hvisited : ∀ other ∈ found, other ∈ visited ++ [param] := fun other hother =>
    List.mem_append_left _ (hcovers.mem other hother)
  rw [StructRegistry.visit]
  split
  next hnew =>
    obtain ⟨htuple, hothers⟩ := isNew_iff.mp hnew
    refine ⟨List.forall_mem_cons.mpr ⟨by simp, hvisited⟩,
      List.forall_mem_cons.mpr ⟨htuple, hcovers.isTuple⟩, ?_, ?_⟩
    · rw [List.forall_mem_append, List.forall_mem_singleton]
      refine ⟨fun other hother hbase => ?_, fun _ => ⟨param, List.mem_cons_self, rfl⟩⟩
      obtain ⟨known, hknown, heq⟩ := hcovers.exists_base_eq other hother hbase
      exact ⟨known, List.mem_cons_of_mem _ hknown, heq⟩
    · rw [List.map_cons, List.nodup_cons, List.mem_map]
      refine ⟨?_, hcovers.nodup⟩
      rintro ⟨other, hother, heq⟩
      exact hothers other hother heq
  next hknown =>
    refine ⟨hvisited, hcovers.isTuple, ?_, hcovers.nodup⟩
    rw [List.forall_mem_append, List.forall_mem_singleton]
    refine ⟨hcovers.exists_base_eq, fun htuple => ?_⟩
    rw [isNew_iff, not_and] at hknown
    simpa using hknown htuple

theorem Covers.foldl_visit {found visited : List Param} (hcovers : Covers found visited)
    (params : List Param) :
    Covers (params.foldl StructRegistry.visit found) (visited ++ params) := by
  induction params generalizing found visited with
  | nil => simpa using hcovers
  | cons param params ih => simpa using ih (hcovers.visit param)

theorem Covers.perm {found other visited : List Param} (hcovers : Covers found visited)
    (hperm : found.Perm other) : Covers other visited where
  mem param hparam := hcovers.mem param (hperm.mem_iff.mpr hparam)
  isTuple param hparam := hcovers.isTuple param (hperm.mem_iff.mpr hparam)
  exists_base_eq param hparam htuple := by
    obtain ⟨known, hknown, heq⟩ := hcovers.exists_base_eq param hparam htuple
    exact ⟨known, hperm.mem_iff.mp hknown, heq⟩
  nodup := (hperm.map _).nodup_iff.mp hcovers.nodup

/-! ## The structures in order -/

/-- The parameters whose tuples are the structures of an interface, in the order of these. -/
def origins (interface : Interface) : List Param :=
  (collectAll [] interface.params).reverse.mergeSort fun first second =>
    first.type.nestingDepth ≤ second.type.nestingDepth

theorem covers_origins (interface : Interface) :
    Covers (origins interface) (Param.preorders interface.params) := by
  have hempty : Covers [] [] := ⟨by simp, by simp, by simp, List.nodup_nil⟩
  have hfound := hempty.foldl_visit (Param.preorders interface.params)
  rw [← collectAll_eq_foldl fun param _ => collect_eq_foldl param] at hfound
  exact hfound.perm ((List.reverse_perm _).symm.trans (List.mergeSort_perm _ _).symm)

theorem getElem?_structs (interface : Interface) (place : Nat) :
    (ofInterface interface).structs[place]? =
      (origins interface)[place]?.map (structAt · place) := by
  change (List.map _ (origins interface).zipIdx)[place]? = _
  rw [List.getElem?_map, List.getElem?_zipIdx, Option.map_map, Nat.zero_add]
  rfl

theorem types_structs (interface : Interface) :
    (ofInterface interface).structs.map StructDef.type =
      (origins interface).map fun param => param.type.base := by
  apply List.ext_getElem?
  intro place
  rw [List.getElem?_map, List.getElem?_map, getElem?_structs, Option.map_map]
  rfl

/-- What is nested less deeply stands before what is nested more deeply. -/
theorem place_lt_of_nestingDepth_lt {interface : Interface} {first second : Param}
    {earlier later : Nat} (hfirst : (origins interface)[earlier]? = some first)
    (hsecond : (origins interface)[later]? = some second)
    (hdepth : first.type.nestingDepth < second.type.nestingDepth) : earlier < later := by
  have hsorted : (origins interface).Pairwise fun first second =>
      decide (first.type.nestingDepth ≤ second.type.nestingDepth) = true :=
    List.pairwise_mergeSort (by simpa using fun _ _ _ => Nat.le_trans)
      (by simpa using fun _ _ => Nat.le_total _ _) _
  obtain ⟨hearlier, rfl⟩ := List.getElem?_eq_some_iff.mp hfirst
  obtain ⟨hlater, rfl⟩ := List.getElem?_eq_some_iff.mp hsecond
  by_contra hplace
  rcases Nat.eq_or_lt_of_le (Nat.le_of_not_lt hplace) with rfl | hplace
  · exact absurd hdepth (Nat.lt_irrefl _)
  · have hle := List.pairwise_iff_getElem.mp hsorted later earlier hlater hearlier hplace
    exact absurd hdepth (Nat.not_lt_of_le (of_decide_eq_true hle))

/-- In a registry without duplicates a structure is found by its type, whatever the dimensions
behind it. -/
theorem get?_eq_some {registry : StructRegistry} {struct : StructDef} {type : AbiType}
    (hnodup : (registry.structs.map StructDef.type).Nodup) (hstruct : struct ∈ registry.structs)
    (htype : type.base = struct.type) : registry.get? type = some struct := by
  rw [get?]
  cases hfind : registry.structs.find? fun other => other.type == type.base with
  | none =>
      have hdiffers := List.find?_eq_none.mp hfind struct hstruct
      simp [htype] at hdiffers
  | some other =>
      have hother : other.type = type.base := by simpa using List.find?_some hfind
      have hmem := List.mem_of_find?_eq_some hfind
      rw [List.inj_on_of_nodup_map hnodup hmem hstruct (hother.trans htype)]

/-! ## Interfaces whose parameters fit -/

section Fits

variable {interface : Interface} (hfits : ∀ inner ∈ Param.preorders interface.params, inner.Fits)

include hfits

/-- The structures are the tuples that occur in the parameters and below them. -/
theorem mem_types_structs_iff (type : AbiType) :
    type ∈ (ofInterface interface).structs.map StructDef.type ↔
      type.isTuple = true ∧ ∃ param ∈ Param.preorders interface.params,
        param.type.Contains type := by
  have hcovers := covers_origins interface
  rw [types_structs, List.mem_map]
  constructor
  · rintro ⟨param, hparam, rfl⟩
    exact ⟨hcovers.isTuple param hparam, param, hcovers.mem param hparam, param.type.contains_base⟩
  · rintro ⟨htuple, param, hparam, hcontains⟩
    obtain ⟨members, rfl⟩ := AbiType.isTuple_iff.mp htuple
    obtain ⟨inner, hinner, hbase⟩ := Param.exists_base_eq_of_contains hfits hparam hcontains
    obtain ⟨other, hother, heq⟩ := hcovers.exists_base_eq inner hinner (hbase ▸ htuple)
    exact ⟨other, hother, heq.trans hbase⟩

/-- Where only tuples have components, a structure occurs in the type of a parameter. -/
theorem exists_contains_of_mem_structs
    (htuples : ∀ param ∈ Param.preorders interface.params,
      param.components ≠ [] → param.type.base.isTuple = true)
    {struct : StructDef} (hstruct : struct ∈ (ofInterface interface).structs) :
    ∃ param ∈ interface.params, param.type.Contains struct.type := by
  obtain ⟨-, inner, hinner, hcontains⟩ :=
    (mem_types_structs_iff hfits struct.type).mp (List.mem_map_of_mem hstruct)
  obtain ⟨param, hparam, hinner⟩ := Param.mem_preorders_iff.mp hinner
  have hin := Param.contains_of_mem_preorder
    (fun other hother => hfits other (Param.mem_preorders_of_mem_preorder hparam hother))
    (fun other hother => htuples other (Param.mem_preorders_of_mem_preorder hparam hother)) hinner
  exact ⟨param, hparam, hin.trans hcontains⟩

theorem nodup_identifiers :
    ((ofInterface interface).structs.map StructDef.identifier).Nodup := by
  have hmap : (ofInterface interface).structs.map StructDef.identifier =
      (((origins interface).map fun param => param.type.base)).map AbiType.canonical := by
    rw [← types_structs, List.map_map]
    rfl
  have hwell : ∀ type ∈ (origins interface).map fun param => param.type.base,
      type.isWellFormed = true := by
    rw [List.forall_mem_map]
    exact fun param hparam => AbiType.isWellFormed_base
      (hfits param ((covers_origins interface).mem param hparam)).wellFormed
  rw [hmap]
  refine (covers_origins interface).nodup.map_on fun first hfirst second hsecond heq => ?_
  have hspelling : first.spelling = second.spelling := String.ofList_injective heq
  have hparse := AbiType.parseChars_spelling (hwell first hfirst)
  rw [hspelling, AbiType.parseChars_spelling (hwell second hsecond)] at hparse
  exact (Except.ok.inj hparse).symm

/-- A structure is the tuple of its fields, and stands behind the tuples in them. -/
theorem fields_of_getElem? {place : Nat} {struct : StructDef}
    (hplace : (ofInterface interface).structs[place]? = some struct) :
    struct.type = .tuple (struct.fields.map Param.type) ∧
      ∀ field ∈ struct.fields, ∀ members, field.type.Contains (.tuple members) →
        ∃ earlier < place, ∃ inner, (ofInterface interface).structs[earlier]? = some inner ∧
          inner.type = .tuple members := by
  have hcovers := covers_origins interface
  rw [getElem?_structs, Option.map_eq_some_iff] at hplace
  obtain ⟨param, horigin, rfl⟩ := hplace
  have hparam := List.mem_of_getElem? horigin
  have hvisited := hcovers.mem param hparam
  have hbase := (hfits param hvisited).base_eq (hcovers.isTuple param hparam)
  refine ⟨hbase, fun field hfield members hcontains => ?_⟩
  have hfieldVisited := Param.mem_preorders_trans hvisited
    (Param.mem_preorder_of_mem_components hfield)
  obtain ⟨inner, hinner, hinnerBase⟩ :=
    Param.exists_base_eq_of_contains hfits hfieldVisited hcontains
  obtain ⟨other, hother, hsame⟩ := hcovers.exists_base_eq inner hinner (by rw [hinnerBase]; rfl)
  obtain ⟨earlier, hearlier⟩ := List.mem_iff_getElem?.mp hother
  have hotherBase : other.type.base = .tuple members := hsame.trans hinnerBase
  have hdepth : other.type.nestingDepth < param.type.nestingDepth :=
    calc other.type.nestingDepth
      _ = (AbiType.tuple members).nestingDepth := by rw [← hotherBase, AbiType.nestingDepth_base]
      _ ≤ field.type.nestingDepth := hcontains.nestingDepth_le
      _ < (AbiType.tuple (param.components.map Param.type)).nestingDepth :=
        AbiType.nestingDepth_lt_of_mem (List.mem_map_of_mem hfield)
      _ = param.type.nestingDepth := by rw [← hbase, AbiType.nestingDepth_base]
  refine ⟨earlier, place_lt_of_nestingDepth_lt hearlier horigin hdepth, structAt other earlier,
    ?_, hotherBase⟩
  rw [getElem?_structs, hearlier]
  rfl

end Fits

/-- The registry of an interface that writes every tuple by the word has a structure for each
tuple that occurs in the parameters, at whatever depth, and no other. No two have the same type
or identifier. Each is the tuple of its fields, stands behind all tuples in these, and
is found by its type with whatever dimensions behind it. -/
theorem ofInterface_of_parse {text : String} {declarations : List Declaration}
    {interface : Interface}
    (hread : (Json.parse? text).bind (Json.listOf Declaration.ofJson?) = some declarations)
    (hwrites : ∀ declaration ∈ declarations,
      ∀ declared ∈ declaration.inputs ++ declaration.outputs, declared.writesTuples = true)
    (hparse : Interface.parse text = .ok interface) :
    let registry := ofInterface interface
    (∀ type, type ∈ registry.structs.map StructDef.type ↔
        type.isTuple = true ∧ ∃ param ∈ Param.preorders interface.params,
          param.type.Contains type) ∧
      ((∀ param ∈ Param.preorders interface.params,
          param.components ≠ [] → param.type.base.isTuple = true) →
        ∀ struct ∈ registry.structs, ∃ param ∈ interface.params,
          param.type.Contains struct.type) ∧
      (registry.structs.map StructDef.type).Nodup ∧
      (registry.structs.map StructDef.identifier).Nodup ∧
      (∀ (place : Nat) (struct : StructDef), registry.structs[place]? = some struct →
        struct.type = .tuple (struct.fields.map Param.type) ∧
          ∀ field ∈ struct.fields, ∀ members, field.type.Contains (.tuple members) →
            ∃ earlier < place, ∃ inner, registry.structs[earlier]? = some inner ∧
              inner.type = .tuple members) ∧
      ∀ struct ∈ registry.structs, ∀ type, type.base = struct.type →
        registry.get? type = some struct := by
  have hadded : declarations.foldlM Interface.add Interface.empty = .ok interface := by
    rw [Interface.parse, hread] at hparse
    cases hadd : declarations.foldlM Interface.add Interface.empty with
    | error error => simp [hadd, Except.mapError] at hparse
    | ok added => simpa [hadd, Except.mapError] using hparse
  have hfits := Interface.fits_of_foldlM_add hwrites (List.forall_mem_nil _) hadded
  have hnodup : ((ofInterface interface).structs.map StructDef.type).Nodup := by
    rw [types_structs]
    exact (covers_origins interface).nodup
  exact ⟨mem_types_structs_iff hfits,
    fun htuples struct hstruct => exists_contains_of_mem_structs hfits htuples hstruct,
    hnodup, nodup_identifiers hfits, fun place struct hplace => fields_of_getElem? hfits hplace,
    fun struct hstruct type htype => get?_eq_some hnodup hstruct htype⟩

/-- A function of arrays of items, which hold arrays of tags. -/
theorem ofInterface_of_parse_nested :
    let tags : Json := .object [("type", .string "tuple[]"),
      ("components", .array [.object [("type", .string "string")]])]
    let items : Json := .object [("type", .string "tuple[2][]"),
      ("components", .array [.object [("type", .string "uint")], tags])]
    let text := (Json.array [.object [("inputs", .array [items])]]).print
    let tag : AbiType := .tuple [.string]
    let item : AbiType := .tuple [.uint 256, .array tag]
    ∃ declarations interface,
      (Json.parse? text).bind (Json.listOf Declaration.ofJson?) = some declarations ∧
      (∀ declaration ∈ declarations,
        ∀ declared ∈ declaration.inputs ++ declaration.outputs, declared.writesTuples = true) ∧
      Interface.parse text = .ok interface ∧
      ∃ (place : Nat) (struct : StructDef),
        (ofInterface interface).structs[place]? = some struct ∧
        (ofInterface interface).get? (.fixedArray (.array item) 3) = some struct ∧
        struct.type = item ∧ struct.fields.map Param.type = [.uint 256, .array tag] ∧
        ∃ earlier < place, ∃ inner : StructDef,
          (ofInterface interface).structs[earlier]? = some inner ∧ inner.type = tag := by
  intro tags items text tag item
  have hwritten : ((Json.parse? text).bind (Json.listOf Declaration.ofJson?)).any
      (·.all fun declaration => (declaration.inputs ++ declaration.outputs).all
        ParamDeclaration.writesTuples) = true := by
    decide +kernel
  have hdeclared : (Interface.parse text).toOption.any
      (fun interface => interface.params.any fun param =>
        param.type == .array (.fixedArray item 2)) = true := by
    decide +kernel
  obtain ⟨declarations, hread, hall⟩ := (Option.any_eq_true _ _).mp hwritten
  have hwrites : ∀ declaration ∈ declarations,
      ∀ declared ∈ declaration.inputs ++ declaration.outputs, declared.writesTuples = true :=
    fun declaration hdeclaration => List.all_eq_true.mp (List.all_eq_true.mp hall _ hdeclaration)
  obtain ⟨interface, hoption, hany⟩ := (Option.any_eq_true _ _).mp hdeclared
  have hparse : Interface.parse text = .ok interface := by
    cases hresult : Interface.parse text with
    | error error => simp [hresult, Except.toOption] at hoption
    | ok result => simpa [hresult, Except.toOption] using hoption
  obtain ⟨param, hparam, htype⟩ := List.any_eq_true.mp hany
  obtain ⟨htypes, -, -, -, hfields, hfound⟩ := ofInterface_of_parse hread hwrites hparse
  have hoccurs : param.type.Contains item := eq_of_beq htype ▸ .array (.fixedArray (.self item))
  obtain ⟨struct, hstruct, hitem⟩ := List.mem_map.mp
    ((htypes item).mpr ⟨rfl, param, Param.mem_preorders_of_mem hparam, hoccurs⟩)
  obtain ⟨place, hplace⟩ := List.mem_iff_getElem?.mp hstruct
  obtain ⟨hbase, hbehind⟩ := hfields place struct hplace
  have hmembers : struct.fields.map Param.type = [.uint 256, .array tag] :=
    (AbiType.tuple.inj (hitem.symm.trans hbase)).symm
  have htags : .array tag ∈ struct.fields.map Param.type := by simp [hmembers]
  obtain ⟨field, hfield, hfieldType⟩ := List.mem_map.mp htags
  have htag : field.type.Contains tag := hfieldType ▸ .array (.self tag)
  exact ⟨declarations, interface, hread, hwrites, hparse, place, struct, hplace,
    hfound struct hstruct _ hitem.symm, hitem, hmembers, hbehind field hfield _ htag⟩

end StructRegistry

end ChainClient.Abi
