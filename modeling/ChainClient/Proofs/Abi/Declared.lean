import ChainClient.Abi.Declaration
import ChainClient.Proofs.Abi.Canonical
import ChainClient.Proofs.Json.Record
import ChainClient.Proofs.Json.Spelling

/-!
# Declared interfaces

A compiler declares a parameter whose type is built on a tuple by a word for the tuple, the
array dimensions behind it, and one component for each field; any other parameter it
declares by its type alone. The type of a tuple is put together from the types of the
components as a text, which is parsed again. Whatever the tuples and dimensions are, the
parameters of an interface are read as they were declared.
-/

namespace ChainClient.Abi

/-! ## Declared types -/

namespace AbiType

/-- The array dimensions at the end of a canonical form, in the order they stand there. -/
def dimensions : AbiType → List Char
  | .fixedArray element length => dimensions element ++ '[' :: Nat.toDigits 10 length ++ [']']
  | .array element => dimensions element ++ ['[', ']']
  | _ => []

/-- The types of the fields, if the type is built on a tuple. -/
def fields (type : AbiType) : List AbiType :=
  match type.base with
  | .tuple members => members
  | _ => []

/-- The text by which a parameter of the type is declared. -/
def declaredText (type : AbiType) : String :=
  match type.base with
  | .tuple _ => String.ofList ("tuple".toList ++ type.dimensions)
  | _ => type.canonical

theorem spelling_eq_append (type : AbiType) :
    type.spelling = type.base.spelling ++ type.dimensions := by
  induction type with
  | fixedArray element length ih =>
      rw [spelling_fixedArray, ih, base, dimensions]
      simp only [List.append_assoc]
  | array element ih =>
      rw [spelling_array, ih, base, dimensions]
      simp only [List.append_assoc]
  | _ => simp [base, dimensions]

theorem base_ne_array (type : AbiType) :
    (∀ element length, type.base ≠ .fixedArray element length) ∧
      ∀ element, type.base ≠ .array element := by
  induction type with
  | fixedArray element length ih => exact ih
  | array element ih => exact ih
  | _ => simp [base]

/-- Only a tuple is declared by the word for it. -/
theorem after?_tuple_spelling {type : AbiType} (hplain : ∀ members, type.base ≠ .tuple members) :
    after? "tuple".toList type.spelling = none := by
  have harrays := base_ne_array type
  rw [Option.eq_none_iff_forall_ne_some]
  rintro rest hrest
  rw [after?_eq_some_iff, spelling_eq_append] at hrest
  have hhead := congrArg List.head? hrest
  cases hbase : type.base with
  | tuple members => exact hplain members hbase
  | fixedArray element length => exact harrays.1 element length hbase
  | array element => exact harrays.2 element hbase
  | _ => simp [hbase] at hhead

end AbiType

/-- The type of a parameter is put together from its text and the types of its components. -/
theorem ParamDeclaration.typeOf_declaredText {type : AbiType} {components : List Param}
    (hwell : type.isWellFormed = true) (hfields : components.map Param.type = type.fields) :
    typeOf type.declaredText components = .ok type := by
  have hparse := AbiType.parseChars_spelling hwell
  by_cases htuple : ∃ members, type.base = .tuple members
  · obtain ⟨members, hbase⟩ := htuple
    have hspelling : type.spelling = (AbiType.tuple members).spelling ++ type.dimensions := by
      rw [← hbase, ← AbiType.spelling_eq_append]
    have hafter :
        AbiType.after? "tuple".toList type.declaredText.toList = some type.dimensions := by
      rw [AbiType.after?_eq_some_iff, AbiType.declaredText, hbase, String.toList_ofList]
    rw [AbiType.fields, hbase] at hfields
    rw [typeOf, hafter]
    simp only [hfields]
    rw [← hspelling, hparse]
  · have hplain : ∀ members, type.base ≠ .tuple members := fun members hbase =>
      htuple ⟨members, hbase⟩
    have htext : type.declaredText.toList = type.spelling := by
      unfold AbiType.declaredText
      split
      next members hbase => exact absurd hbase (hplain members)
      next => exact String.toList_ofList
    rw [typeOf, htext, AbiType.after?_tuple_spelling hplain]
    simp only [AbiType.parse, htext]
    exact hparse

/-! ## Declared parameters -/

/-- The object declares the parameter as a compiler does. Members may stand in any order and
among others; one that is missing stands for its default. -/
inductive Declares : Json → Param → Prop where
  | object {members : List (String × Json)} {items : List Json} {internalType : Option String}
      {param : Param} (hnodup : (members.map Prod.fst).Nodup)
      (hname : ((Json.object members).member? "name").getD (.string "") = .string param.name)
      (htype : (Json.object members).member? "type" = some (.string param.type.declaredText))
      (hindexed : ((Json.object members).member? "indexed").getD (.bool false) =
        .bool param.indexed)
      (hinternal : ((Json.object members).member? "internalType").getD .null =
        internalType.elim .null .string)
      (hkept : param.internalType = internalType.filter (· ≠ ""))
      (hcomponents : ((Json.object members).member? "components").getD (.array []) = .array items)
      (hitems : List.Forall₂ Declares items param.components)
      (hwell : param.type.isWellFormed = true)
      (hfields : param.components.map Param.type = param.type.fields) :
      Declares (.object members) param

/-- A statement holds of every parameter if it holds of each whose components have it. -/
@[elab_as_elim, induction_eliminator]
theorem Param.induction {motive : Param → Prop}
    (mk : ∀ name type indexed internalType components,
      (∀ component ∈ components, motive component) →
        motive ⟨name, type, indexed, internalType, components⟩) :
    ∀ param, motive param :=
  fun param =>
    @Param.rec motive (fun params => ∀ param ∈ params, motive param)
      mk (fun _ hmem => absurd hmem List.not_mem_nil)
      (fun _ _ hhead htail _ hmem =>
        (List.mem_cons.mp hmem).elim (fun heq => heq ▸ hhead) (htail _))
      param

/-- A parameter is declared by its name, its text, and its components if it has some. -/
theorem declares_written {name text : String} {type : AbiType} {items : List Json}
    {components : List Param} (htext : type.declaredText = text)
    (hitems : List.Forall₂ Declares items components) (hwell : type.isWellFormed = true)
    (hfields : components.map Param.type = type.fields) :
    Declares (.object (("name", .string name) :: ("type", .string text) ::
      if items.isEmpty then [] else [("components", .array items)]))
        ⟨name, type, false, none, components⟩ := by
  subst htext
  have hinternal : Json.null = (none : Option String).elim .null .string := rfl
  cases items with
  | nil => exact .object (by simp) rfl rfl rfl hinternal rfl rfl hitems hwell hfields
  | cons item items => exact .object (by simp) rfl rfl rfl hinternal rfl rfl hitems hwell hfields

/-- Every well-formed type has components by which a compiler declares it, by induction on the
type: arrays are declared by the components of their elements. -/
theorem exists_components {type : AbiType} (hwell : type.isWellFormed = true) :
    ∃ items components, List.Forall₂ Declares items components ∧
      components.map Param.type = type.fields := by
  induction type with
  | fixedArray element length ih =>
      rw [AbiType.isWellFormed, Bool.and_eq_true] at hwell
      exact ih hwell.2
  | array element ih => exact ih hwell
  | tuple types ih =>
      rw [AbiType.isWellFormed, AbiType.areWellFormed_iff] at hwell
      change ∃ items components, List.Forall₂ Declares items components ∧
        components.map Param.type = types
      induction types with
      | nil => exact ⟨[], [], .nil, rfl⟩
      | cons type types ihtypes =>
          obtain ⟨hfirst, hothers⟩ := List.forall_mem_cons.mp hwell
          obtain ⟨hcomponents, hcomponentsOthers⟩ := List.forall_mem_cons.mp ih
          obtain ⟨inner, innerComponents, hinner, hfields⟩ := hcomponents hfirst
          obtain ⟨items, components, hitems, rfl⟩ := ihtypes hcomponentsOthers hothers
          exact ⟨_ :: items, ⟨"", type, false, none, innerComponents⟩ :: components,
            .cons (declares_written rfl hinner hfirst hfields) hitems, rfl⟩
  | _ => exact ⟨[], [], .nil, rfl⟩

namespace ParamDeclaration

/-- The components of a parameter are a list of parameters. -/
theorem ofJson?_eq (json : Json) :
    ofJson? json = (json.record? fieldNames).bind (fun record => do
      let name ← record.withDefault "name" "" Json.asString?
      let type ← record.required "type" Json.asString?
      let indexed ← record.withDefault "indexed" false Json.asBool?
      let internalType ← record.withDefault "internalType" none (Json.nullable Json.asString?)
      let components ← record.withDefault "components" [] (Json.listOf ofJson?)
      some ⟨name, type, indexed, components, internalType⟩) := by
  rw [ofJson?]
  split
  next hrecord => simp only [hrecord, Option.bind_none]
  next record hrecord =>
    simp only [hrecord, Option.bind_some]
    refine bind_congr fun name => bind_congr fun type => bind_congr fun indexed =>
      bind_congr fun internalType => ?_
    rw [Json.Record.withDefault]
    split
    next hfield => simp only [hfield]
    next items hfield =>
      simp only [hfield, Json.listOf]
      rw [List.mapM_subtype fun _ _ => rfl, List.unattach_attach]
    next value hvalue hfield =>
      simp only [hfield]
      cases value with
      | array items => exact absurd rfl (hvalue items)
      | _ => rfl

theorem resolveAll_of_forall₂ {declarations : List ParamDeclaration} {params : List Param}
    (hresolved : List.Forall₂ (fun declaration param => resolve declaration = .ok param)
      declarations params) : resolveAll declarations = .ok params := by
  induction hresolved with
  | nil => rfl
  | cons hfirst _ ih =>
      simp only [resolveAll, hfirst, ih]
      rfl

/-- If each of several parameters is read as it was declared, all of them are. -/
theorem exists_resolveAll {items : List Json} {params : List Param}
    (hitems : List.Forall₂ Declares items params)
    (hparams : ∀ param ∈ params, ∀ {json : Json}, Declares json param →
      ∃ declaration, ofJson? json = some declaration ∧ resolve declaration = .ok param) :
    ∃ declarations, (Json.array items).listOf ofJson? = some declarations ∧
      resolveAll declarations = .ok params := by
  obtain ⟨declarations, hreads, hresolved⟩ := Json.exists_listOf hitems hparams
  exact ⟨declarations, hreads, resolveAll_of_forall₂ hresolved⟩

/-- A parameter is read as it was declared, by induction on its components. -/
theorem exists_resolve {json : Json} {param : Param} (hdeclares : Declares json param) :
    ∃ declaration, ofJson? json = some declaration ∧ resolve declaration = .ok param := by
  induction param generalizing json with
  | mk name type indexed keptType components ih =>
      cases hdeclares with
      | @object members items internalType _ hnodup hname htype hindexed hinternal hkept
          hcomponents hitems hwell hfields =>
          obtain ⟨declarations, hreads, hresolveds⟩ := exists_resolveAll hitems ih
          refine ⟨⟨name, type.declaredText, indexed, declarations, internalType⟩, ?_, ?_⟩
          · let record : Json.Record :=
              ⟨.named, members.filter fun member => fieldNames.contains member.1⟩
            have hname : record.withDefault "name" "" Json.asString? = some name :=
              Json.withDefault_object (by decide) rfl hname rfl
            have htype : record.required "type" Json.asString? = some type.declaredText := by
              rw [Json.Record.required, Json.field?_object (by decide), htype]
              rfl
            have hindexed : record.withDefault "indexed" false Json.asBool? = some indexed :=
              Json.withDefault_object (by decide) rfl hindexed rfl
            have hinternal : record.withDefault "internalType" none
                (Json.nullable Json.asString?) = some internalType :=
              Json.withDefault_object (by decide) rfl hinternal (by cases internalType <;> rfl)
            have hcomponents : record.withDefault "components" [] (Json.listOf ofJson?) =
                some declarations :=
              Json.withDefault_object (by decide) rfl hcomponents hreads
            rw [ofJson?_eq, Json.record?_object hnodup, Option.bind_some, hname, htype, hindexed,
              hinternal, hcomponents]
            rfl
          · have hkept : internalType.filter (· ≠ "") = keptType := hkept.symm
            simp only [resolve, hresolveds, bind, Except.bind, typeOf_declaredText hwell hfields,
              hkept]

end ParamDeclaration

/-! ## Declared entries -/

/-- The word by which newer compilers say what a call may do. -/
def Mutability.word : Mutability → String
  | pure => "pure"
  | view => "view"
  | nonPayable => "nonpayable"
  | payable => "payable"

/-- What an entry of a document declares. -/
structure Entry where
  kind : String
  name : String
  inputs : List Param
  outputs : List Param
  anonymous : Bool
  mutability : Mutability

namespace Entry

def function? (entry : Entry) : Option Function :=
  if entry.kind = "function" then
    some ⟨entry.name, entry.inputs, entry.outputs, entry.mutability⟩
  else none

def event? (entry : Entry) : Option Event :=
  if entry.kind = "event" then some ⟨entry.name, entry.inputs, entry.anonymous⟩ else none

def constructor? (entry : Entry) : Option Constructor :=
  if entry.kind = "constructor" then some ⟨entry.inputs, entry.mutability⟩ else none

end Entry

/-- The object declares the entry as a compiler does, a newer or an older one. -/
inductive DeclaresEntry : Json → Entry → Prop where
  | object {members : List (String × Json)} {inputs outputs : List Json}
      {stateMutability : Option Mutability} {constant payable : Bool} {entry : Entry}
      (hnodup : (members.map Prod.fst).Nodup)
      (hkind : ((Json.object members).member? "type").getD (.string "function") =
        .string entry.kind)
      (hname : ((Json.object members).member? "name").getD (.string "") = .string entry.name)
      (hinputs : ((Json.object members).member? "inputs").getD (.array []) = .array inputs)
      (hinput : List.Forall₂ Declares inputs entry.inputs)
      (houtputs : ((Json.object members).member? "outputs").getD (.array []) = .array outputs)
      (houtput : List.Forall₂ Declares outputs entry.outputs)
      (hanonymous : ((Json.object members).member? "anonymous").getD (.bool false) =
        .bool entry.anonymous)
      (hstate : ((Json.object members).member? "stateMutability").getD .null =
        stateMutability.elim .null fun mutability => .string mutability.word)
      (hconstant : ((Json.object members).member? "constant").getD (.bool false) =
        .bool constant)
      (hpayable : ((Json.object members).member? "payable").getD (.bool false) = .bool payable)
      (hmutability : entry.mutability = stateMutability.getD
        (if constant then .view else if payable then .payable else .nonPayable)) :
      DeclaresEntry (.object members) entry

theorem nullable_choice_word (stateMutability : Option Mutability) :
    Json.nullable (Json.choice? Declaration.mutabilityNames)
      (stateMutability.elim .null fun mutability => .string mutability.word) =
        some stateMutability := by
  cases stateMutability with
  | none => rfl
  | some mutability => cases mutability <;> rfl

namespace Declaration

/-- The declaration is read of an entry and means it. -/
structure Means (declaration : Declaration) (entry : Entry) : Prop where
  kind : declaration.kind = entry.kind
  name : declaration.name = entry.name
  inputs : ParamDeclaration.resolveAll declaration.inputs = .ok entry.inputs
  outputs : ParamDeclaration.resolveAll declaration.outputs = .ok entry.outputs
  anonymous : declaration.anonymous = entry.anonymous
  mutability : declaration.mutability = entry.mutability

theorem exists_means {json : Json} {entry : Entry} (hdeclares : DeclaresEntry json entry) :
    ∃ declaration, ofJson? json = some declaration ∧ declaration.Means entry := by
  cases hdeclares with
  | @object members inputs outputs stateMutability constant payable _ hnodup hkind hname hinputs
      hinput houtputs houtput hanonymous hstate hconstant hpayable hmutability =>
      obtain ⟨inputDeclarations, hreadInputs, hresolvedInputs⟩ :=
        ParamDeclaration.exists_resolveAll hinput fun _ _ => ParamDeclaration.exists_resolve
      obtain ⟨outputDeclarations, hreadOutputs, hresolvedOutputs⟩ :=
        ParamDeclaration.exists_resolveAll houtput fun _ _ => ParamDeclaration.exists_resolve
      refine ⟨⟨entry.kind, entry.name, inputDeclarations, outputDeclarations, entry.anonymous,
        stateMutability, constant, payable⟩, ?_, ?_⟩
      · let record : Json.Record :=
          ⟨.named, members.filter fun member => fieldNames.contains member.1⟩
        have hkind : record.withDefault "type" "function" Json.asString? = some entry.kind :=
          Json.withDefault_object (by decide) rfl hkind rfl
        have hname : record.withDefault "name" "" Json.asString? = some entry.name :=
          Json.withDefault_object (by decide) rfl hname rfl
        have hinputs : record.withDefault "inputs" [] (Json.listOf ParamDeclaration.ofJson?) =
            some inputDeclarations :=
          Json.withDefault_object (by decide) rfl hinputs hreadInputs
        have houtputs : record.withDefault "outputs" [] (Json.listOf ParamDeclaration.ofJson?) =
            some outputDeclarations :=
          Json.withDefault_object (by decide) rfl houtputs hreadOutputs
        have hanonymous : record.withDefault "anonymous" false Json.asBool? =
            some entry.anonymous := Json.withDefault_object (by decide) rfl hanonymous rfl
        have hstate : record.withDefault "stateMutability" none
            (Json.nullable (Json.choice? mutabilityNames)) = some stateMutability :=
          Json.withDefault_object (by decide) rfl hstate (nullable_choice_word stateMutability)
        have hconstant : record.withDefault "constant" false Json.asBool? = some constant :=
          Json.withDefault_object (by decide) rfl hconstant rfl
        have hpayable : record.withDefault "payable" false Json.asBool? = some payable :=
          Json.withDefault_object (by decide) rfl hpayable rfl
        rw [ofJson?, Json.record?_object hnodup, Option.bind_eq_bind, Option.bind_some, hkind,
          hname, hinputs, houtputs, hanonymous, hstate, hconstant, hpayable]
        rfl
      · refine ⟨rfl, rfl, hresolvedInputs, hresolvedOutputs, rfl, ?_⟩
        rw [hmutability]
        cases stateMutability <;> rfl

end Declaration

/-! ## Declared interfaces -/

namespace Interface

/-- The interface that the entries of a document declare: its functions and events in their
order, and the last constructor. -/
def ofEntries (entries : List Entry) : Interface where
  constructor := (entries.filterMap Entry.constructor?).getLast?
  functions := entries.filterMap Entry.function?
  events := entries.filterMap Entry.event?

/-- The interface with what one more entry declares. -/
def extended (interface : Interface) (entry : Entry) : Interface where
  constructor := entry.constructor?.or interface.constructor
  functions := interface.functions ++ entry.function?.toList
  events := interface.events ++ entry.event?.toList

theorem add_of_means {interface : Interface} {declaration : Declaration} {entry : Entry}
    (hmeans : declaration.Means entry) :
    interface.add declaration = .ok (interface.extended entry) := by
  obtain ⟨hkind, hname, hinputs, houtputs, hanonymous, hmutability⟩ := hmeans
  simp only [add, extended, Entry.function?, Entry.event?, Entry.constructor?, hkind, hname,
    hinputs, houtputs, hanonymous, hmutability, bind, Except.bind]
  split
  next hfunction => simp [hfunction]
  next hfunction =>
    split
    next hconstructor => simp [hconstructor]
    next hconstructor =>
      split
      next hevent => simp
      next hother => simp

theorem foldlM_add {declarations : List Declaration} {entries : List Entry}
    (hmeans : List.Forall₂ Declaration.Means declarations entries) (interface : Interface) :
    declarations.foldlM add interface = .ok (entries.foldl extended interface) := by
  induction hmeans generalizing interface with
  | nil => rfl
  | cons hmeans _ ih =>
      rw [List.foldlM_cons, add_of_means hmeans, List.foldl_cons]
      exact ih _

theorem foldl_extended (entries : List Entry) (interface : Interface) :
    entries.foldl extended interface =
      { constructor := (entries.filterMap Entry.constructor?).getLast?.or interface.constructor
        functions := interface.functions ++ entries.filterMap Entry.function?
        events := interface.events ++ entries.filterMap Entry.event? } := by
  induction entries generalizing interface with
  | nil => simp
  | cons entry entries ih =>
      rw [List.foldl_cons, ih, extended]
      simp only [List.filterMap_cons]
      cases entry.constructor? <;> cases entry.function? <;> cases entry.event? <;>
        simp [List.getLast?_cons]

theorem foldl_extended_empty (entries : List Entry) :
    entries.foldl extended empty = ofEntries entries := by
  rw [foldl_extended, ofEntries, empty]
  simp

end Interface

/-- The canonical form of a tuple joins those of its members. -/
theorem AbiType.canonical_tuple (types : List AbiType) :
    (AbiType.tuple types).canonical = "(" ++ ",".intercalate (types.map canonical) ++ ")" := by
  have hspellings : AbiType.spellings types = [','].intercalate (types.map spelling) := by
    induction types with
    | nil => rfl
    | cons type types ih =>
        cases types with
        | nil => simp
        | cons other types =>
            rw [spellings_cons_cons, ih]
            simp
  have hcanonical : String.toList ∘ canonical = spelling :=
    funext fun type => String.toList_ofList
  apply String.toList_inj.mp
  simp [canonical, hspellings, String.toList_intercalate, hcanonical]

namespace Interface

theorem parse_eq_ok {items : List Json} {entries : List Entry} {text : String}
    (hdeclares : List.Forall₂ DeclaresEntry items entries)
    (htext : Json.parse? text = some (.array items)) : parse text = .ok (ofEntries entries) := by
  obtain ⟨declarations, hreads, hmeans⟩ :=
    Json.exists_listOf hdeclares fun _ _ => Declaration.exists_means
  rw [parse, htext, Option.bind_some, hreads]
  simp only [foldlM_add hmeans, foldl_extended_empty, Except.mapError]

/-- A document that declares entries as a compiler does gives the interface of these entries,
so each parameter has the type, the name, and the components that it was declared with. It may
be any text of a JSON value, and where it is nested within limits every spelling of the
value is such a text. The signatures of its functions join the canonical forms of the types. -/
theorem parse_of_declares {items : List Json} {entries : List Entry}
    (hdeclares : List.Forall₂ DeclaresEntry items entries) :
    (∀ text, Json.parse? text = some (.array items) → parse text = .ok (ofEntries entries)) ∧
      ((Json.array items).nesting < Json.depthLimit →
        ∀ text inner, (Json.array items).Spells inner → Json.Pads inner text.toList →
          parse text = .ok (ofEntries entries)) ∧
      ∀ function ∈ (ofEntries entries).functions, function.signature =
        function.name ++ ("(" ++ ",".intercalate
          (function.inputs.map fun param => param.type.canonical) ++ ")") := by
  refine ⟨fun text htext => parse_eq_ok hdeclares htext, ?_, ?_⟩
  · intro hnesting text inner hspells hpads
    exact parse_eq_ok hdeclares (Json.parse?_of_spells hspells hpads hnesting)
  · intro function _
    rw [Function.signature, signature, AbiType.canonical_tuple, Function.inputTypes, List.map_map]
    rfl

/-- A function of arrays of arrays of tuples, which hold arrays of tuples. -/
theorem parse_of_declares_nested :
    let plain (name type : String) : Json :=
      .object [("name", .string name), ("type", .string type)]
    let tuple (name type : String) (components : List Json) : Json :=
      .object [("name", .string name), ("type", .string type), ("components", .array components)]
    let tags : Param := ⟨"tags", .array (.tuple [.string, .uint 8]), false, none,
      [.named "key" .string, .named "weight" (.uint 8)]⟩
    let item : Param := ⟨"item", .array (.fixedArray (.tuple [.uint 256, tags.type]) 2), false,
      none, [.named "id" (.uint 256), tags]⟩
    let members := [("type", .string "function"), ("name", .string "put"),
      ("inputs", .array [tuple "item" "tuple[2][]" [plain "id" "uint256",
        tuple "tags" "tuple[]" [plain "key" "string", plain "weight" "uint8"]]]),
      ("outputs", .array [plain "" "bool"]), ("constant", .bool true)]
    let put : Function := ⟨"put", [item], [.named "" .bool], .view⟩
    parse (Json.array [.object members]).print = .ok ⟨none, [put], []⟩ ∧
      put.signature = "put((uint256,(string,uint8)[])[2][])" := by
  intro plain tuple tags item members put
  have hplain {name text : String} {type : AbiType} (htext : type.declaredText = text)
      (hwell : type.isWellFormed = true) (hfields : [] = type.fields) :
      Declares (plain name text) (.named name type) :=
    declares_written htext .nil hwell hfields
  have htags : Declares (tuple "tags" "tuple[]" [plain "key" "string", plain "weight" "uint8"])
      tags :=
    declares_written (by decide +kernel) (.cons (hplain (by decide +kernel) rfl rfl)
      (.cons (hplain (by decide +kernel) rfl rfl) .nil)) (by decide +kernel) rfl
  have hitem : Declares (tuple "item" "tuple[2][]" [plain "id" "uint256",
      tuple "tags" "tuple[]" [plain "key" "string", plain "weight" "uint8"]]) item :=
    declares_written (by decide +kernel) (.cons (hplain (by decide +kernel) rfl rfl)
      (.cons htags .nil)) (by decide +kernel) rfl
  have hinput := List.Forall₂.cons hitem .nil
  have houtput := List.Forall₂.cons
    (hplain (by decide +kernel : AbiType.bool.declaredText = "bool") rfl rfl :
      Declares (plain "" "bool") (.named "" .bool)) .nil
  have hstate : Json.null = (none : Option Mutability).elim .null fun mutability =>
    .string mutability.word := rfl
  have hput : DeclaresEntry (.object members)
      ⟨"function", "put", [item], [.named "" .bool], false, .view⟩ :=
    .object (by simp [members]) rfl rfl rfl hinput rfl houtput rfl hstate rfl rfl rfl
  obtain ⟨hparse, -, hsignature⟩ := parse_of_declares (.cons hput .nil)
  refine ⟨hparse _ (Json.parse?_print (by decide +kernel) (by decide +kernel)), ?_⟩
  rw [hsignature put (by simp [ofEntries, Entry.function?, put])]
  decide +kernel

end Interface

end ChainClient.Abi
