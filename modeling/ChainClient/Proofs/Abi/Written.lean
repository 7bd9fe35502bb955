import ChainClient.Proofs.Abi.Nesting

/-!
# Tuples written by the word

An interface may write each of its tuples by the word for it, with the members below it, as
compilers do. Then the type of each declared parameter fits its components, at every depth.
-/

namespace ChainClient.Abi

/-! ## Declared parameters -/

namespace ParamDeclaration

mutual

/-- Whether every tuple in the declaration is written by the word for it, with its members below:
a text without the word denotes no type that is built on a tuple. -/
def writesTuples : ParamDeclaration → Bool
  | ⟨_, text, _, components, _⟩ =>
      ((AbiType.after? "tuple".toList text.toList).isSome ||
        (AbiType.parse text).toOption.all fun type => !type.base.isTuple) &&
      allWriteTuples components

def allWriteTuples : List ParamDeclaration → Bool
  | [] => true
  | declaration :: declarations => writesTuples declaration && allWriteTuples declarations

end

theorem allWriteTuples_iff {declarations : List ParamDeclaration} :
    allWriteTuples declarations = true ↔
      ∀ declaration ∈ declarations, declaration.writesTuples = true := by
  induction declarations with
  | nil => simp [allWriteTuples]
  | cons declaration declarations ih =>
      rw [allWriteTuples, List.forall_mem_cons, Bool.and_eq_true, ih]

theorem writesTuples_iff {declaration : ParamDeclaration} :
    declaration.writesTuples = true ↔
      (AbiType.after? "tuple".toList declaration.type.toList = none →
        ∀ type, AbiType.parse declaration.type = .ok type → type.base.isTuple = false) ∧
      ∀ component ∈ declaration.components, component.writesTuples = true := by
  obtain ⟨name, text, indexed, components, internalType⟩ := declaration
  rw [writesTuples, Bool.and_eq_true, allWriteTuples_iff, Bool.or_eq_true]
  refine and_congr_left fun _ => ?_
  cases AbiType.after? "tuple".toList text.toList with
  | some dimensions => simp
  | none => cases AbiType.parse text <;> simp [Except.toOption]

/-- A statement holds of every declaration if it holds of each whose components have it. -/
@[elab_as_elim, induction_eliminator]
theorem induction {motive : ParamDeclaration → Prop}
    (mk : ∀ name type indexed components internalType,
      (∀ component ∈ components, motive component) →
        motive ⟨name, type, indexed, components, internalType⟩) :
    ∀ declaration, motive declaration :=
  fun declaration =>
    @ParamDeclaration.rec motive (fun declarations => ∀ declaration ∈ declarations,
      motive declaration) mk (fun _ hmem => absurd hmem List.not_mem_nil)
      (fun _ _ hhead htail _ hmem =>
        (List.mem_cons.mp hmem).elim (fun heq => heq ▸ hhead) (htail _))
      declaration

theorem resolveAll_eq_ok_iff {declarations : List ParamDeclaration} {params : List Param} :
    resolveAll declarations = .ok params ↔
      List.Forall₂ (fun declaration param => resolve declaration = .ok param)
        declarations params := by
  refine ⟨fun hresolve => ?_, resolveAll_of_forall₂⟩
  induction declarations generalizing params with
  | nil =>
      cases hresolve
      exact .nil
  | cons declaration declarations ih =>
      rw [resolveAll] at hresolve
      obtain ⟨param, hfirst, hrest⟩ := bind_eq_ok_iff.mp hresolve
      obtain ⟨others, hothers, hparams⟩ := bind_eq_ok_iff.mp hrest
      cases hparams
      exact .cons hfirst (ih hothers)

theorem exists_of_mem_resolveAll {declarations : List ParamDeclaration} {params : List Param}
    {param : Param} (hresolve : resolveAll declarations = .ok params) (hparam : param ∈ params) :
    ∃ declaration ∈ declarations, resolve declaration = .ok param := by
  have hresolved := resolveAll_eq_ok_iff.mp hresolve
  obtain ⟨position, hposition, rfl⟩ := List.mem_iff_getElem.mp hparam
  have hplace := hresolved.length_eq ▸ hposition
  exact ⟨_, List.getElem_mem hplace, hresolved.get hplace hposition⟩

/-- A type that is written by the word is built on the tuple of the components. -/
theorem base_of_typeOf {text : String} {components : List Param} {type : AbiType}
    (hcomponents : ∀ component ∈ components, component.type.isWellFormed = true)
    (hword : AbiType.after? "tuple".toList text.toList = none →
      ∀ type, AbiType.parse text = .ok type → type.base.isTuple = false)
    (htype : typeOf text components = .ok type) :
    type.isWellFormed = true ∧
      (type.base.isTuple = true → type.base = .tuple (components.map Param.type)) := by
  rw [typeOf] at htype
  split at htype
  next dimensions hdimensions =>
    have hwell : (AbiType.tuple (components.map Param.type)).isWellFormed = true := by
      rw [AbiType.isWellFormed, AbiType.areWellFormed_iff, List.forall_mem_map]
      exact hcomponents
    exact ⟨AbiType.isWellFormed_of_parseChars htype,
      fun _ => AbiType.base_of_parseChars_append hwell htype⟩
  next hnone =>
    refine ⟨AbiType.isWellFormed_of_parse htype, fun htuple => ?_⟩
    rw [hword hnone type htype] at htuple
    cases htuple

/-- A declared parameter and all below it have the types of their components, by induction on
the declaration. -/
theorem fits_of_resolve {declaration : ParamDeclaration} {param : Param}
    (hwrites : declaration.writesTuples = true) (hresolve : resolve declaration = .ok param) :
    ∀ inner ∈ param.preorder, inner.Fits := by
  induction declaration generalizing param with
  | mk name text indexed components internalType ih =>
      obtain ⟨hword, hcomponents⟩ := writesTuples_iff.mp hwrites
      rw [resolve] at hresolve
      obtain ⟨members, hmembers, hrest⟩ := bind_eq_ok_iff.mp hresolve
      obtain ⟨type, htype, hparam⟩ := bind_eq_ok_iff.mp hrest
      cases hparam
      have hbelow : ∀ inner ∈ Param.preorders members, inner.Fits := by
        intro inner hinner
        obtain ⟨member, hmember, hinner⟩ := Param.mem_preorders_iff.mp hinner
        obtain ⟨component, hcomponent, hresolve⟩ := exists_of_mem_resolveAll hmembers hmember
        exact ih component hcomponent (hcomponents component hcomponent) hresolve inner hinner
      have hwell : ∀ member ∈ members, member.type.isWellFormed = true := fun member hmember =>
        (hbelow member (Param.mem_preorders_of_mem hmember)).wellFormed
      obtain ⟨htypeWell, hbase⟩ := base_of_typeOf hwell hword htype
      rw [Param.preorder_eq_cons, List.forall_mem_cons]
      exact ⟨⟨htypeWell, hbase⟩, hbelow⟩

end ParamDeclaration

/-! ## Declared interfaces -/

namespace Interface

theorem mem_params_iff {interface : Interface} {param : Param} :
    param ∈ interface.params ↔
      (∃ constructor ∈ interface.constructor, param ∈ constructor.inputs) ∨
      (∃ function ∈ interface.functions, param ∈ function.inputs ∨ param ∈ function.outputs) ∨
      ∃ event ∈ interface.events, param ∈ event.inputs := by
  cases hconstructor : interface.constructor <;> simp [params, hconstructor]

/-- One more entry adds a function or an event, replaces the constructor, or is passed over. -/
theorem add_cases {interface next : Interface} {declaration : Declaration}
    (hadd : interface.add declaration = .ok next) :
    next = interface ∨
      ∃ inputs, ParamDeclaration.resolveAll declaration.inputs = .ok inputs ∧
        ((∃ outputs, ParamDeclaration.resolveAll declaration.outputs = .ok outputs ∧
            next = { interface with functions := interface.functions ++
              [⟨declaration.name, inputs, outputs, declaration.mutability⟩] }) ∨
          next = { interface with constructor := some ⟨inputs, declaration.mutability⟩ } ∨
          next = { interface with events := interface.events ++
            [⟨declaration.name, inputs, declaration.anonymous⟩] }) := by
  rw [add] at hadd
  split at hadd
  · obtain ⟨inputs, hinputs, hrest⟩ := bind_eq_ok_iff.mp hadd
    obtain ⟨outputs, houtputs, hnext⟩ := bind_eq_ok_iff.mp hrest
    cases hnext
    exact .inr ⟨inputs, hinputs, .inl ⟨outputs, houtputs, rfl⟩⟩
  split at hadd
  · obtain ⟨inputs, hinputs, hnext⟩ := bind_eq_ok_iff.mp hadd
    cases hnext
    exact .inr ⟨inputs, hinputs, .inr (.inl rfl)⟩
  split at hadd
  · obtain ⟨inputs, hinputs, hnext⟩ := bind_eq_ok_iff.mp hadd
    cases hnext
    exact .inr ⟨inputs, hinputs, .inr (.inr rfl)⟩
  · cases hadd
    exact .inl rfl

/-- The parameters of an interface are those it had and those that one more entry declares. -/
theorem mem_params_add {interface next : Interface} {declaration : Declaration} {param : Param}
    (hadd : interface.add declaration = .ok next) (hparam : param ∈ next.params) :
    param ∈ interface.params ∨ ∃ declared ∈ declaration.inputs ++ declaration.outputs,
      ParamDeclaration.resolve declared = .ok param := by
  have hdeclared {declarations : List ParamDeclaration} {params : List Param}
      (hsubset : declarations ⊆ declaration.inputs ++ declaration.outputs)
      (hresolve : ParamDeclaration.resolveAll declarations = .ok params)
      (hmem : param ∈ params) : ∃ declared ∈ declaration.inputs ++ declaration.outputs,
        ParamDeclaration.resolve declared = .ok param := by
    obtain ⟨declared, hmember, hresolve⟩ :=
      ParamDeclaration.exists_of_mem_resolveAll hresolve hmem
    exact ⟨declared, hsubset hmember, hresolve⟩
  rcases add_cases hadd with rfl | ⟨inputs, hinputs, hnext⟩
  · exact .inl hparam
  have hinput := hdeclared (List.subset_append_left _ _) hinputs
  rw [mem_params_iff] at hparam ⊢
  rcases hnext with ⟨outputs, houtputs, rfl⟩ | rfl | rfl
  · have houtput := hdeclared (List.subset_append_right _ _) houtputs
    simp only [List.mem_append, List.mem_singleton, or_and_right, exists_or,
      exists_eq_left] at hparam
    rcases hparam with hconstructor | (hfunction | hin | hout) | hevent
    · exact .inl (.inl hconstructor)
    · exact .inl (.inr (.inl hfunction))
    · exact .inr (hinput hin)
    · exact .inr (houtput hout)
    · exact .inl (.inr (.inr hevent))
  · rcases hparam with ⟨constructor, hconstructor, hin⟩ | hothers
    · cases hconstructor
      exact .inr (hinput hin)
    · exact .inl (.inr hothers)
  · simp only [List.mem_append, List.mem_singleton, or_and_right, exists_or,
      exists_eq_left] at hparam
    rcases hparam with hconstructor | hfunction | hevent | hin
    · exact .inl (.inl hconstructor)
    · exact .inl (.inr (.inl hfunction))
    · exact .inl (.inr (.inr hevent))
    · exact .inr (hinput hin)

/-- The parameters that a document declares, and all below them, have the types of their
components if it writes every tuple by the word. -/
theorem fits_of_foldlM_add {declarations : List Declaration} {interface next : Interface}
    (hwrites : ∀ declaration ∈ declarations,
      ∀ declared ∈ declaration.inputs ++ declaration.outputs, declared.writesTuples = true)
    (hfits : ∀ inner ∈ Param.preorders interface.params, inner.Fits)
    (hadd : declarations.foldlM add interface = .ok next) :
    ∀ inner ∈ Param.preorders next.params, inner.Fits := by
  induction declarations generalizing interface with
  | nil =>
      cases hadd
      exact hfits
  | cons declaration declarations ih =>
      obtain ⟨hfirst, hothers⟩ := List.forall_mem_cons.mp hwrites
      rw [List.foldlM_cons] at hadd
      obtain ⟨middle, hmiddle, hrest⟩ := bind_eq_ok_iff.mp hadd
      refine ih hothers (fun inner hinner => ?_) hrest
      obtain ⟨param, hparam, hinner⟩ := Param.mem_preorders_iff.mp hinner
      rcases mem_params_add hmiddle hparam with hold | ⟨declared, hdeclared, hresolve⟩
      · exact hfits inner (Param.mem_preorders_of_mem_preorder hold hinner)
      · exact ParamDeclaration.fits_of_resolve (hfirst declared hdeclared) hresolve inner hinner

end Interface

end ChainClient.Abi
