import ChainClient.Abi.Interface
import ChainClient.Abi.Type.Parser
import ChainClient.Json.Parser
import ChainClient.Json.Record

/-!
# Interface declarations

A compiler declares the interface of a contract as a JSON array of entries. The
type of a parameter is given by its text, except that a tuple is written as the
word for it with array dimensions, and its members are declared below it. The
whole document is read before any type is.
-/

namespace ChainClient.Abi

/-- Why a document declares no interface. -/
inductive InterfaceError where
  | notReadable
  | type (error : EncodeError)
  deriving DecidableEq, Repr

/-- A parameter as it is declared. -/
structure ParamDeclaration where
  name : String
  type : String
  /-- Whether an event puts it among its topics. -/
  indexed : Bool
  components : List ParamDeclaration
  internalType : Option String
  deriving Repr

/-- A function, event, or constructor as it is declared. -/
structure Declaration where
  kind : String
  name : String
  inputs : List ParamDeclaration
  outputs : List ParamDeclaration
  /-- Whether an event lacks the digest of its signature. -/
  anonymous : Bool
  /-- What a call may do, as newer compilers say it. -/
  stateMutability : Option Mutability
  /-- Whether a call changes nothing, as older compilers say it. -/
  constant : Bool
  /-- Whether a call takes funds, as older compilers say it. -/
  payable : Bool
  deriving Repr

/-! ## Reading -/

namespace ParamDeclaration

/-- The names of the fields of a parameter, in the order of a positional record. -/
def fieldNames : List String :=
  ["name", "type", "indexed", "components", "internalType"]

end ParamDeclaration

/-- The fields of a named record are members of its object, and those of a
positional one are its items: either way they are smaller. -/
theorem Json.sizeOf_field?_lt {names : List String} {name : String} {json value : Json}
    {record : Json.Record} (hrecord : json.record? names = some record)
    (hfield : record.field? name = some value) : sizeOf value < sizeOf json := by
  obtain ⟨pair, hfind, rfl⟩ := Option.map_eq_some_iff.mp hfield
  have hmem := List.mem_of_find?_eq_some hfind
  cases json with
  | object members =>
    simp only [Json.record?] at hrecord
    split at hrecord
    · simp at hrecord
    · simp only [Option.some.injEq] at hrecord
      subst hrecord
      have hsize := List.sizeOf_lt_of_mem (List.mem_filter.mp hmem).1
      obtain ⟨key, value⟩ := pair
      simp only [Prod.mk.sizeOf_spec, Json.object.sizeOf_spec] at hsize ⊢
      omega
  | array items =>
    simp only [Json.record?] at hrecord
    split at hrecord
    · simp at hrecord
    · simp only [Option.some.injEq] at hrecord
      subst hrecord
      have hsize := List.sizeOf_lt_of_mem (List.of_mem_zip hmem).2
      simp only [Json.array.sizeOf_spec]
      omega
  | _ => simp [Json.record?] at hrecord

namespace ParamDeclaration

/-- The parameter a JSON value declares. -/
def ofJson? (json : Json) : Option ParamDeclaration :=
  match hrecord : json.record? fieldNames with
  | none => none
  | some record => do
      let name ← record.withDefault "name" "" Json.asString?
      let type ← record.required "type" Json.asString?
      let indexed ← record.withDefault "indexed" false Json.asBool?
      let internalType ← record.withDefault "internalType" none (Json.nullable Json.asString?)
      let components ← match hfield : record.field? "components" with
        | none => some []
        | some (.array items) =>
            items.attach.mapM (fun ⟨item, hitem⟩ =>
              have := Json.sizeOf_field?_lt hrecord hfield
              have := List.sizeOf_lt_of_mem hitem
              ofJson? item)
        | some _ => none
      some ⟨name, type, indexed, components, internalType⟩
termination_by sizeOf json
decreasing_by simp only [Json.array.sizeOf_spec] at *; omega

end ParamDeclaration

namespace Declaration

/-- The names of the fields of an entry, in the order of a positional record. -/
def fieldNames : List String :=
  ["type", "name", "inputs", "outputs", "anonymous", "stateMutability", "constant", "payable"]

def mutabilityNames : List (String × Mutability) :=
  [("pure", .pure), ("view", .view), ("nonpayable", .nonPayable), ("payable", .payable)]

/-- The entry a JSON value declares. -/
def ofJson? (json : Json) : Option Declaration := do
  let record ← json.record? fieldNames
  let kind ← record.withDefault "type" "function" Json.asString?
  let name ← record.withDefault "name" "" Json.asString?
  let inputs ← record.withDefault "inputs" [] (Json.listOf ParamDeclaration.ofJson?)
  let outputs ← record.withDefault "outputs" [] (Json.listOf ParamDeclaration.ofJson?)
  let anonymous ← record.withDefault "anonymous" false Json.asBool?
  let stateMutability ← record.withDefault "stateMutability" none
    (Json.nullable (Json.choice? mutabilityNames))
  let constant ← record.withDefault "constant" false Json.asBool?
  let payable ← record.withDefault "payable" false Json.asBool?
  some ⟨kind, name, inputs, outputs, anonymous, stateMutability, constant, payable⟩

/-- What a call may do: the newer way of saying it wins. -/
def mutability (declaration : Declaration) : Mutability :=
  match declaration.stateMutability with
  | some mutability => mutability
  | none =>
      if declaration.constant then .view
      else if declaration.payable then .payable
      else .nonPayable

end Declaration

/-! ## Resolving types -/

namespace ParamDeclaration

/-- The type that a text and the types of the members declare. -/
def typeOf (type : String) (components : List Param) : Except EncodeError AbiType :=
  match AbiType.after? "tuple".toList type.toList with
  | some dimensions =>
      AbiType.parseChars ((AbiType.tuple (components.map Param.type)).spelling ++ dimensions)
  | none => AbiType.parse type

mutual

/-- The parameter that is declared. The members are resolved first. -/
def resolve : ParamDeclaration → Except EncodeError Param
  | ⟨name, type, indexed, components, internalType⟩ => do
      let members ← resolveAll components
      let type ← typeOf type members
      .ok ⟨name, type, indexed, internalType.filter (· ≠ ""), members⟩

/-- The parameters that are declared. -/
def resolveAll : List ParamDeclaration → Except EncodeError (List Param)
  | [] => .ok []
  | declaration :: declarations => do
      let param ← resolve declaration
      let params ← resolveAll declarations
      .ok (param :: params)

end

end ParamDeclaration

namespace Interface

/-- An interface with what one more entry declares. A later constructor replaces
an earlier one, and entries of other kinds are passed over. -/
def add (interface : Interface) (declaration : Declaration) : Except EncodeError Interface := do
  if declaration.kind = "function" then
    let inputs ← ParamDeclaration.resolveAll declaration.inputs
    let outputs ← ParamDeclaration.resolveAll declaration.outputs
    let function : Function := ⟨declaration.name, inputs, outputs, declaration.mutability⟩
    .ok { interface with functions := interface.functions ++ [function] }
  else if declaration.kind = "constructor" then
    let inputs ← ParamDeclaration.resolveAll declaration.inputs
    .ok { interface with constructor := some ⟨inputs, declaration.mutability⟩ }
  else if declaration.kind = "event" then
    let inputs ← ParamDeclaration.resolveAll declaration.inputs
    let event : Event := ⟨declaration.name, inputs, declaration.anonymous⟩
    .ok { interface with events := interface.events ++ [event] }
  else .ok interface

/-- The interface that a document declares. -/
def parse (text : String) : Except InterfaceError Interface :=
  match (Json.parse? text).bind (Json.listOf Declaration.ofJson?) with
  | none => .error .notReadable
  | some declarations => (declarations.foldlM add empty).mapError .type

end Interface

end ChainClient.Abi
