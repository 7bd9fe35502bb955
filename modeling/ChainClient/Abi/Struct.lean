import ChainClient.Abi.Interface
import ChainClient.Abi.Type.Parser
import ChainClient.Text.Blank

/-!
# Structures

The tuples that occur in an interface, each once and with the name it has in the
contract's language. A structure comes after all structures it contains.
-/

namespace ChainClient.Abi

/-- A tuple with a name and named members. -/
structure StructDef where
  name : String
  type : AbiType
  fields : List Param
  deriving Repr

def StructDef.identifier (struct : StructDef) : String :=
  struct.type.canonical

/-- The structures of an interface. -/
structure StructRegistry where
  structs : List StructDef
  deriving Repr

def AbiType.isTuple : AbiType → Bool
  | .tuple _ => true
  | _ => false

namespace StructRegistry

open Text

def afterLastDot (text : List Char) : List Char :=
  (text.reverse.takeWhile (· ≠ '.')).reverse

/-- The name of a structure in the contract's language, without its scope and
its array dimensions. -/
def structName? (internalType : String) : Option String :=
  match AbiType.after? "struct ".toList (trim internalType.toList) with
  | none => none
  | some declared =>
      match afterLastDot (trim (declared.takeWhile (· ≠ '['))) with
      | [] => none
      | name => some (String.ofList name)

/-- Whether a parameter's type is built on a tuple that none of the parameters
found before it is built on. -/
def isNew (found : List Param) (param : Param) : Bool :=
  param.type.base.isTuple && found.all fun other => other.type.base ≠ param.type.base

mutual

/-- The parameters found so far, the latest first, and those found in a
parameter and below it: the first for each tuple. -/
def collect (found : List Param) : Param → List Param
  | ⟨name, type, indexed, internalType, components⟩ =>
      let param : Param := ⟨name, type, indexed, internalType, components⟩
      collectAll (if isNew found param then param :: found else found) components

def collectAll (found : List Param) : List Param → List Param
  | [] => found
  | param :: params => collectAll (collect found param) params

end

/-- The structure at a place of the registry. One without a name is called by
its place. -/
def structAt (param : Param) (place : Nat) : StructDef where
  name := (param.internalType.bind structName?).getD s!"Struct{place}"
  type := param.type.base
  fields := param.components

/-- The structures of an interface, by depth of nesting and then in the order
in which they occur. -/
def ofInterface (interface : Interface) : StructRegistry :=
  let found := (collectAll [] interface.params).reverse
  let sorted := found.mergeSort fun first second =>
    first.type.nestingDepth ≤ second.type.nestingDepth
  ⟨sorted.zipIdx.map fun (param, place) => structAt param place⟩

def get? (registry : StructRegistry) (type : AbiType) : Option StructDef :=
  registry.structs.find? fun struct => struct.type == type.base

end StructRegistry

end ChainClient.Abi
