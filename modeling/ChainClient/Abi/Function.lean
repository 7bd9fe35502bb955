import ChainClient.Abi.Decoder
import ChainClient.Abi.Encoder

/-!
# Functions

A contract function is called by the first four bytes of the digest of its
signature, followed by the block of its arguments. The names of parameters play
no part in the signature.
-/

namespace ChainClient.Abi

/-- A parameter of a function or event, or a member of a structure. -/
structure Param where
  name : String
  type : AbiType
  indexed : Bool
  internalType : Option String
  /-- The members, if the type is built on a tuple. -/
  components : List Param
  deriving Repr

namespace Param

def named (name : String) (type : AbiType) : Param :=
  ⟨name, type, false, none, []⟩

def ofType (type : AbiType) : Param :=
  named "" type

end Param

/-- What a call may do to the state of the chain. -/
inductive Mutability where
  | pure
  | view
  | nonPayable
  | payable
  deriving DecidableEq, Repr

def Mutability.isConstant : Mutability → Bool
  | .pure | .view => true
  | .nonPayable | .payable => false

def signature (name : String) (types : List AbiType) : String :=
  name ++ (AbiType.tuple types).canonical

def selector (signature : String) : Bytes :=
  (Hash.keccak256Text signature).toBytes.take 4

/-- The call data of a function with the given name and parameter types. -/
def encodeCall (name : String) (types : List AbiType) (values : List Value) :
    Except EncodeError Bytes := do
  checkTypes types values
  let arguments ← encode values
  .ok (selector (signature name types) ++ arguments)

/-- A function of a contract. -/
structure Function where
  name : String
  inputs : List Param
  outputs : List Param
  mutability : Mutability
  deriving Repr

namespace Function

def inputTypes (function : Function) : List AbiType :=
  function.inputs.map Param.type

def outputTypes (function : Function) : List AbiType :=
  function.outputs.map Param.type

def signature (function : Function) : String :=
  Abi.signature function.name function.inputTypes

def selector (function : Function) : Bytes :=
  Abi.selector function.signature

def encodeCall (function : Function) (values : List Value) : Except EncodeError Bytes :=
  Abi.encodeCall function.name function.inputTypes values

/-- The results that returned data holds. Empty data holds none. -/
def decodeOutput (function : Function) (data : Bytes) : Except DecodeError (List Value) :=
  if data.isEmpty then .ok [] else decode data function.outputTypes

def decodeOutputHex (function : Function) (text : String) : Except DecodeError (List Value) :=
  decodeHex text function.outputTypes

end Function

end ChainClient.Abi
