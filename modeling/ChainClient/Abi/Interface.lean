import ChainClient.Abi.Event

/-!
# Contract interfaces

An interface lists what can be called on a contract and what it reports. Names
may be overloaded; looking one up by name gives the first.
-/

namespace ChainClient.Abi

/-- The constructor of a contract. -/
structure Constructor where
  inputs : List Param
  /-- What construction may do: only whether it takes funds matters. -/
  mutability : Mutability
  deriving Repr

/-- The arguments of a constructor in hexadecimal without a mark, ready to be
put behind the bytecode. -/
def encodeArguments (values : List Value) : Except EncodeError String :=
  (encode values).map Text.Hex.encode

/-- The arguments of this constructor, after a check of their types. -/
def Constructor.encodeArguments (constructor : Constructor) (values : List Value) :
    Except EncodeError String := do
  checkTypes (constructor.inputs.map Param.type) values
  Abi.encodeArguments values

/-- What can be called on a contract and what it reports. -/
structure Interface where
  constructor : Option Constructor
  functions : List Function
  events : List Event
  deriving Repr

namespace Interface

def empty : Interface := ⟨none, [], []⟩

def function? (interface : Interface) (name : String) : Option Function :=
  interface.functions.find? fun function => function.name == name

def overloads (interface : Interface) (name : String) : List Function :=
  interface.functions.filter fun function => function.name == name

def event? (interface : Interface) (name : String) : Option Event :=
  interface.events.find? fun event => event.name == name

/-- All parameters of an interface: those of the constructor, of each function
with its results, and of the events. -/
def params (interface : Interface) : List Param :=
  (interface.constructor.elim [] Constructor.inputs) ++
    interface.functions.flatMap (fun function => function.inputs ++ function.outputs) ++
    interface.events.flatMap Event.inputs

end Interface

end ChainClient.Abi
