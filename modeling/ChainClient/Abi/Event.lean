import ChainClient.Abi.Function

/-!
# Events

A contract reports an event as a log of topics and data. The first topic is the
digest of the event's signature unless the event is anonymous; the others hold
the indexed parameters, and the data holds the rest as a block. An indexed
parameter that does not fill exactly one word is known only by its digest.
-/

namespace ChainClient.Abi

/-- An event of a contract. -/
structure Event where
  name : String
  inputs : List Param
  /-- Whether the log lacks the digest of the signature. -/
  anonymous : Bool
  deriving Repr

/-- The values of one logged event. -/
structure EventValues where
  /-- The values of the indexed parameters; a digest stands for itself. -/
  indexed : List Value
  nonIndexed : List Value
  deriving DecidableEq, Repr

/-- Whether a topic of this type holds the value itself and not its digest. The
size of a static type decides, and without one the program stops. -/
def AbiType.fitsTopic (type : AbiType) : Except DecodeError Bool :=
  if type.isDynamic then .ok false
  else
    match type.headSize? with
    | some size => .ok (size == Word.size)
    | none => .error .overflow

def decodeTopic (type : AbiType) (topic : Word) : Except DecodeError (List Value) := do
  if ← type.fitsTopic then decode topic.toBytes [type] else .ok [.fixedBytes topic.toBytes]

/-- The values of indexed parameters, read from their topics in order. -/
def decodeTopics : List AbiType → List Word → Except DecodeError (List Value)
  | type :: types, topic :: topics => do
      let value ← decodeTopic type topic
      let values ← decodeTopics types topics
      .ok (value ++ values)
  | _, _ => .ok []

namespace Event

def signature (event : Event) : String :=
  Abi.signature event.name (event.inputs.map Param.type)

def topic (event : Event) : Word :=
  Hash.keccak256Text event.signature

def indexedTypes (event : Event) : List AbiType :=
  (event.inputs.filter Param.indexed).map Param.type

def dataTypes (event : Event) : List AbiType :=
  (event.inputs.filter fun param => !param.indexed).map Param.type

/-- The topics that hold indexed parameters, if the topics are those of this
event. -/
def parameterTopics? (event : Event) (topics : List Word) : Option (List Word) :=
  let rest :=
    if event.anonymous then some topics
    else
      match topics with
      | first :: rest => if first = event.topic then some rest else none
      | [] => none
  rest.filter fun rest => rest.length == event.indexedTypes.length

/-- The values of a log, or none if the log is not one of this event. -/
def decodeLog (event : Event) (topics : List Word) (data : Bytes) :
    Except DecodeError (Option EventValues) :=
  match event.parameterTopics? topics with
  | none => .ok none
  | some topics => do
      let indexed ← decodeTopics event.indexedTypes topics
      let nonIndexed ← decode data event.dataTypes
      .ok (some ⟨indexed, nonIndexed⟩)

end Event

/-- The topic of an indexed value. A text or byte string is known by the digest
of its content, anything else that is not one static word by that of its bytes. -/
def encodeTopic (value : Value) : Except EncodeError Word := do
  value.check
  match value with
  | .string text => .ok (Hash.keccak256Text text)
  | .bytes bytes => .ok (Hash.keccak256 bytes)
  | value =>
      let encoded ← encode [value]
      if encoded.length = Word.size && !value.isDynamic then .ok (Word.ofBytes encoded)
      else .ok (Hash.keccak256 encoded)

end ChainClient.Abi
