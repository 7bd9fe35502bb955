import ChainClient.Json.Record
import ChainClient.Json.Settled

/-!
# Answers of a node

A node answers with a result, an error, or both. An error with code zero is
none. A real error counts before any result.
-/

namespace ChainClient.Node

/-- An error that a node reports. -/
structure NodeError where
  /-- The code; zero means that there is no error. -/
  code : Int64
  message : String
  deriving DecidableEq, Repr

namespace NodeError

/-- The code by which a node says that it does not know a transaction. -/
def notFoundCode : Int64 := 4003

def isNotFound (error : NodeError) : Bool :=
  error.code == notFoundCode

/-- The error a JSON value reports. -/
def ofJson? (json : Json) : Option NodeError := do
  let record ← json.record? ["code", "message"]
  let code ← record.withDefault "code" 0 Json.asInt64?
  let message ← record.withDefault "message" "" Json.asString?
  some ⟨code, message⟩

end NodeError

/-- An answer: what a node reports under the two names. -/
structure Envelope (α : Type) where
  result : Option α
  error : Option NodeError
  deriving Repr

namespace Envelope

variable {α : Type}

/-- The answer a JSON value holds, its numbers settled. -/
def ofJson? (read : Json → Option α) (json : Json) : Option (Envelope α) := do
  let record ← json.settled.record? ["result", "error"]
  let result ← record.withDefault "result" none (Json.nullable read)
  let error ← record.withDefault "error" none (Json.nullable NodeError.ofJson?)
  some ⟨result, error⟩

def failure? (envelope : Envelope α) : Option NodeError :=
  envelope.error.filter fun error => error.code ≠ 0

end Envelope

end ChainClient.Node
