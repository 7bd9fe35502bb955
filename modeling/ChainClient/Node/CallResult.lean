import ChainClient.Revert

/-!
# Results of calls

What a node returns for a call that changes nothing: data in hexadecimal, or an
error. A call has reverted if there is an error or if the data says so.
-/

namespace ChainClient.Node

/-- The result of a call. -/
structure CallResult where
  out : Option String
  error : Option NodeError
  deriving DecidableEq, Repr

namespace CallResult

/-- The returned data in the result of an answer: a text, or an object with the
text below a key. -/
def outOf : Json → Option String
  | .string text => some text
  | value => (value.member? "out").bind Json.asString?

def ofEnvelope (envelope : Envelope Json) : CallResult :=
  ⟨envelope.result.bind outOf, envelope.failure?⟩

def failure? (result : CallResult) : Option NodeError :=
  result.error.filter fun error => error.code ≠ 0

def isReverted (result : CallResult) : Bool :=
  result.failure?.isSome || result.out.elim false Revert.isPayload

def reason (result : CallResult) : String :=
  Revert.reason result.out result.failure?

end CallResult

end ChainClient.Node
