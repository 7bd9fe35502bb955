import ChainClient.Scenario.Run

/-!
# Scripted nodes

A scripted node answers from a queue, at once and whatever it is asked. When the
queue is empty it gives its fallback, or no answer if it has none.
-/

namespace ChainClient.Scenario

open Node

/-- What a scripted node is going to answer. -/
structure Script where
  queue : List Reply
  /-- The answer once the queue is empty. -/
  fallback : Option Json

namespace Script

def push (script : Script) (replies : List Reply) : Script :=
  { script with queue := script.queue ++ replies }

/-- What comes back for a request once the queue is empty. -/
def exhausted (script : Script) (query : Query) : Reply :=
  match script.fallback with
  | some json => .ok json
  | none => .error (.failed ("no scripted response for " ++ query.method))

/-- A scripted node responds with the front of its queue. -/
def respond : Responder Script := fun script query =>
  match script.queue with
  | reply :: rest => ⟨reply, 0, { script with queue := rest }⟩
  | [] => ⟨script.exhausted query, 0, script⟩

end Script

end ChainClient.Scenario
