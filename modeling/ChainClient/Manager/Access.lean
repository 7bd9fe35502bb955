import ChainClient.Manager.Program
import ChainClient.Node.Account
import ChainClient.Node.CallResult
import ChainClient.Node.Receipt

/-!
# Asking the node

The four requests with their answers read. An error of the node counts before
its result. A receipt that does not exist yet is no error: it is pending.
-/

namespace ChainClient

open Node

namespace Operation

variable {α : Type}

/-- The answer to a request, read with the given reader of results. -/
def envelope (query : Query) (read : Json → Option α) : Operation (Envelope α) := do
  match ← request query with
  | .error error => fail (.transport error)
  | .ok json =>
      match Envelope.ofJson? read json with
      | some envelope => pure envelope
      | none => fail (.transport .notReadable)

/-- The result in an answer, which must be there. -/
def result (envelope : Envelope α) (field : String) : Operation α :=
  match envelope.failure? with
  | some error => fail (.chain error.code error.message)
  | none =>
      match envelope.result with
      | some result => pure result
      | none => fail (.missingField field)

def account (chain : UInt64) (address : Address) : Operation Account := do
  let envelope ← envelope (.account chain address) Account.ofJson?
  result envelope "account"

def nonce (chain : UInt64) (address : Address) : Operation UInt64 := do
  let account ← account chain address
  pure account.nonce

end Operation

/-- What one look for a receipt brings. -/
inductive Look where
  | pending
  | ready (receipt : Receipt)
  /-- It is useless to look again. -/
  | fatal (error : ClientError)

/-- What an answer about a receipt means. -/
def Look.ofEnvelope (envelope : Envelope Receipt) : Look :=
  match envelope.failure?, envelope.result with
  | some error, _ => if error.isNotFound then .pending else .fatal (.chain error.code error.message)
  | none, some receipt => .ready receipt
  | none, none => .pending

/-- What comes back for a request about a receipt means. -/
def Look.ofReply : Reply → Look
  | .error error => .fatal (.transport error)
  | .ok json =>
      match Envelope.ofJson? Receipt.ofJson? json with
      | some envelope => ofEnvelope envelope
      | none => .fatal (.transport .notReadable)

namespace Operation

def look (chain : UInt64) (hash : String) : Operation Look := do
  let reply ← request (.receipt chain hash)
  pure (Look.ofReply reply)

/-- The name of a transaction in the result of its submission. -/
def submittedHash? (json : Json) : Option String := do
  let record ← json.record? ["TXhash"]
  record.required "TXhash" Json.asString?

/-- Hand a signed transaction to the node, which answers with its name. -/
def submit (transaction : SignedTransaction) : Operation String := do
  let envelope ← envelope (.submit transaction) submittedHash?
  result envelope "TXhash"

def callResult (transaction : Transaction) : Operation CallResult := do
  let envelope ← envelope (.call transaction) Json.plain?
  pure (CallResult.ofEnvelope envelope)

end Operation

end ChainClient
