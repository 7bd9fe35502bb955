import ChainClient.Error
import ChainClient.Transaction

/-!
# Requests to a node

A request has a method and parameters. Chains are written as decimal texts.
-/

namespace ChainClient.Node

/-- A request to a node. -/
inductive Query where
  | account (chain : UInt64) (address : Address)
  | receipt (chain : UInt64) (hash : String)
  | submit (transaction : SignedTransaction)
  | call (transaction : Transaction)
  deriving DecidableEq, Repr

namespace Query

/-- The method of a request. -/
def method : Query → String
  | account _ _ => "GetAccount"
  | receipt _ _ => "GetTransactionByHash"
  | submit _ => "SendTx"
  | call _ => "CallTransaction"

/-- The parameters of a request. -/
def params : Query → Json
  | account chain address =>
      .object [("chainId", .string (toString chain.toNat)),
        ("address", .string address.toPrefixedHex)]
  | receipt chain hash =>
      .object [("chainId", .string (toString chain.toNat)), ("hash", .string hash)]
  | submit transaction => transaction.toWire.toJson
  | call transaction => transaction.unsignedWire.toJson

end Query

/-- What comes back for a request: the node's answer, or the reason why there is
none. -/
abbrev Reply := Except TransportError Json

end ChainClient.Node
