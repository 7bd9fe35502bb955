import ChainClient.Node.Lenient

/-!
# Accounts

What a node reports about an account.
-/

namespace ChainClient.Node

/-- An account as a node reports it. -/
structure Account where
  address : Option Address
  nonce : UInt64
  balance : Word
  codeHash : Option String
  storageRoot : Option String
  deriving DecidableEq, Repr

/-- The account a JSON value reports. -/
def Account.ofJson? (json : Json) : Option Account := do
  let record ← json.record? ["address", "nonce", "balance", "codeHash", "storageRoot"]
  let address ← record.optional "address" (Json.nullable asAddress?)
  let nonce ← record.withDefault "nonce" 0 lenientUInt64?
  let balance ← record.withDefault "balance" 0 lenientWord?
  let codeHash ← record.withDefault "codeHash" none (Json.nullable Json.asString?)
  let storageRoot ← record.withDefault "storageRoot" none (Json.nullable Json.asString?)
  some ⟨address, nonce, balance, codeHash, storageRoot⟩

end ChainClient.Node
