import ChainClient.Json.Basic
import ChainClient.Signature

/-!
# Transactions

A transaction moves value or calls a contract on one chain. Its digest is taken
over a text that joins its fields with dashes; a signature of the digest, by the
sender's key, goes with the fields to the node.
-/

namespace ChainClient

open Text

/-- The stations in the life of a transaction. -/
inductive Stage where
  | built
  | signed
  | submitted
  | pending
  | confirmed
  | failed
  | timedOut
  deriving DecidableEq, Repr

namespace Stage

/-- The name of a stage. -/
def name : Stage → String
  | built => "built"
  | signed => "signed"
  | submitted => "submitted"
  | pending => "pending"
  | confirmed => "confirmed"
  | failed => "failed"
  | timedOut => "timed_out"

def all : List Stage :=
  [built, signed, submitted, pending, confirmed, failed, timedOut]

end Stage

/-- A transaction. -/
structure Transaction where
  chain : UInt64
  fromChain : UInt64
  toChain : UInt64
  sender : Option Address
  recipient : Option Address
  nonce : UInt64
  value : Word
  input : Bytes
  useLocal : Bool
  extra : Bytes
  deriving DecidableEq, Repr

namespace Transaction

def gasExtra (limit : UInt64) : Bytes :=
  Bytes.ofText ("\x7b\x22gas\x22: " ++ toString limit.toNat ++ "\x7d")

/-- A transaction on one chain whose sender is not known yet. -/
def create (chain nonce gasLimit : UInt64) (recipient : Option Address) (value : Word)
    (input : Bytes) : Transaction where
  chain := chain
  fromChain := chain
  toChain := chain
  sender := none
  recipient := recipient
  nonce := nonce
  value := value
  input := input
  useLocal := false
  extra := gasExtra gasLimit

/-- A transaction that only asks a contract for a result. -/
def query (chain : UInt64) (sender recipient : Address) (input : Bytes) : Transaction where
  chain := chain
  fromChain := chain
  toChain := chain
  sender := some sender
  recipient := some recipient
  nonce := 0
  value := 0
  input := input
  useLocal := false
  extra := []

/-- The fields that enter the digest, as texts. The chains of sender and
recipient are not among them. -/
def preimageParts (transaction : Transaction) : List String :=
  [toString transaction.chain.toNat,
    transaction.sender.elim "" Address.toLowerHex,
    transaction.recipient.elim "" Address.toLowerHex,
    toString transaction.nonce.toNat,
    if transaction.useLocal then "1" else "0",
    toString transaction.value.toNat,
    Hex.encode transaction.input,
    Hex.encode transaction.extra]

def preimage (transaction : Transaction) : String :=
  "-".intercalate transaction.preimageParts

def digest (transaction : Transaction) : Word :=
  Hash.keccak256Text transaction.preimage

end Transaction

/-- A transaction as a node receives it: every field is a text but one. -/
structure WireTransaction where
  chain : String
  fromChain : String
  toChain : String
  /-- The signature; empty if there is none. -/
  signature : String
  /-- The public key of the sender; empty if there is no signature. -/
  publicKey : String
  sender : String
  recipient : String
  nonce : String
  value : String
  input : String
  useLocal : Bool
  /-- The settings in hexadecimal without a mark. -/
  extra : String
  deriving DecidableEq, Repr

/-- The JSON object that is sent. -/
def WireTransaction.toJson (wire : WireTransaction) : Json :=
  .object [
    ("chainId", .string wire.chain),
    ("fromChainId", .string wire.fromChain),
    ("toChainId", .string wire.toChain),
    ("sig", .string wire.signature),
    ("pub", .string wire.publicKey),
    ("from", .string wire.sender),
    ("to", .string wire.recipient),
    ("nonce", .string wire.nonce),
    ("value", .string wire.value),
    ("input", .string wire.input),
    ("useLocal", .bool wire.useLocal),
    ("extra", .string wire.extra)]

/-- A transaction with a signature and the public key of its sender, as a node
receives it. -/
def Transaction.toWire (transaction : Transaction) (signature publicKey : String) :
    WireTransaction where
  chain := toString transaction.chain.toNat
  fromChain := toString transaction.fromChain.toNat
  toChain := toString transaction.toChain.toNat
  signature := signature
  publicKey := publicKey
  sender := transaction.sender.elim "" Address.toPrefixedHex
  recipient := transaction.recipient.elim "" Address.toPrefixedHex
  nonce := toString transaction.nonce.toNat
  value := toString transaction.value.toNat
  input := if transaction.input.isEmpty then "" else Hex.encodePrefixed transaction.input
  useLocal := transaction.useLocal
  extra := Hex.encode transaction.extra

def Transaction.unsignedWire (transaction : Transaction) : WireTransaction :=
  transaction.toWire "" ""

/-- A transaction signed by its sender. -/
structure SignedTransaction where
  transaction : Transaction
  signature : String
  publicKey : String
  digest : Word
  deriving DecidableEq, Repr

namespace SignedTransaction

def digestHex (signed : SignedTransaction) : String :=
  Hex.encodePrefixed signed.digest.toBytes

def toWire (signed : SignedTransaction) : WireTransaction :=
  signed.transaction.toWire signed.signature signed.publicKey

end SignedTransaction

/-- A transaction signed with a key pair, whose account becomes the sender. -/
def Transaction.sign (transaction : Transaction) (keys : KeyPair) :
    Except SigningError SignedTransaction := do
  let sent := { transaction with sender := some keys.address }
  let signature ← keys.sign sent.digest
  .ok ⟨sent, signature.toHex, keys.publicKey.toWire, sent.digest⟩

end ChainClient
