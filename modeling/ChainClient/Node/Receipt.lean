import ChainClient.Abi.Event
import ChainClient.Error
import ChainClient.Node.Lenient
import ChainClient.Revert

/-!
# Receipts

A node reports the outcome of a transaction as a receipt, with the logs that the
called contracts wrote. A status of one means success; every other status is a
failure.
-/

namespace ChainClient.Node

open Text

/-- One log of a receipt. Topics and data are kept as they were written. -/
structure Log where
  address : Option Address
  topics : List String
  data : String
  blockNumber : UInt64
  transactionHash : String
  index : UInt64
  deriving DecidableEq, Repr

namespace Log

/-- The log a JSON value reports. -/
def ofJson? (json : Json) : Option Log := do
  let record ← json.record?
    ["address", "topics", "data", "blockNumber", "transactionHash", "index"]
  let address ← record.withDefault "address" none (Json.nullable asAddress?)
  let topics ← record.withDefault "topics" [] (Json.listOrNull Json.asString?)
  let data ← record.withDefault "data" "" lenientString?
  let blockNumber ← record.withDefault "blockNumber" 0 lenientUInt64?
  let transactionHash ← record.withDefault "transactionHash" "" lenientString?
  let index ← record.withDefault "index" 0 lenientUInt64?
  some ⟨address, topics, data, blockNumber, transactionHash, index⟩

/-- A log as a JSON value, its fields in the order of their declaration. -/
def toJson (log : Log) : Json :=
  .object [
    ("address", log.address.elim .null fun address => .string address.toPrefixedHex),
    ("topics", .array (log.topics.map .string)),
    ("data", .string log.data),
    ("blockNumber", .number (toString log.blockNumber.toNat)),
    ("transactionHash", .string log.transactionHash),
    ("index", .number (toString log.index.toNat))]

/-- A topic as a word. -/
def topicWord (topic : String) : Except HexError Word := do
  let bytes ← Hex.decode topic
  if bytes.length = Word.size then .ok (Word.ofBytes bytes)
  else .error (.tooWide bytes.length Word.size)

def topicWords (log : Log) : Except HexError (List Word) :=
  log.topics.mapM topicWord

def dataBytes (log : Log) : Except HexError Bytes :=
  Hex.decode log.data

/-- The values a log holds of an event, or none if it is not one of the event. -/
def decode (log : Log) (event : Abi.Event) : Except ClientError (Option Abi.EventValues) := do
  let topics ← log.topicWords.mapError .hex
  let data ← log.dataBytes.mapError .hex
  (event.decodeLog topics data).mapError .decode

/-- The values that logs hold of an event, in the order of the logs. -/
def decodeAll (event : Abi.Event) : List Log → Except ClientError (List Abi.EventValues)
  | [] => .ok []
  | log :: logs => do
      let values ← log.decode event
      let rest ← decodeAll event logs
      .ok (values.toList ++ rest)

end Log

/-- The receipt of a transaction. -/
structure Receipt where
  /-- The transaction as the node shows it. -/
  transaction : Json
  logs : List Log
  /-- One for success. -/
  status : Int64
  transactionHash : String
  blockHeight : UInt64
  gasUsed : String
  gasFee : String
  contractAddress : String
  root : String
  out : String
  deriving Repr

namespace Receipt

/-- The receipt a JSON value reports. -/
def ofJson? (json : Json) : Option Receipt := do
  let record ← json.record?
    ["tx", "logs", "status", "transactionHash", "blockHeight", "gasUsed", "gasFee",
      "contractAddress", "root", "out"]
  let transaction ← record.withDefault "tx" .null Json.plain?
  let logs ← record.withDefault "logs" [] (Json.listOrNull Log.ofJson?)
  let status ← record.withDefault "status" 0 Json.asInt64?
  let transactionHash ← record.withDefault "transactionHash" "" lenientString?
  let blockHeight ← record.withDefault "blockHeight" 0 lenientUInt64?
  let gasUsed ← record.withDefault "gasUsed" "" lenientString?
  let gasFee ← record.withDefault "gasFee" "" lenientString?
  let contractAddress ← record.withDefault "contractAddress" "" lenientString?
  let root ← record.withDefault "root" "" lenientString?
  let out ← record.withDefault "out" "" lenientString?
  some ⟨transaction, logs, status, transactionHash, blockHeight, gasUsed, gasFee,
    contractAddress, root, out⟩

/-- A receipt as a JSON value, its fields in the order of their declaration. -/
def toJson (receipt : Receipt) : Json :=
  .object [
    ("tx", receipt.transaction),
    ("logs", .array (receipt.logs.map Log.toJson)),
    ("status", .number (toString receipt.status.toInt)),
    ("transactionHash", .string receipt.transactionHash),
    ("blockHeight", .number (toString receipt.blockHeight.toNat)),
    ("gasUsed", .string receipt.gasUsed),
    ("gasFee", .string receipt.gasFee),
    ("contractAddress", .string receipt.contractAddress),
    ("root", .string receipt.root),
    ("out", .string receipt.out)]

/-- The receipt that stands for a transaction nobody waits for. -/
def assumed (hash : String) : Receipt :=
  ⟨.null, [], 1, hash, 0, "", "", "", "", ""⟩

def isSuccess (receipt : Receipt) : Bool :=
  receipt.status == 1

/-- The contract that was deployed. A text that is no address, and the address
that is all zeros, name none. -/
def contract? (receipt : Receipt) : Option Address :=
  (Address.parse receipt.contractAddress).toOption.filter (· ≠ Address.zero)

def reason (receipt : Receipt) : String :=
  Revert.reason (if receipt.out = "" then none else some receipt.out) none

def events (receipt : Receipt) (event : Abi.Event) :
    Except ClientError (List Abi.EventValues) :=
  Log.decodeAll event receipt.logs

end Receipt

end ChainClient.Node
