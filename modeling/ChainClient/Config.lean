import ChainClient.Json.Printer
import ChainClient.Json.Record
import ChainClient.Text.Quoted

/-!
# Configuration

The settings of a client: where its node is, which chain it uses, its key, and
how it waits for receipts. They come from a JSON record, or from named variables
with defaults for those that are missing or make no sense. The key is never
shown and never written.
-/

namespace ChainClient

open Text

/-- Where the nonce of a transaction comes from. -/
inductive NonceStrategy where
  /-- The node is asked for each transaction. -/
  | network
  /-- The node is asked once; then the client counts. -/
  | batch
  deriving DecidableEq, Repr

namespace NonceStrategy

/-- The strategy with a given name in letters of any case; other names mean that
the node is asked. -/
def ofName (name : String) : NonceStrategy :=
  if name.toList.map Char.toLower = "batch".toList then batch else network

def name : NonceStrategy → String
  | network => "network"
  | batch => "batch"

def debug : NonceStrategy → String
  | network => "Network"
  | batch => "Batch"

end NonceStrategy

/-- The settings of a client. -/
structure Config where
  url : String
  chain : UInt64
  privateKey : Option String
  /-- The pause between two looks for a receipt, in milliseconds. -/
  pollInterval : UInt64
  pollAttempts : UInt32
  strategy : NonceStrategy
  /-- How long a request may take, in seconds. -/
  requestTimeout : UInt64
  deriving DecidableEq, Repr

namespace Config

/-- The settings that hold where nothing else is said. -/
def defaults : Config where
  url := "http://localhost:8089"
  chain := 1
  privateKey := none
  pollInterval := 2000
  pollAttempts := 30
  strategy := .network
  requestTimeout := 30

/-- The settings that named variables give. A number that cannot be read and an
empty key count as missing. -/
def ofVariables (lookup? : String → Option String) : Config :=
  let count64 (name : String) (default : UInt64) : UInt64 :=
    ((lookup? name).bind fun text => count64? 10 text.toList).getD default
  let count32 (name : String) (default : UInt32) : UInt32 :=
    ((lookup? name).bind fun text =>
      (count? 10 (Nat.pow 2 32) text.toList).map UInt32.ofNat).getD default
  { url := (lookup? "THK_RPC_URL").getD defaults.url
    chain := count64 "THK_CHAIN_ID" defaults.chain
    privateKey := (lookup? "THK_PRIVATE_KEY").filter (· ≠ "")
    pollInterval := count64 "THK_POLL_INTERVAL_MS" defaults.pollInterval
    pollAttempts := count32 "THK_POLL_ATTEMPTS" defaults.pollAttempts
    strategy := ((lookup? "THK_NONCE_STRATEGY").map NonceStrategy.ofName).getD .network
    requestTimeout := count64 "THK_REQUEST_TIMEOUT_SECS" defaults.requestTimeout }

/-- The settings a JSON record gives. Only the key may be missing. -/
def ofJson? (json : Json) : Option Config := do
  let record ← json.record?
    ["rpc_url", "chain_id", "private_key", "poll_interval_ms", "poll_attempts",
      "nonce_strategy", "request_timeout_secs"]
  let url ← record.required "rpc_url" Json.asString?
  let chain ← record.required "chain_id" Json.asUInt64?
  let privateKey ← record.withDefault "private_key" none (Json.nullable Json.asString?)
  let pollInterval ← record.required "poll_interval_ms" Json.asUInt64?
  let pollAttempts ← record.required "poll_attempts" Json.asUInt32?
  let strategy ← record.required "nonce_strategy"
    (Json.choice? [("network", .network), ("batch", .batch)])
  let requestTimeout ← record.required "request_timeout_secs" Json.asUInt64?
  some ⟨url, chain, privateKey, pollInterval, pollAttempts, strategy, requestTimeout⟩

/-- The settings as a JSON record without the key. -/
def toJson (config : Config) : Json :=
  .object [
    ("rpc_url", .string config.url),
    ("chain_id", .number (toString config.chain.toNat)),
    ("poll_interval_ms", .number (toString config.pollInterval.toNat)),
    ("poll_attempts", .number (toString config.pollAttempts.toNat)),
    ("nonce_strategy", .string config.strategy.name),
    ("request_timeout_secs", .number (toString config.requestTimeout.toNat))]

/-- How the settings are shown to a programmer: of the key only whether it is set. -/
def debug (config : Config) : String :=
  let key := config.privateKey.elim "None" fun _ => "Some(\x22<redacted>\x22)"
  "ClientConfig \x7b rpc_url: " ++ quoted config.url ++
    ", chain_id: " ++ toString config.chain.toNat ++
    ", private_key: " ++ key ++
    ", poll_interval_ms: " ++ toString config.pollInterval.toNat ++
    ", poll_attempts: " ++ toString config.pollAttempts.toNat ++
    ", nonce_strategy: " ++ config.strategy.debug ++
    ", request_timeout_secs: " ++ toString config.requestTimeout.toNat ++ " \x7d"

end Config

end ChainClient
