import ChainClient.Abi.Error
import ChainClient.Node.Envelope
import ChainClient.Signature

/-!
# Errors of the client

Why a request to a node brought no answer, and why an operation of the client
failed. Errors of the parts are passed on unchanged.
-/

namespace ChainClient

/-- Why a request brought no answer. -/
inductive TransportError where
  | notReadable
  | failed (reason : String)
  deriving DecidableEq, Repr

/-- The message shown for an error, if its words are part of the contract. -/
def TransportError.message? : TransportError → Option String
  | notReadable => none
  | failed reason => some reason

/-- Why an operation of the client failed. -/
inductive ClientError where
  | transport (error : TransportError)
  | chain (code : Int64) (message : String)
  /-- A signed transaction may or may not have reached the node. -/
  | submission (digest : String) (source : TransportError)
  /-- No receipt came within the budget; the time is in milliseconds. -/
  | confirmationTimeout (hash : String) (elapsed : Nat)
  | cancelled (hash : String)
  | reverted (hash : String) (status : Int64) (gasUsed reason : String)
  | callReverted (reason : String)
  /-- The node's answer lacks its result. -/
  | missingField (name : String)
  | missingContractAddress (hash : String)
  | emptyCallResult
  | configuration (reason : String)
  | key (error : KeyError)
  | signing (error : SigningError)
  | encode (error : Abi.EncodeError)
  | decode (error : Abi.DecodeError)
  /-- A topic or data of a log is not hexadecimal or has a wrong length. -/
  | hex (error : HexError)
  /-- A nonce exceeds the largest one; the program stops here. -/
  | overflow
  deriving DecidableEq, Repr

/-- Whether the program stops at an error instead of reporting it. -/
def ClientError.stops : ClientError → Bool
  | overflow | decode .overflow => true
  | _ => false

/-- The message shown for an error. -/
def ClientError.message? : ClientError → Option String
  | transport error => error.message?
  | chain code message => s!"Error processing request: {message} (code {code.toInt})"
  | submission digest source =>
      source.message?.map fun reason => s!"failed to submit transaction {digest}: {reason}"
  | confirmationTimeout hash elapsed =>
      let seconds := elapsed / 1000
      some ("Transaction receipt was not generated after " ++ toString seconds ++
        " seconds for transaction: " ++ hash)
  | cancelled hash => s!"confirmation of {hash} was cancelled"
  | reverted hash status gasUsed reason =>
      some ("Transaction " ++ hash ++ " has failed with status: " ++ toString status.toInt ++
        ". Gas used: " ++ gasUsed ++ ". Revert reason: '" ++ reason ++ "'.")
  | callReverted reason =>
      some ("Contract Call has been reverted by the EVM with the reason: '" ++ reason ++ "'.")
  | missingField name => s!"missing {name} in response"
  | missingContractAddress hash => s!"empty contract address returned for {hash}"
  | emptyCallResult => some "Empty value (0x) returned from contract"
  | configuration reason => s!"invalid configuration: {reason}"
  | key error => error.message
  | signing error => error.message
  | encode error => error.message
  | decode error => error.message
  | hex error => error.message
  | overflow => some "arithmetic overflow"

end ChainClient
