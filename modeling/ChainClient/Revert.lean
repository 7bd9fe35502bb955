import ChainClient.Abi.Decoder
import ChainClient.Node.Envelope

/-!
# Reasons of reverted calls

A contract that gives up returns the four bytes that would call a function named
for errors, followed by the reason as its one argument. Without such a payload
the node's own words are the reason.
-/

namespace ChainClient.Revert

open Text

def selector : Bytes := [0x08, 0xc3, 0x79, 0xa0]

def missingReason : String := "N/A"

/-- Whether returned data in hexadecimal is that of a contract that gave up. -/
def isPayload (out : String) : Bool :=
  match Hex.decode out with
  | .ok bytes => selector.isPrefixOf bytes
  | .error _ => false

/-- The reason in returned data. -/
def decode? (out : String) : Option String :=
  match Hex.decode out with
  | .error _ => none
  | .ok bytes =>
      if selector.isPrefixOf bytes then
        match Abi.decode (bytes.drop selector.length) [.string] with
        | .ok [value] => value.asString?
        | _ => none
      else none

/-- The reason of a reverted call, from its returned data or the node's error. -/
def reason (out : Option String) (error : Option Node.NodeError) : String :=
  match out.bind decode? with
  | some reason => reason
  | none =>
      match error with
      | some error => if error.message = "" then missingReason else error.message
      | none => missingReason

end ChainClient.Revert
