import ChainClient.Address
import ChainClient.Json.Plain
import ChainClient.Json.Printer
import ChainClient.Json.Record

/-!
# Lenient fields

Nodes write numbers as JSON numbers, as decimal digits, or as hexadecimal digits
behind a mark, and leave out or empty what is zero. Reading accepts all of these
for the same number. What is read is the plain form of a field.
-/

namespace ChainClient.Node

open Text

/-- A number of 64 bits. -/
def lenientUInt64? (value : Json) : Option UInt64 :=
  match value.plain? with
  | some .null => some 0
  | some (.number literal) =>
      ((digits? 10 literal.toList).filter (· < Nat.pow 2 64)).map UInt64.ofNat
  | some (.string text) =>
      if text = "" then some 0
      else if Hex.hasPrefix text then count64? 16 (Hex.dropMark text.toList)
      else count64? 10 text.toList
  | _ => none

/-- A number that fits a word. -/
def lenientWord? (value : Json) : Option Word :=
  match value.plain? with
  | some .null => some 0
  | some (.number literal) => (Hex.decimalToWord literal).toOption
  | some (.string text) =>
      if text = "" then some 0
      else if Hex.hasPrefix text then (Hex.toWord text).toOption
      else (Hex.decimalToWord text).toOption
  | _ => none

/-- A text; anything else that is not null becomes its JSON text. -/
def lenientString? (value : Json) : Option String :=
  value.plain?.map fun
    | .null => ""
    | .string text => text
    | value => value.print

def asAddress? (value : Json) : Option Address := do
  let text ← value.asString?
  (Address.parse text).toOption

end ChainClient.Node
