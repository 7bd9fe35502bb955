import ChainClient.Json.Basic

/-!
# Writing JSON

Values are written without blanks. In a text only quotes, backslashes, and
control characters are escaped.
-/

namespace ChainClient.Json

def controlDigit (value : Nat) : Char :=
  if value < 10 then Char.ofNat (48 + value) else Char.ofNat (87 + value)

/-- One character as it stands in a text. -/
def escaped (char : Char) : List Char :=
  if char = '\x22' then ['\\', '\x22']
  else if char = '\\' then ['\\', '\\']
  else if char = '\x08' then ['\\', 'b']
  else if char = '\x0c' then ['\\', 'f']
  else if char = '\n' then ['\\', 'n']
  else if char = '\r' then ['\\', 'r']
  else if char = '\t' then ['\\', 't']
  else if char.toNat < 32 then
    ['\\', 'u', '0', '0', controlDigit (char.toNat / 16), controlDigit (char.toNat % 16)]
  else [char]

def printString (text : String) : List Char :=
  '\x22' :: text.toList.flatMap escaped ++ ['\x22']

mutual

/-- The characters of a value. An unreadable value is written as null. -/
def chars : Json → List Char
  | .null => "null".toList
  | .bool true => "true".toList
  | .bool false => "false".toList
  | .number literal => literal.toList
  | .string text => printString text
  | .array items => '[' :: itemChars items ++ [']']
  | .object members => '\x7b' :: memberChars members ++ ['\x7d']
  | .unreadable => "null".toList

/-- The characters of several values, with commas between them. -/
def itemChars : List Json → List Char
  | [] => []
  | [item] => chars item
  | item :: items => chars item ++ ',' :: itemChars items

/-- The characters of several members, with commas between them. -/
def memberChars : List (String × Json) → List Char
  | [] => []
  | [(key, value)] => printString key ++ ':' :: chars value
  | (key, value) :: members => printString key ++ ':' :: chars value ++ ',' :: memberChars members

end

def print (value : Json) : String :=
  String.ofList value.chars

end ChainClient.Json
