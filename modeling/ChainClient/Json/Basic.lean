/-!
# JSON values

A value keeps what its text said: numbers keep their digits, and objects keep
their members in order, repeated ones included.
-/

namespace ChainClient

/-- A JSON value. -/
inductive Json where
  | null
  | bool (value : Bool)
  /-- A number, by its digits. -/
  | number (literal : String)
  | string (text : String)
  | array (items : List Json)
  | object (members : List (String × Json))
  /-- A part of a document that is well formed and yet denotes nothing: a text with half a
  surrogate pair, an object with such a key, or anything nested too deeply. It can only be
  passed over. -/
  | unreadable
  deriving Repr, Inhabited

namespace Json

def member? (key : String) : Json → Option Json
  | .object members => (members.find? fun member => member.1 == key).map Prod.snd
  | _ => none

end Json

end ChainClient
