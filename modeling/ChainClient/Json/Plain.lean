import ChainClient.Json.Basic
import ChainClient.Json.Numeral

/-!
# Plain values

In the plain form of a value each key occurs once and the keys are sorted. A
value without a fixed shape is read into its plain form. One key is reserved
there: as the first key of an object it says that the object stands for the
number whose digits are the text below it.
-/

namespace ChainClient.Json

/-- Members sorted by key, with one more that replaces a member of its key. -/
def insertMember (key : String) (value : Json) : List (String × Json) → List (String × Json)
  | [] => [(key, value)]
  | (other, kept) :: rest =>
      if key < other then (key, value) :: (other, kept) :: rest
      else if key = other then (key, value) :: rest
      else (other, kept) :: insertMember key value rest

def numberKey : String := "$serde_json::private::Number"

/-- Whether members are those of an object that stands for a number. -/
def marksNumber : List (String × Json) → Bool
  | (key, _) :: _ => key == numberKey
  | [] => false

/-- The number that members stand for. Nothing but its text may be there. -/
def markedNumber? : List (String × Json) → Option Json
  | [(_, .string text)] => (Numeral.parse? text).map fun numeral => .number numeral.literal
  | _ => none

mutual

/-- The plain form of a value: the last member of each key, the keys sorted. A
value with an unreadable part has none. -/
def plain? : Json → Option Json
  | .array items => (plainItems? items).map .array
  | .object members =>
      if marksNumber members then markedNumber? members
      else (plainMembers? [] members).map .object
  | .unreadable => none
  | value => some value

/-- The plain forms of several values. -/
def plainItems? : List Json → Option (List Json)
  | [] => some []
  | item :: items => do
      let item ← plain? item
      let items ← plainItems? items
      some (item :: items)

/-- Sorted members together with the plain forms of more members. -/
def plainMembers? (sorted : List (String × Json)) :
    List (String × Json) → Option (List (String × Json))
  | [] => some sorted
  | (key, value) :: rest => do
      let value ← plain? value
      plainMembers? (insertMember key value sorted) rest

end

end ChainClient.Json
