import ChainClient.Json.Basic
import ChainClient.Text.Numeral

/-!
# Reading records

A record is written as an object, whose unknown members are passed over, or as
an array of its fields in the order of their declaration. A field that occurs
twice makes the record unreadable. What a missing field means depends on the
field; an array that stops early supplies defaults but no optional values.
-/

namespace ChainClient.Json

open Text

/-- Whether a record is written with or without the names of its fields. -/
inductive RecordForm where
  | named
  | positional
  deriving DecidableEq, Repr

/-- The fields of a record as they are written. -/
structure Record where
  form : RecordForm
  fields : List (String × Json)

/-- Whether a name occurs more than once among the given keys. -/
def occursTwice (members : List (String × Json)) (name : String) : Bool :=
  1 < (members.filter fun member => member.1 == name).length

/-- The record with the given fields, in the order of their declaration. -/
def record? (names : List String) : Json → Option Record
  | .object members =>
      if names.any (occursTwice members) then none
      else some ⟨.named, members.filter fun member => names.contains member.1⟩
  | .array items =>
      if names.length < items.length then none else some ⟨.positional, names.zip items⟩
  | _ => none

namespace Record

def field? (record : Record) (name : String) : Option Json :=
  (record.fields.find? fun field => field.1 == name).map Prod.snd

def required {α : Type} (record : Record) (name : String) (read : Json → Option α) : Option α :=
  (record.field? name).bind read

/-- A field that has a default. -/
def withDefault {α : Type} (record : Record) (name : String) (default : α)
    (read : Json → Option α) : Option α :=
  match record.field? name with
  | none => some default
  | some value => read value

/-- A field whose absence from an object means that there is no value. -/
def optional {α : Type} (record : Record) (name : String) (read : Json → Option (Option α)) :
    Option (Option α) :=
  match record.field? name with
  | none => if record.form = .named then some none else none
  | some value => read value

end Record

/-! ## Reading fields -/

def asString? : Json → Option String
  | .string text => some text
  | _ => none

def asBool? : Json → Option Bool
  | .bool value => some value
  | _ => none

/-- A whole number below a limit. A sign, a fraction, or an exponent is refused. -/
def asCount? (limit : Nat) : Json → Option Nat
  | .number literal => (digits? 10 literal.toList).filter (· < limit)
  | _ => none

def asUInt64? (value : Json) : Option UInt64 :=
  (value.asCount? (Nat.pow 2 64)).map UInt64.ofNat

def asUInt32? (value : Json) : Option UInt32 :=
  (value.asCount? (Nat.pow 2 32)).map UInt32.ofNat

/-- An integer that fits 64 bits with a sign. Zero has none. -/
def asInt64? : Json → Option Int64
  | .number literal =>
      match literal.toList with
      | '-' :: digits =>
          ((digits? 10 digits).filter fun number => 0 < number ∧ number ≤ Nat.pow 2 63).map
            fun number => Int64.ofInt (-(number : Int))
      | digits =>
          ((digits? 10 digits).filter (· < Nat.pow 2 63)).map fun number => Int64.ofInt number
  | _ => none

def nullable {α : Type} (read : Json → Option α) : Json → Option (Option α)
  | .null => some none
  | value => (read value).map some

def listOf {α : Type} (read : Json → Option α) : Json → Option (List α)
  | .array items => items.mapM read
  | _ => none

def listOrNull {α : Type} (read : Json → Option α) : Json → Option (List α)
  | .null => some []
  | value => value.listOf read

/-- One of a list of names, given as a text or as an object with that name as
its only key and null as its value. -/
def choice? {α : Type} (choices : List (String × α)) : Json → Option α
  | .string name => (choices.find? fun choice => choice.1 == name).map Prod.snd
  | .object [(name, .null)] => (choices.find? fun choice => choice.1 == name).map Prod.snd
  | _ => none

end ChainClient.Json
