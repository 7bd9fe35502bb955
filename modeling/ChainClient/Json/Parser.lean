import ChainClient.Json.Plain
import ChainClient.Text.Hex

/-!
# Reading JSON

A document is one value between blanks. Reading is strict: no comments, no
commas at the end, no control characters in texts. Parts that are well formed
and denote nothing are kept as unreadable, because a reader that skips them need
not care. Every step takes at least one character, so the length of the text
bounds the number of steps.
-/

namespace ChainClient.Json

open Text

def depthLimit : Nat := 128

def isSpace (char : Char) : Bool :=
  char == ' ' || char == '\n' || char == '\t' || char == '\r'

def skipSpaces (text : List Char) : List Char :=
  text.dropWhile isSpace

/-! ## Numbers -/

def number? (text : List Char) : Option (Json × List Char) :=
  (numeral? text).map fun (numeral, rest) => (.number numeral.literal, rest)

/-! ## Texts -/

/-- The character of an escape with one letter. -/
def shortEscape? (letter : Char) : Option Char :=
  if letter = '\x22' then some '\x22'
  else if letter = '\\' then some '\\'
  else if letter = '/' then some '/'
  else if letter = 'b' then some '\x08'
  else if letter = 'f' then some '\x0c'
  else if letter = 'n' then some '\n'
  else if letter = 'r' then some '\r'
  else if letter = 't' then some '\t'
  else none

/-- The number that four hexadecimal digits denote. -/
def unit? (first second third fourth : Char) : Option Nat := do
  let first ← Hex.digit? first
  let second ← Hex.digit? second
  let third ← Hex.digit? third
  let fourth ← Hex.digit? fourth
  some (((first * 16 + second) * 16 + third) * 16 + fourth)

/-- A piece of a text: a character, or a UTF-16 unit given by its number. -/
inductive Piece where
  | char (char : Char)
  /-- A UTF-16 unit, which may be half a character. -/
  | unit (value : Nat)

/-- The pieces of a text up to its closing quote. -/
def pieces? : List Char → Option (List Piece × List Char)
  | [] => none
  | '\\' :: 'u' :: first :: second :: third :: fourth :: rest => do
      let value ← unit? first second third fourth
      let (pieces, rest) ← pieces? rest
      some (.unit value :: pieces, rest)
  | '\\' :: letter :: rest => do
      let char ← shortEscape? letter
      let (pieces, rest) ← pieces? rest
      some (.char char :: pieces, rest)
  | char :: rest =>
      if char = '\x22' then some ([], rest)
      else if char = '\\' ∨ char.toNat < 32 then none
      else do
        let (pieces, rest) ← pieces? rest
        some (.char char :: pieces, rest)

def isLeading (unit : Nat) : Bool := 0xd800 ≤ unit && unit < 0xdc00

def isTrailing (unit : Nat) : Bool := 0xdc00 ≤ unit && unit < 0xe000

/-- The characters that pieces denote, if no half of a character stands alone. -/
def joinPieces? : List Piece → Option (List Char)
  | [] => some []
  | .char char :: rest => (joinPieces? rest).map (char :: ·)
  | .unit leading :: .unit trailing :: rest =>
      if isLeading leading then
        if isTrailing trailing then
          let code := 0x10000 + (leading - 0xd800) * 0x400 + (trailing - 0xdc00)
          (joinPieces? rest).map (Char.ofNat code :: ·)
        else none
      else if isTrailing leading then none
      else (joinPieces? (.unit trailing :: rest)).map (Char.ofNat leading :: ·)
  | .unit unit :: rest =>
      if isLeading unit || isTrailing unit then none
      else (joinPieces? rest).map (Char.ofNat unit :: ·)

/-- A text behind its opening quote; none stands for a text with half a character. -/
def string? (text : List Char) : Option (Option String × List Char) := do
  let (pieces, rest) ← pieces? text
  some ((joinPieces? pieces).map String.ofList, rest)

/-! ## Values -/

def word? (word : List Char) (value : Json) (text : List Char) : Option (Json × List Char) :=
  if word.isPrefixOf text then some (value, text.drop word.length) else none

/-- An object, unless a key is unreadable. -/
def objectOf (members : List (Option String × Json)) : Json :=
  match members.mapM fun member => member.1.map (·, member.2) with
  | some members => .object members
  | none => .unreadable

def atDepth (depth : Nat) (value : Json) : Json :=
  if depthLimit ≤ depth then .unreadable else value

mutual

/-- A value behind blanks; `depth` counts the containers around it. -/
def value? (fuel depth : Nat) (text : List Char) : Option (Json × List Char) :=
  match fuel with
  | 0 => none
  | fuel + 1 =>
      match skipSpaces text with
      | [] => none
      | char :: rest =>
          if char = '[' then
            match skipSpaces rest with
            | ']' :: rest => some (atDepth (depth + 1) (.array []), rest)
            | _ => (items? fuel (depth + 1) rest).map fun (items, rest) =>
                (atDepth (depth + 1) (.array items), rest)
          else if char = '\x7b' then
            match skipSpaces rest with
            | '\x7d' :: rest => some (atDepth (depth + 1) (.object []), rest)
            | _ => (members? fuel (depth + 1) rest).map fun (members, rest) =>
                (atDepth (depth + 1) (objectOf members), rest)
          else if char = '\x22' then
            (string? rest).map fun (text, rest) => (text.elim .unreadable .string, rest)
          else if char = 't' then word? "true".toList (.bool true) (char :: rest)
          else if char = 'f' then word? "false".toList (.bool false) (char :: rest)
          else if char = 'n' then word? "null".toList .null (char :: rest)
          else number? (char :: rest)

/-- The items of an array up to its closing bracket. -/
def items? (fuel depth : Nat) (text : List Char) : Option (List Json × List Char) :=
  match fuel with
  | 0 => none
  | fuel + 1 => do
      let (item, rest) ← value? fuel depth text
      match skipSpaces rest with
      | ',' :: rest =>
          let (items, rest) ← items? fuel depth rest
          some (item :: items, rest)
      | ']' :: rest => some ([item], rest)
      | _ => none

/-- The members of an object up to its closing brace. -/
def members? (fuel depth : Nat) (text : List Char) :
    Option (List (Option String × Json) × List Char) :=
  match fuel with
  | 0 => none
  | fuel + 1 =>
      match skipSpaces text with
      | '\x22' :: rest => do
          let (key, rest) ← string? rest
          match skipSpaces rest with
          | ':' :: rest =>
              let (value, rest) ← value? fuel depth rest
              match skipSpaces rest with
              | ',' :: rest =>
                  let (members, rest) ← members? fuel depth rest
                  some ((key, value) :: members, rest)
              | '\x7d' :: rest => some ([(key, value)], rest)
              | _ => none
          | _ => none
      | _ => none

end

/-- The value a document denotes, with its unreadable parts. -/
def parse? (text : String) : Option Json :=
  let chars := text.toList
  match value? (2 * chars.length + 1) 0 chars with
  | some (value, rest) => if (skipSpaces rest).isEmpty then some value else none
  | none => none

def parsePlain? (text : String) : Option Json :=
  (parse? text).bind plain?

end ChainClient.Json
