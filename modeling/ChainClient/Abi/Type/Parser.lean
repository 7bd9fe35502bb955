import ChainClient.Abi.Error
import ChainClient.Text.Blank

/-!
# Reading types

A type is written as a name, as a tuple of types in parentheses, or as a type
with an array dimension behind it. Blanks around a type are passed over at every
depth. Whatever makes the text fail, the error quotes the innermost part that is
no type, with its blanks.
-/

namespace ChainClient.Abi.AbiType

open Text

/-- How the text of a type is put together. -/
inductive Form where
  /-- A closing bracket without an opening one. -/
  | unopened
  /-- An element type and the text between the last brackets. -/
  | dimension (element size : List Char)
  | members (texts : List (List Char))
  | name (text : List Char)

/-- A text without its last character, if that is the given one. -/
def beforeLast? (last : Char) : List Char → Option (List Char)
  | [] => none
  | [char] => if char = last then some [] else none
  | char :: rest => (beforeLast? last rest).map (char :: ·)

/-- A text split at the last opening bracket. -/
def splitAtBracket? : List Char → Option (List Char × List Char)
  | [] => none
  | char :: rest =>
      match splitAtBracket? rest with
      | some (element, size) => some (char :: element, size)
      | none => if char = '[' then some ([], rest) else none

/-- The depth of parentheses behind a character. A closing one too many is
passed over. -/
def depthAfter (depth : Nat) (char : Char) : Nat :=
  if char = '(' then depth + 1 else if char = ')' then depth - 1 else depth

/-- A text split at the commas outside parentheses: the first part, and the
others. -/
def splitAtCommas (depth : Nat) : List Char → List Char × List (List Char)
  | [] => ([], [])
  | char :: rest =>
      if char = ',' ∧ depth = 0 then
        let (first, others) := splitAtCommas 0 rest
        ([], first :: others)
      else
        let (first, others) := splitAtCommas (depthAfter depth char) rest
        (char :: first, others)

/-- The texts between the commas of a tuple's body; a blank body has none. -/
def memberTexts (body : List Char) : List (List Char) :=
  if trim body = [] then []
  else
    let (first, others) := splitAtCommas 0 body
    first :: others

/-- How the text of a type without blanks at its ends is put together. -/
def Form.of (text : List Char) : Form :=
  match beforeLast? ']' text with
  | some opened =>
      match splitAtBracket? opened with
      | none => .unopened
      | some (element, size) => .dimension element size
  | none =>
      match text with
      | '(' :: rest =>
          match beforeLast? ')' rest with
          | some body => .members (memberTexts body)
          | none => .name text
      | _ => .name text

/-- A number in decimal digits that does not start with a zero. -/
def plainCount? (digits : List Char) : Option Nat :=
  if digits.head? = some '0' then none else count? 10 sizeCount digits

/-- The width written behind the name of a number type; without one it is a
whole word. -/
def width? : List Char → Option Nat
  | [] => some 256
  | digits => (plainCount? digits).filter isWidth

/-- What stands behind the given beginning of a text. -/
def after? : (beginning text : List Char) → Option (List Char)
  | [], text => some text
  | _ :: _, [] => none
  | expected :: beginning, char :: text =>
      if expected = char then after? beginning text else none

/-- The type with a given name. -/
def named? (name : List Char) : Option AbiType :=
  if name = "bool".toList then some .bool
  else if name = "address".toList then some .address
  else if name = "string".toList then some .string
  else if name = "bytes".toList then some .bytes
  else if let some digits := after? "uint".toList name then (width? digits).map .uint
  else if let some digits := after? "int".toList name then (width? digits).map .int
  else if let some digits := after? "bytes".toList name then
    ((plainCount? digits).filter fun length => 1 ≤ length && length ≤ 32).map .fixedBytes
  else none

/-! ## The parts of a text are shorter than the text -/

theorem length_trimEnd_le (text : List Char) : (trimEnd text).length ≤ text.length := by
  induction text with
  | nil => simp [trimEnd]
  | cons char rest ih =>
    simp only [trimEnd]
    split
    · split <;> simp
    · simpa using ih

theorem length_trim_le (text : List Char) : (trim text).length ≤ text.length :=
  Nat.le_trans (length_trimEnd_le _) (List.dropWhile_suffix _).length_le

theorem length_of_beforeLast? {last : Char} {text front : List Char}
    (hfront : beforeLast? last text = some front) : text.length = front.length + 1 := by
  induction text generalizing front with
  | nil => simp [beforeLast?] at hfront
  | cons char rest ih =>
    cases rest with
    | nil =>
      simp only [beforeLast?] at hfront
      split at hfront <;> simp_all
    | cons next rest =>
      simp only [beforeLast?, Option.map_eq_some_iff] at hfront
      obtain ⟨shorter, hshorter, rfl⟩ := hfront
      simpa using ih hshorter

theorem length_of_splitAtBracket? {text element size : List Char}
    (hsplit : splitAtBracket? text = some (element, size)) :
    text.length = element.length + size.length + 1 := by
  induction text generalizing element size with
  | nil => simp [splitAtBracket?] at hsplit
  | cons char rest ih =>
    simp only [splitAtBracket?] at hsplit
    split at hsplit
    next found hfound =>
      simp only [Option.some.injEq, Prod.mk.injEq] at hsplit
      obtain ⟨rfl, rfl⟩ := hsplit
      simp [ih hfound]
      omega
    next =>
      split at hsplit <;> simp_all

theorem length_splitAtCommas (depth : Nat) (text part : List Char)
    (hpart : part = (splitAtCommas depth text).1 ∨ part ∈ (splitAtCommas depth text).2) :
    part.length ≤ text.length := by
  induction text generalizing depth part with
  | nil => simp_all [splitAtCommas]
  | cons char rest ih =>
    simp only [splitAtCommas] at hpart
    split at hpart
    · rcases hpart with rfl | hpart
      · simp
      · have := ih 0 part (by simpa using hpart)
        simp only [List.length_cons]
        omega
    · rcases hpart with rfl | hpart
      · simpa using ih _ _ (Or.inl rfl)
      · have := ih _ part (Or.inr hpart)
        simp only [List.length_cons]
        omega

theorem length_memberTexts {body part : List Char} (hpart : part ∈ memberTexts body) :
    part.length ≤ body.length := by
  simp only [memberTexts] at hpart
  split at hpart
  · simp at hpart
  · exact length_splitAtCommas 0 body part (List.mem_cons.mp hpart)

/-- The element of a dimension is shorter than the whole. -/
theorem length_of_dimension {text element size : List Char}
    (hform : Form.of text = .dimension element size) : element.length < text.length := by
  simp only [Form.of] at hform
  split at hform
  next opened hopened =>
    split at hform
    · simp at hform
    next hsplit =>
      simp only [Form.dimension.injEq] at hform
      obtain ⟨rfl, rfl⟩ := hform
      have := length_of_beforeLast? hopened
      have := length_of_splitAtBracket? hsplit
      omega
  next =>
    split at hform
    · split at hform <;> simp at hform
    · simp at hform

/-- A member of a tuple is shorter than the whole. -/
theorem length_of_members {text part : List Char} {parts : List (List Char)}
    (hform : Form.of text = .members parts) (hpart : part ∈ parts) :
    part.length < text.length := by
  simp only [Form.of] at hform
  split at hform
  · split at hform <;> simp at hform
  next =>
    split at hform
    next rest =>
      split at hform
      next body hbody =>
        simp only [Form.members.injEq] at hform
        subst hform
        have := length_of_beforeLast? hbody
        have := length_memberTexts hpart
        simp only [List.length_cons]
        omega
      · simp at hform
    · simp at hform

/-! ## Parsing -/

/-- The type with an array dimension of the given size behind its element. -/
def withDimension? (element : AbiType) (size : List Char) : Option AbiType :=
  match size with
  | [] => some (.array element)
  | digits => ((count? 10 sizeCount digits).filter (· ≠ 0)).map (.fixedArray element)

/-- The type a text denotes. An element is read before the size behind it. -/
def parseChars (text : List Char) : Except EncodeError AbiType :=
  let unsupported : EncodeError := .unsupportedType (String.ofList text)
  match hform : Form.of (trim text) with
  | .unopened => .error unsupported
  | .dimension element size => do
      have := length_of_dimension hform
      have := length_trim_le text
      let type ← parseChars element
      (withDimension? type size).elim (.error unsupported) .ok
  | .members texts => do
      let types ← texts.attach.mapM fun ⟨part, hpart⟩ =>
        have := length_of_members hform hpart
        have := length_trim_le text
        parseChars part
      .ok (.tuple types)
  | .name name => (named? name).elim (.error unsupported) .ok
termination_by text.length
decreasing_by all_goals omega

def parse (text : String) : Except EncodeError AbiType :=
  parseChars text.toList

end ChainClient.Abi.AbiType
