import ChainClient.Node.Lenient
import ChainClient.Proofs.Json.Literal

/-!
# Lenient numbers

A number of a node is null, empty, a literal, decimal digits, or hexadecimal digits behind a
mark. Whatever is written so is read as the number it denotes, as long as that fits. The two
readers accept more: a word may be broken up by underscores, a number of 64 bits may have a
plus sign, and an object may stand for a literal.
-/

namespace ChainClient.Node

open Text

/-- The value writes the number, its digits given by what counts as a run of them in a radix. -/
inductive Writes (run : Nat → List Char → Nat → Prop) : Json → Nat → Prop where
  | null : Writes run .null 0
  | empty : Writes run (.string "") 0
  | literal (number : Nat) : Writes run (.number (toString number)) number
  | decimal {text : String} {number : Nat} (hdigits : run 10 text.toList number) :
      Writes run (.string text) number
  | hexadecimal {text : String} {digits : List Char} {number : Nat}
      (htext : text.toList = '0' :: 'x' :: digits ∨ text.toList = '0' :: 'X' :: digits)
      (hdigits : run 16 digits number) : Writes run (.string text) number

/-- The value is an object that stands for the literal of the number. -/
def StandsFor (value : Json) (number : Nat) : Prop :=
  value = .object [(Json.numberKey, .string (toString number))]

/-! ## Marked texts -/

theorem hasMark_iff {text : List Char} :
    Hex.hasMark text = true ↔
      text = '0' :: 'x' :: Hex.dropMark text ∨ text = '0' :: 'X' :: Hex.dropMark text := by
  constructor
  · intro hmark
    unfold Hex.hasMark at hmark
    split at hmark
    next => exact .inl rfl
    next => exact .inr rfl
    next => cases hmark
  · rintro (htext | htext) <;> rw [htext] <;> rfl

theorem isForeign_of_hasMark {text : List Char} (hmark : Hex.hasMark text = true) :
    Json.IsForeign text := by
  obtain htext | htext := hasMark_iff.mp hmark
  · exact ⟨'x', by rw [htext]; simp, by decide, by decide⟩
  · exact ⟨'X', by rw [htext]; simp, by decide, by decide⟩

/-- What counts as a run of digits such that decimal digits are no empty text and have no
hexadecimal mark in front. -/
structure IsRun (run : Nat → List Char → Nat → Prop) : Prop where
  nonempty {text : List Char} {number : Nat} (hdigits : run 10 text number) : text ≠ []
  unmarked {text : List Char} {number : Nat} (hdigits : run 10 text number) :
    Hex.hasMark text = false

theorem isRun_isBroken : IsRun IsBroken where
  nonempty hdigits := hdigits.1
  unmarked hdigits := by
    rw [← Bool.not_eq_true]
    exact fun hmark => Json.isDecimal_isBroken.foreign (isForeign_of_hasMark hmark) hdigits

theorem isRun_isNumeral : IsRun IsNumeral where
  nonempty hdigits := hdigits.1
  unmarked hdigits := isRun_isBroken.unmarked (hdigits.isBroken (by decide))

theorem isRun_isSigned : IsRun IsSigned where
  nonempty := by
    rintro text number (hdigits | ⟨digits, rfl, -⟩)
    · exact hdigits.1
    · exact List.cons_ne_nil _ _
  unmarked := by
    rintro text number (hdigits | ⟨digits, rfl, -⟩)
    · exact isRun_isNumeral.unmarked hdigits
    · rfl

/-! ## What writes a number -/

section Writes

variable {run : Nat → List Char → Nat → Prop} {number : Nat}

theorem Writes.mono {other : Nat → List Char → Nat → Prop} {value : Json}
    (himp : ∀ {radix digits number}, radix ≤ 16 → run radix digits number →
      other radix digits number)
    (hvalue : Writes run value number) : Writes other value number := by
  cases hvalue with
  | null => exact .null
  | empty => exact .empty
  | literal => exact .literal number
  | decimal hdigits => exact .decimal (himp (by decide) hdigits)
  | hexadecimal htext hdigits => exact .hexadecimal htext (himp (by decide) hdigits)

theorem writes_null_iff : Writes run .null number ↔ number = 0 := by
  constructor
  · rintro ⟨⟩
    rfl
  · rintro rfl
    exact .null

theorem writes_number_iff {literal : String} :
    Writes run (.number literal) number ↔ literal = toString number := by
  constructor
  · rintro ⟨⟩
    rfl
  · rintro rfl
    exact .literal number

/-- A text writes a number if it is empty, if it has a mark in front of its digits, or if it
consists of them. -/
theorem writes_string_iff (hrun : IsRun run) {text : String} :
    Writes run (.string text) number ↔
      if text = "" then number = 0
      else if Hex.hasPrefix text then run 16 (Hex.dropMark text.toList) number
      else run 10 text.toList number := by
  have hmark (digits : List Char)
      (htext : text.toList = '0' :: 'x' :: digits ∨ text.toList = '0' :: 'X' :: digits) :
      text ≠ "" ∧ Hex.hasPrefix text = true ∧ Hex.dropMark text.toList = digits := by
    have hsame : Hex.hasPrefix text = Hex.hasMark text.toList := rfl
    rw [hsame, ne_eq, ← String.toList_inj]
    obtain htext | htext := htext <;> rw [htext] <;> exact ⟨List.cons_ne_nil _ _, rfl, rfl⟩
  constructor
  · intro hvalue
    cases hvalue with
    | empty => rw [if_pos rfl]
    | decimal hdigits =>
        have hnonempty : text ≠ "" := by
          rintro rfl
          exact hrun.nonempty hdigits rfl
        have hunmarked : Hex.hasPrefix text = false := hrun.unmarked hdigits
        rwa [if_neg hnonempty, if_neg (by simp [hunmarked])]
    | hexadecimal htext hdigits =>
        obtain ⟨hnonempty, hmarked, hdrop⟩ := hmark _ htext
        rwa [if_neg hnonempty, if_pos hmarked, hdrop]
  · intro hvalue
    split at hvalue
    next hempty =>
      rw [hempty, hvalue]
      exact .empty
    next =>
      split at hvalue
      next hmarked => exact .hexadecimal (hasMark_iff.mp hmarked) hvalue
      next => exact .decimal hvalue

end Writes

/-! ## Readers -/

/-- A reader of numbers that is lenient. It reads the plain form of a value: texts write
numbers in runs of digits, literals are read in decimal, and nothing else but null is read. -/
structure IsLenient {α : Type} (run : Nat → List Char → Nat → Prop)
    (reads : List Char → Nat → Prop) (toNat : α → Nat) (read : Json → Option α) : Prop where
  decimal : Json.IsDecimal reads
  congr {first second : Json} (hplain : first.plain? = second.plain?) : read first = read second
  null {result : α} : read .null = some result ↔ toNat result = 0
  number {literal : String} {result : α} :
    read (.number literal) = some result ↔ reads literal.toList (toNat result)
  string {text : String} {result : α} :
    read (.string text) = some result ↔ Writes run (.string text) (toNat result)
  bool (flag : Bool) : read (.bool flag) = none
  array {value : Json} {items : List Json} (hplain : value.plain? = some (.array items)) :
    read value = none
  object {value : Json} {members : List (String × Json)}
    (hplain : value.plain? = some (.object members)) : read value = none
  unreadable : read .unreadable = none

/-- A marked number is a literal. -/
theorem markedNumber?_cases (members : List (String × Json)) :
    Json.markedNumber? members = none ∨
      ∃ literal, Json.markedNumber? members = some (.number literal) := by
  unfold Json.markedNumber?
  split
  next key text =>
    cases Json.Numeral.parse? text with
    | none => exact .inl rfl
    | some numeral => exact .inr ⟨numeral.literal, rfl⟩
  next => exact .inl rfl

namespace IsLenient

variable {α : Type} {run : Nat → List Char → Nat → Prop} {reads : List Char → Nat → Prop}
  {toNat : α → Nat} {read : Json → Option α}

theorem eq_none_of_plain? (hread : IsLenient run reads toNat read) {value : Json}
    (hplain : value.plain? = none) : read value = none := by
  rw [← hread.unreadable]
  exact hread.congr hplain

theorem read_array (hread : IsLenient run reads toNat read) (items : List Json) :
    read (.array items) = none := by
  cases hplain : Json.plainItems? items with
  | none => exact hread.eq_none_of_plain? (by rw [Json.plain?, hplain, Option.map_none])
  | some others => exact hread.array (by rw [Json.plain?, hplain, Option.map_some])

/-- Of objects only those are read that are marked as literals. -/
theorem read_object (hread : IsLenient run reads toNat read) (members : List (String × Json)) :
    read (.object members) =
      if Json.marksNumber members then (Json.markedNumber? members).bind read else none := by
  split
  next hmarks =>
    have hplain : (Json.object members).plain? = Json.markedNumber? members := by
      rw [Json.plain?, if_pos hmarks]
    obtain hnone | ⟨literal, hliteral⟩ := markedNumber?_cases members
    · rw [hnone, hread.eq_none_of_plain? (hplain.trans hnone), Option.bind_none]
    · rw [hliteral, Option.bind_some]
      exact hread.congr (hplain.trans hliteral)
  next hmarks =>
    cases hmembers : Json.plainMembers? [] members with
    | none =>
        refine hread.eq_none_of_plain? ?_
        rw [Json.plain?, if_neg hmarks, hmembers, Option.map_none]
    | some sorted =>
        have hplain : (Json.object members).plain? = some (.object sorted) := by
          rw [Json.plain?, if_neg hmarks, hmembers, Option.map_some]
        exact hread.object hplain

/-- An object is read as the number that it stands for. -/
theorem object_eq_some_iff (hread : IsLenient run reads toNat read)
    {members : List (String × Json)} {result : α} :
    read (.object members) = some result ↔ StandsFor (.object members) (toNat result) := by
  rw [hread.read_object, StandsFor, Json.object.injEq]
  constructor
  · intro hmarked
    split at hmarked
    next hmarks =>
      obtain ⟨value, hvalue, hresult⟩ := Option.bind_eq_some_iff.mp hmarked
      unfold Json.markedNumber? at hvalue
      split at hvalue
      next key text =>
        obtain rfl : key = Json.numberKey := beq_iff_eq.mp hmarks
        obtain ⟨numeral, hparse, rfl⟩ := Option.map_eq_some_iff.mp hvalue
        rw [(hread.decimal.rewritten_iff hparse).mp (hread.number.mp hresult)]
      next => cases hvalue
    next => cases hmarked
  · rintro rfl
    rw [if_pos (by rfl), Json.markedNumber?, Json.parse?_toString_nat, Option.map_some,
      Option.bind_some, hread.number, Json.toList_literal_written, hread.decimal.written]

/-- A value is read as a number exactly if it writes it or stands for it. -/
theorem eq_some_iff (hread : IsLenient run reads toNat read) {value : Json}
    (hliteral : ∀ literal, value = .number literal →
      ∃ numeral, Json.Numeral.parse? literal = some numeral) {result : α} :
    read value = some result ↔
      Writes run value (toNat result) ∨ StandsFor value (toNat result) := by
  cases value with
  | null => rw [hread.null, or_iff_left (by rintro ⟨⟩), writes_null_iff]
  | number literal =>
      obtain ⟨numeral, hparse⟩ := hliteral literal rfl
      rw [hread.number, hread.decimal.literal_iff hparse, writes_number_iff,
        or_iff_left (by rintro ⟨⟩)]
  | string text => rw [hread.string, or_iff_left (by rintro ⟨⟩)]
  | object members => rw [hread.object_eq_some_iff, or_iff_right (by rintro ⟨⟩)]
  | bool flag =>
      rw [hread.bool]
      exact iff_of_false (by rintro ⟨⟩) (by rintro (⟨⟨⟩⟩ | ⟨⟨⟩⟩))
  | array items =>
      rw [hread.read_array]
      exact iff_of_false (by rintro ⟨⟩) (by rintro (⟨⟨⟩⟩ | ⟨⟨⟩⟩))
  | unreadable =>
      rw [hread.unreadable]
      exact iff_of_false (by rintro ⟨⟩) (by rintro (⟨⟨⟩⟩ | ⟨⟨⟩⟩))

/-- A literal that is settled first is read as what it settles as. -/
theorem settled_eq_some_iff (hread : IsLenient run reads toNat read) {literal : String}
    {numeral : Json.Numeral} (hparse : Json.Numeral.parse? literal = some numeral) {result : α} :
    read (Json.settled (.number literal)) = some result ↔
      Json.SettlesAs literal numeral (toNat result) := by
  have hsettled : Json.settled (.number literal) = .number numeral.settled := by
    rw [Json.settled, hparse]
  rw [hsettled, hread.number, hread.decimal.settled_iff hparse]

end IsLenient

/-! ## Words -/

theorem toOption_decimalToWord_eq_some_iff {text : String} {word : Word} :
    (Hex.decimalToWord text).toOption = some word ↔ IsBroken 10 text.toList word.toNat := by
  rw [IsBroken, ← wordNumeral?_eq_some_iff (by decide), Hex.decimalToWord]
  split
  next hempty => simp [hempty, Except.toOption]
  next hnonempty =>
    rw [and_iff_right (fun hempty => hnonempty hempty)]
    cases wordNumeral? 10 text.toList <;> simp [Except.toOption]

theorem toOption_toWord_eq_some_iff {text : String} {word : Word} :
    (Hex.toWord text).toOption = some word ↔
      IsBroken 16 (Hex.dropMark text.toList) word.toNat := by
  rw [IsBroken, ← wordNumeral?_eq_some_iff (by decide), Hex.toWord]
  split
  next hempty => simp [hempty, Except.toOption]
  next hnonempty =>
    rw [and_iff_right (fun hempty => hnonempty hempty)]
    cases wordNumeral? 16 (Hex.dropMark text.toList) <;> simp [Except.toOption]

/-- Words are read from digits that underscores may break up. -/
theorem isLenient_lenientWord? : IsLenient IsBroken (IsBroken 10) BitVec.toNat lenientWord? where
  decimal := Json.isDecimal_isBroken
  congr hplain := by rw [lenientWord?, hplain, lenientWord?]
  null {result} := by
    change some 0 = some result ↔ result.toNat = 0
    rw [Option.some.injEq, eq_comm, ← BitVec.toNat_inj]
    rfl
  bool _ := rfl
  number := toOption_decimalToWord_eq_some_iff
  string {text result} := by
    rw [writes_string_iff isRun_isBroken]
    simp only [lenientWord?, Json.plain?]
    split
    next =>
      rw [Option.some.injEq, eq_comm, ← BitVec.toNat_inj]
      rfl
    next =>
      split
      next => exact toOption_toWord_eq_some_iff
      next => exact toOption_decimalToWord_eq_some_iff
  array hplain := by rw [lenientWord?, hplain]
  object hplain := by rw [lenientWord?, hplain]
  unreadable := rfl

/-! ## Numbers of 64 bits -/

/-- Numbers of 64 bits are read from digits that may have a plus sign in front. -/
theorem isLenient_lenientUInt64? :
    IsLenient IsSigned (IsNumeral 10) UInt64.toNat lenientUInt64? where
  decimal := Json.isDecimal_isNumeral
  congr hplain := by rw [lenientUInt64?, hplain, lenientUInt64?]
  null {result} := by
    change some 0 = some result ↔ result.toNat = 0
    rw [Option.some.injEq, eq_comm, ← UInt64.toNat_inj]
    rfl
  bool _ := rfl
  number {literal result} := by
    rw [← digits?_eq_some_iff (by decide)]
    exact map_ofNat_filter_eq_some_iff
  string {text result} := by
    rw [writes_string_iff isRun_isSigned]
    simp only [lenientUInt64?, Json.plain?]
    split
    next =>
      rw [Option.some.injEq, eq_comm, ← UInt64.toNat_inj]
      rfl
    next =>
      split
      next => exact count64?_eq_some_iff (by decide)
      next => exact count64?_eq_some_iff (by decide)
  array hplain := by rw [lenientUInt64?, hplain]
  object hplain := by rw [lenientUInt64?, hplain]
  unreadable := rfl

/-! ## Both readers -/

/-- What the two readers of numbers accept. Every number that is written in one of the ways
that nodes have is read as itself as long as it fits, and besides: digits of words may be broken
up by underscores, those of numbers of 64 bits may have a plus sign in front, and an object may
stand for a literal. A literal within another value is settled before it is read. -/
theorem lenient_eq_some_iff {value : Json}
    (hliteral : ∀ literal, value = .number literal →
      ∃ numeral, Json.Numeral.parse? literal = some numeral) :
    (∀ word, lenientWord? value = some word ↔
      Writes IsBroken value word.toNat ∨ StandsFor value word.toNat) ∧
    (∀ count, lenientUInt64? value = some count ↔
      Writes IsSigned value count.toNat ∨ StandsFor value count.toNat) ∧
    (∀ number, Writes IsNumeral value number →
      (number < 2 ^ 256 → lenientWord? value = some (.ofNat 256 number)) ∧
      (number < 2 ^ 64 → lenientUInt64? value = some (.ofNat number))) ∧
    ∀ literal numeral, value = .number literal →
      Json.Numeral.parse? literal = some numeral →
      (∀ word, lenientWord? value.settled = some word ↔
        Json.SettlesAs literal numeral word.toNat) ∧
      ∀ count, lenientUInt64? value.settled = some count ↔
        Json.SettlesAs literal numeral count.toNat := by
  have hword (word : Word) : lenientWord? value = some word ↔
      Writes IsBroken value word.toNat ∨ StandsFor value word.toNat :=
    isLenient_lenientWord?.eq_some_iff hliteral
  have hcount (count : UInt64) : lenientUInt64? value = some count ↔
      Writes IsSigned value count.toNat ∨ StandsFor value count.toNat :=
    isLenient_lenientUInt64?.eq_some_iff hliteral
  refine ⟨hword, hcount, fun number hvalue => ⟨fun hbound => ?_, fun hbound => ?_⟩, ?_⟩
  · refine (hword _).mpr (.inl ?_)
    rw [BitVec.toNat_ofNat, Nat.mod_eq_of_lt hbound]
    exact hvalue.mono fun hradix hdigits => hdigits.isBroken hradix
  · refine (hcount _).mpr (.inl ?_)
    rw [UInt64.toNat_ofNat_of_lt' hbound]
    exact hvalue.mono fun _ hdigits => hdigits.isSigned
  · rintro literal numeral rfl hparse
    exact ⟨fun _ => isLenient_lenientWord?.settled_eq_some_iff hparse,
      fun _ => isLenient_lenientUInt64?.settled_eq_some_iff hparse⟩

/-- A literal of forty digits is read as a word and as no number of 64 bits. Within another
value it is not read at all, as it is the shortest decimal of a number in 64 bits. -/
theorem lenient_eq_some_iff_large :
    let literal := toString (10 ^ 39)
    let value := Json.number literal
    Json.Numeral.parse? literal = some ⟨false, Nat.toDigits 10 (10 ^ 39), [], []⟩ ∧
      lenientWord? value = some (.ofNat 256 (10 ^ 39)) ∧
      (∀ count, lenientUInt64? value ≠ some count) ∧
      ∀ word, lenientWord? value.settled ≠ some word := by
  intro literal value
  have hparse := Json.parse?_toString_nat (10 ^ 39)
  have hlarge : Json.Numeral.binary64? ⟨false, Nat.toDigits 10 (10 ^ 39), [], []⟩ ≠ none := by
    decide +kernel
  have hliteral : ∀ other, value = .number other →
      ∃ numeral, Json.Numeral.parse? other = some numeral := by
    intro other hother
    rw [← Json.number.inj hother]
    exact ⟨_, hparse⟩
  obtain ⟨-, hcount, hwritten, hsettled⟩ := lenient_eq_some_iff hliteral
  obtain ⟨hword, -⟩ := hwritten _ (.literal (10 ^ 39))
  refine ⟨hparse, hword (by decide), fun count hread => ?_, fun word hread => ?_⟩
  · obtain hwrites | hstands := (hcount count).mp hread
    · have hbound := count.toNat_lt
      have hnumber := Json.toString_inj.mp (writes_number_iff.mp hwrites)
      omega
    · change Json.number literal = .object _ at hstands
      cases hstands
  · obtain ⟨hnumber, hnarrow⟩ :=
      Json.settlesAs_toString_iff.mp (((hsettled _ _ rfl hparse).1 word).mp hread)
    obtain hsmall | hnone := hnarrow
    · omega
    · exact hlarge hnone

/-- An underscore in a word and a plus sign in a number of 64 bits are accepted, though no
numeral has them, and a literal within another value is refused. -/
theorem lenient_ne_written :
    (lenientWord? (.string "1_0") = some 10 ∧ ¬ Writes IsNumeral (.string "1_0") 10) ∧
    (lenientUInt64? (.string "+7") = some 7 ∧ ¬ Writes IsNumeral (.string "+7") 7) ∧
    (Writes IsNumeral (.number (toString (10 ^ 39))) (10 ^ 39) ∧
      lenientWord? (Json.settled (.number (toString (10 ^ 39)))) = none) := by
  have hforeign {text : String} {number : Nat} (htext : text ≠ "" ∧ Hex.hasPrefix text = false)
      (hdigits : digits? 10 text.toList = none) : ¬ Writes IsNumeral (.string text) number := by
    rw [writes_string_iff isRun_isNumeral, if_neg htext.1, if_neg (by simp [htext.2]),
      ← digits?_eq_some_iff (by decide), hdigits]
    rintro ⟨⟩
  exact ⟨⟨by decide +kernel, hforeign (by decide) (by decide)⟩,
    ⟨by decide +kernel, hforeign (by decide) (by decide)⟩, .literal _, by decide +kernel⟩

end ChainClient.Node
