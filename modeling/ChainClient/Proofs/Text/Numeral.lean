import Mathlib.Data.Nat.Digits.Defs
import Mathlib.Data.List.Forall2
import ChainClient.Proofs.Text.Digits
import ChainClient.Proofs.Text.Spelling

/-!
# Numerals and the numbers they denote

A numeral is one or more digits, letters among them in either case. The two ways of reading
numbers accept more than numerals: a word numeral may be broken up by underscores, also where
nothing else is left, and a count may have a plus sign.
-/

namespace ChainClient.Text

/-- The character is the digit of the value in a radix, in either case. -/
def IsDigitOf (radix : Nat) (char : Char) (value : Nat) : Prop :=
  value < radix ∧ char.toLower = Nat.digitChar value

/-- The characters are the digits of the number, the first of them counting most. -/
def Denotes (radix : Nat) (chars : List Char) (number : Nat) : Prop :=
  ∃ values, List.Forall₂ (IsDigitOf radix) chars values ∧
    Nat.ofDigits radix values.reverse = number

/-- One or more digits that denote the number. -/
def IsNumeral (radix : Nat) (chars : List Char) (number : Nat) : Prop :=
  chars ≠ [] ∧ Denotes radix chars number

/-- Digits broken up by underscores. Nothing but underscores denotes zero. -/
def IsBroken (radix : Nat) (chars : List Char) (number : Nat) : Prop :=
  chars ≠ [] ∧ Denotes radix (chars.filter (· ≠ '_')) number

/-- A numeral that may have a plus sign in front. -/
def IsSigned (radix : Nat) (chars : List Char) (number : Nat) : Prop :=
  IsNumeral radix chars number ∨ ∃ digits, chars = '+' :: digits ∧ IsNumeral radix digits number

/-! ## Single digits -/

theorem digitChar_eq {value : Nat} (hvalue : value < 16) :
    Hex.digitChar value = Nat.digitChar value := by
  have hall : ∀ value < 16, Hex.digitChar value = Nat.digitChar value := by decide
  exact hall value hvalue

theorem digitInRadix?_eq_some_iff {radix : Nat} (hradix : radix ≤ 16) {char : Char}
    {value : Nat} : digitInRadix? radix char = some value ↔ IsDigitOf radix char value := by
  have hhex := @Hex.digit?_eq_some_iff char value
  rw [Hex.digit?, digitInRadix?, Option.filter_eq_some_iff, decide_eq_true_eq] at hhex
  rw [digitInRadix?, Option.filter_eq_some_iff, decide_eq_true_eq, IsDigitOf]
  constructor
  · rintro ⟨hdigit, hvalue⟩
    obtain ⟨hbound, hchar⟩ := hhex.mp ⟨hdigit, by omega⟩
    exact ⟨hvalue, by rw [hchar, digitChar_eq hbound]⟩
  · rintro ⟨hvalue, hchar⟩
    exact ⟨(hhex.mpr ⟨by omega, by rw [hchar, digitChar_eq (by omega)]⟩).1, hvalue⟩

/-! ## Runs of digits -/

/-- Digits are read as what they denote behind the number in front of them. -/
theorem digitsFrom?_eq_some_iff {radix : Nat} (hradix : radix ≤ 16) {total number : Nat}
    {chars : List Char} :
    digitsFrom? radix total chars = some number ↔
      ∃ values, List.Forall₂ (IsDigitOf radix) chars values ∧
        total * radix ^ chars.length + Nat.ofDigits radix values.reverse = number := by
  induction chars generalizing total with
  | nil => simp [digitsFrom?]
  | cons char rest ih =>
      simp only [digitsFrom?, bind, Option.bind_eq_some_iff, digitInRadix?_eq_some_iff hradix, ih]
      have hvalue {value : Nat} {values : List Nat}
          (hvalues : List.Forall₂ (IsDigitOf radix) rest values) :
          (total * radix + value) * radix ^ rest.length + Nat.ofDigits radix values.reverse =
            total * radix ^ (rest.length + 1) + Nat.ofDigits radix (value :: values).reverse := by
        rw [List.reverse_cons, Nat.ofDigits_append, Nat.ofDigits_singleton, List.length_reverse,
          ← hvalues.length_eq]
        ring
      constructor
      · rintro ⟨value, hchar, values, hvalues, rfl⟩
        exact ⟨value :: values, .cons hchar hvalues, (hvalue hvalues).symm⟩
      · rintro ⟨_, _ | ⟨hchar, hvalues⟩, rfl⟩
        exact ⟨_, hchar, _, hvalues, hvalue hvalues⟩

theorem digitsFrom?_zero_eq_some_iff {radix : Nat} (hradix : radix ≤ 16) {number : Nat}
    {chars : List Char} :
    digitsFrom? radix 0 chars = some number ↔ Denotes radix chars number := by
  simp only [digitsFrom?_eq_some_iff hradix, Nat.zero_mul, Nat.zero_add, Denotes]

theorem digits?_eq_some_iff {radix : Nat} (hradix : radix ≤ 16) {number : Nat}
    {chars : List Char} : digits? radix chars = some number ↔ IsNumeral radix chars number := by
  cases chars with
  | nil => simp [digits?, IsNumeral]
  | cons char rest =>
      rw [digits?, digitsFrom?_zero_eq_some_iff hradix, IsNumeral]
      · simp
      · simp

/-- Characters that denote a number are digits, in decimal the usual ones. -/
theorem isDigit_of_denotes {number : Nat} {chars : List Char}
    (hchars : Denotes 10 chars number) : ∀ char ∈ chars, char.isDigit = true := by
  rw [← digitsFrom?_zero_eq_some_iff (by decide), digitsFrom?_ten_eq_some_iff] at hchars
  exact hchars.1

/-- A character that is no digit in radix 16 is none of the digits of a number. -/
theorem not_mem_of_denotes {radix number : Nat} (hradix : radix ≤ 16) {chars : List Char}
    (hchars : Denotes radix chars number) {char : Char} (hchar : digitInRadix? 16 char = none) :
    char ∉ chars := by
  obtain ⟨values, hvalues, -⟩ := hchars
  induction hvalues with
  | nil => exact List.not_mem_nil
  | cons hdigit _ ih =>
      rintro (_ | ⟨_, hmem⟩)
      · rw [(digitInRadix?_eq_some_iff (Nat.le_refl 16)).mpr ⟨by have := hdigit.1; omega, hdigit.2⟩]
          at hchar
        cases hchar
      · exact ih hmem

theorem isNumeral_toDigits (number : Nat) : IsNumeral 10 (Nat.toDigits 10 number) number :=
  (digits?_eq_some_iff (by decide)).mp (digits?_toDigits number)

theorem Denotes.unique {radix first second : Nat} {chars : List Char} (hradix : radix ≤ 16)
    (hfirst : Denotes radix chars first) (hsecond : Denotes radix chars second) :
    first = second := by
  rw [← digitsFrom?_zero_eq_some_iff hradix] at hfirst hsecond
  exact Option.some.inj (hfirst.symm.trans hsecond)

/-! ## What more is accepted -/

theorem filter_eq_self {radix number : Nat} {chars : List Char} (hradix : radix ≤ 16)
    (hchars : Denotes radix chars number) : chars.filter (· ≠ '_') = chars := by
  rw [List.filter_eq_self]
  intro char hchar
  rw [decide_eq_true_eq]
  rintro rfl
  exact not_mem_of_denotes hradix hchars (by decide) hchar

theorem IsNumeral.isBroken {radix number : Nat} {chars : List Char} (hradix : radix ≤ 16)
    (hchars : IsNumeral radix chars number) : IsBroken radix chars number := by
  obtain ⟨hnonempty, hdenotes⟩ := hchars
  refine ⟨hnonempty, ?_⟩
  rwa [filter_eq_self hradix hdenotes]

theorem IsNumeral.isSigned {radix number : Nat} {chars : List Char}
    (hchars : IsNumeral radix chars number) : IsSigned radix chars number :=
  .inl hchars

/-- A word is read from the digits that denote it, broken up by underscores. -/
theorem wordNumeral?_eq_some_iff {radix : Nat} (hradix : radix ≤ 16) {chars : List Char}
    {word : Word} :
    wordNumeral? radix chars = some word ↔
      Denotes radix (chars.filter (· ≠ '_')) word.toNat := by
  have hword := word.isLt
  simp only [wordNumeral?, bind, Option.bind_eq_some_iff, digitsFrom?_zero_eq_some_iff hradix]
  constructor
  · rintro ⟨number, hnumber, hvalue⟩
    split at hvalue
    next hbound =>
      obtain rfl := Option.some.inj hvalue
      rwa [BitVec.toNat_ofNat, Nat.mod_eq_of_lt hbound]
    next => cases hvalue
  · intro hdenotes
    exact ⟨word.toNat, hdenotes, by rw [if_pos hword, BitVec.ofNat_toNat, BitVec.setWidth_eq]⟩

theorem map_ofNat_filter_eq_some_iff {number : Option Nat} {count : UInt64} :
    (number.filter (· < Nat.pow 2 64)).map UInt64.ofNat = some count ↔
      number = some count.toNat := by
  have hcount := count.toNat_lt
  rw [Option.map_eq_some_iff]
  constructor
  · rintro ⟨value, hvalue, rfl⟩
    obtain ⟨hnumber, hbound⟩ := Option.filter_eq_some_iff.mp hvalue
    rwa [UInt64.toNat_ofNat_of_lt' (of_decide_eq_true hbound)]
  · intro hnumber
    exact ⟨count.toNat, Option.filter_eq_some_iff.mpr ⟨hnumber, decide_eq_true hcount⟩,
      UInt64.ofNat_toNat⟩

/-- A count is read from a numeral that may have a plus sign. -/
theorem count64?_eq_some_iff {radix : Nat} (hradix : radix ≤ 16) {chars : List Char}
    {count : UInt64} : count64? radix chars = some count ↔ IsSigned radix chars count.toNat := by
  rw [count64?, count?, map_ofNat_filter_eq_some_iff, digits?_eq_some_iff hradix, IsSigned]
  constructor
  · intro hnumeral
    unfold countDigits at hnumeral
    split at hnumeral
    next digits => exact .inr ⟨digits, rfl, hnumeral⟩
    next => exact .inl hnumeral
  · rintro (hnumeral | ⟨digits, rfl, hnumeral⟩)
    · have hunsigned : '+' ∉ chars := not_mem_of_denotes hradix hnumeral.2 (by decide)
      rwa [countDigits_of_unsigned hunsigned]
    · exact hnumeral

end ChainClient.Text
