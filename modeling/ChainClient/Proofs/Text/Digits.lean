import ChainClient.Text.Numeral

/-!
# Decimal digits

A number is written with the fewest digits, so that a text of digits is what its number
is written as unless it starts with a zero. Reading such digits gives the number back,
as a numeral and as a count below a limit.
-/

namespace ChainClient.Text

theorem isDigit_iff {char : Char} : char.isDigit = true ↔ 48 ≤ char.toNat ∧ char.toNat ≤ 57 := by
  simp only [Char.isDigit, Bool.and_eq_true, decide_eq_true_eq, ge_iff_le,
    UInt32.le_iff_toNat_le]
  exact Iff.rfl

theorem digitInRadix?_ten_eq_some_iff {char : Char} {digit : Nat} :
    digitInRadix? 10 char = some digit ↔ char.isDigit = true ∧ char.toNat - '0'.toNat = digit := by
  have hzero : '0'.toNat = 48 := rfl
  rw [isDigit_iff, digitInRadix?, Option.filter_eq_some_iff, digitValue?]
  simp only [Char.reduceToNat, decide_eq_true_eq]
  split
  · simp only [Option.some.injEq]
    omega
  split
  · simp only [Option.some.injEq]
    omega
  split
  · simp only [Option.some.injEq]
    omega
  · simp
    omega

/-- Digits are read as the number they stand for behind those before them. -/
theorem digitsFrom?_ten_eq_some_iff {total number : Nat} {digits : List Char} :
    digitsFrom? 10 total digits = some number ↔
      (∀ digit ∈ digits, digit.isDigit = true) ∧ Nat.ofDigitChars 10 digits total = number := by
  induction digits generalizing total with
  | nil => simp [digitsFrom?]
  | cons char rest ih =>
      simp only [digitsFrom?, bind, Option.bind_eq_some_iff, digitInRadix?_ten_eq_some_iff, ih,
        List.forall_mem_cons, Nat.ofDigitChars_cons, Nat.mul_comm 10 total]
      constructor
      · rintro ⟨digit, ⟨hchar, rfl⟩, hrest, hnumber⟩
        exact ⟨⟨hchar, hrest⟩, hnumber⟩
      · rintro ⟨⟨hchar, hrest⟩, hnumber⟩
        exact ⟨_, ⟨hchar, rfl⟩, hrest, hnumber⟩

theorem digits?_ten_eq_some_iff {number : Nat} {digits : List Char} :
    digits? 10 digits = some number ↔
      digits ≠ [] ∧ (∀ digit ∈ digits, digit.isDigit = true) ∧
        Nat.ofDigitChars 10 digits 0 = number := by
  cases digits with
  | nil => simp [digits?]
  | cons char rest =>
      rw [digits?, digitsFrom?_ten_eq_some_iff]
      · simp
      · simp

theorem isDigit_of_mem_toDigits {number : Nat} :
    ∀ digit ∈ Nat.toDigits 10 number, digit.isDigit = true :=
  fun _ => Nat.isDigit_of_mem_toDigits (by decide) (by decide)

theorem not_mem_toDigits {char : Char} (hchar : char.isDigit = false) (number : Nat) :
    char ∉ Nat.toDigits 10 number := by
  intro hmem
  rw [isDigit_of_mem_toDigits char hmem] at hchar
  exact Bool.noConfusion hchar

/-- A written number is read as itself. -/
theorem digits?_toDigits (number : Nat) : digits? 10 (Nat.toDigits 10 number) = some number :=
  digits?_ten_eq_some_iff.mpr
    ⟨Nat.toDigits_ne_nil, isDigit_of_mem_toDigits, Nat.ofDigitChars_ten_toDigits⟩

/-- A digit is what the number it stands for is written as. -/
theorem toDigits_digit {char : Char} (hchar : char.isDigit = true) :
    char.toNat - '0'.toNat < 10 ∧ Nat.toDigits 10 (char.toNat - '0'.toNat) = [char] := by
  have hbounds := isDigit_iff.mp hchar
  have hzero : '0'.toNat = 48 := rfl
  refine ⟨by omega, ?_⟩
  rw [Nat.toDigits_of_lt_base (by omega), List.cons.injEq]
  refine ⟨Char.toNat_inj.mp ?_, rfl⟩
  rw [Nat.toNat_digitChar_of_lt_ten (by omega)]
  omega

/-- Digits behind a number above zero continue its digits. -/
theorem toDigits_ofDigitChars {number : Nat} {digits : List Char} (hpos : 0 < number)
    (hdigits : ∀ digit ∈ digits, digit.isDigit = true) :
    Nat.toDigits 10 (Nat.ofDigitChars 10 digits number) = Nat.toDigits 10 number ++ digits := by
  induction digits generalizing number with
  | nil => simp
  | cons char rest ih =>
      obtain ⟨hchar, hrest⟩ := List.forall_mem_cons.mp hdigits
      obtain ⟨hlt, hdigit⟩ := toDigits_digit hchar
      rw [Nat.ofDigitChars_cons, ih (by omega) hrest,
        ← Nat.toDigits_append_toDigits (by decide) hpos hlt, hdigit, List.append_assoc,
        List.singleton_append]

/-- Digits that do not start with a zero are those of the number they are read as. -/
theorem toDigits_of_digits? {number : Nat} {digits : List Char}
    (hdigits : digits? 10 digits = some number) (hhead : digits.head? ≠ some '0') :
    Nat.toDigits 10 number = digits := by
  obtain ⟨hnonempty, hall, rfl⟩ := digits?_ten_eq_some_iff.mp hdigits
  cases digits with
  | nil => exact absurd rfl hnonempty
  | cons char rest =>
      obtain ⟨hchar, hrest⟩ := List.forall_mem_cons.mp hall
      obtain ⟨-, hdigit⟩ := toDigits_digit hchar
      have hnonzero : char.toNat - '0'.toNat ≠ 0 := by
        intro hzero
        rw [hzero, Nat.toDigits_zero, List.cons.injEq] at hdigit
        exact hhead (congrArg some hdigit.1.symm)
      rw [Nat.ofDigitChars_cons, Nat.mul_zero, Nat.zero_add,
        toDigits_ofDigitChars (by omega) hrest, hdigit, List.singleton_append]

theorem head?_toDigits_ne_zero {number : Nat} (hpos : 0 < number) :
    (Nat.toDigits 10 number).head? ≠ some '0' := by
  induction number using Nat.strongRecOn with
  | ind number ih =>
      rw [Nat.toDigits_eq_if (by decide)]
      split
      next =>
        rw [List.head?_cons, ne_eq, Option.some.injEq, Nat.digitChar_eq_zero]
        omega
      next hlarge =>
        rw [List.head?_append, Option.or_of_isSome (by simp [Nat.toDigits_ne_nil])]
        exact ih (number / 10) (by omega) (by omega)

/-! ## Counts -/

theorem countDigits_of_unsigned {text : List Char} (hunsigned : '+' ∉ text) :
    countDigits text = text := by
  unfold countDigits
  split
  · exact absurd List.mem_cons_self hunsigned
  · rfl

theorem count?_toDigits {number limit : Nat} (hlimit : number < limit) :
    count? 10 limit (Nat.toDigits 10 number) = some number := by
  have hunsigned : '+' ∉ Nat.toDigits 10 number := not_mem_toDigits (by decide) number
  rw [count?, countDigits_of_unsigned hunsigned, digits?_toDigits]
  simp [hlimit]

/-- Without a sign a count is written in digits alone. -/
theorem digits?_of_count? {number limit : Nat} {text : List Char}
    (hcount : count? 10 limit text = some number) (hunsigned : '+' ∉ text) :
    digits? 10 text = some number := by
  rw [count?, countDigits_of_unsigned hunsigned] at hcount
  exact (Option.filter_eq_some_iff.mp hcount).1

end ChainClient.Text
