import Mathlib.Data.List.Induction
import Mathlib.Data.Nat.ModEq
import ChainClient.Iban
import ChainClient.Proofs.Text.Case
import ChainClient.Proofs.Text.Digits

/-!
# Account numbers of addresses

An account number spells a decimal number, once its first four characters stand at the end
and its letters are written as numbers. The check digits are the last two digits of it, and
are chosen so that it leaves remainder one. In front of them stands an address in base 36,
for which thirty digits or one more always suffice, and which reads the same in either case.
-/

namespace ChainClient

namespace Iban

open Text

/-! ## Symbols -/

/-- The characters of account numbers: digits and letters in upper case. -/
def IsSymbol (char : Char) : Prop :=
  char.isDigit = true ∨ char.isUpper = true

theorem isUpper_of_isDigit {char : Char} (hdigit : char.isDigit = true) :
    char.isUpper = false := by
  rw [isDigit_iff] at hdigit
  rw [← Bool.not_eq_true, isUpper_iff]
  omega

theorem IsSymbol.toNat_lt {char : Char} (hsymbol : IsSymbol char) : char.toNat < 128 := by
  rw [IsSymbol, isDigit_iff, isUpper_iff] at hsymbol
  omega

theorem IsSymbol.toUpper_eq {char : Char} (hsymbol : IsSymbol char) : char.toUpper = char := by
  rw [IsSymbol, isDigit_iff, isUpper_iff] at hsymbol
  have hlower : ¬ (97 ≤ char.val ∧ char.val ≤ 122) := by
    rw [UInt32.le_iff_toNat_le, UInt32.le_iff_toNat_le]
    change ¬ (97 ≤ char.toNat ∧ char.toNat ≤ 122)
    omega
  exact dif_neg hlower

theorem expansion_of_isDigit {char : Char} (hdigit : char.isDigit = true) :
    expansion char = [char] := by
  simp [expansion, isUpper_of_isDigit hdigit]

theorem isDigit_of_mem_expansion {char : Char} (hsymbol : IsSymbol char) :
    ∀ digit ∈ expansion char, digit.isDigit = true := by
  rcases hsymbol with hdigit | hupper
  · rw [expansion_of_isDigit hdigit]
    exact List.forall_mem_singleton.mpr hdigit
  · rw [expansion, if_pos hupper]
    exact isDigit_of_mem_toDigits

/-! ## Remainders -/

/-- Reducing the number in front of digits does not change the remainder. -/
theorem ofDigitChars_mod (digits : List Char) (total : Nat) :
    Nat.ofDigitChars 10 digits (total % 97) % 97 = Nat.ofDigitChars 10 digits total % 97 := by
  have hshift (start : Nat) : Nat.ofDigitChars 10 digits start =
      10 ^ digits.length * start + Nat.ofDigitChars 10 digits 0 :=
    Nat.ofDigitChars_eq_ofDigitChars_zero
  rw [hshift, hshift total]
  exact ((Nat.mod_modEq total 97).mul_left _).add_right _

theorem remainderFrom?_eq {digits : List Char} (hdigits : ∀ digit ∈ digits, digit.isDigit = true)
    {total : Nat} (htotal : total < 97) :
    remainderFrom? total digits = some (Nat.ofDigitChars 10 digits total % 97) := by
  induction digits generalizing total with
  | nil => rw [remainderFrom?, Nat.ofDigitChars_nil, Nat.mod_eq_of_lt htotal]
  | cons digit digits ih =>
      obtain ⟨hdigit, hothers⟩ := List.forall_mem_cons.mp hdigits
      have hvalue := digitInRadix?_ten_eq_some_iff.mpr ⟨hdigit, rfl⟩
      rw [remainderFrom?, hvalue, Option.bind_eq_bind, Option.bind_some,
        ih hothers (Nat.mod_lt _ (by decide)), ofDigitChars_mod, Nat.ofDigitChars_cons,
        Nat.mul_comm total]

/-- The number that symbols spell when letters are written as numbers. -/
def numberOf (symbols : List Char) : Nat :=
  Nat.ofDigitChars 10 (symbols.flatMap expansion) 0

/-- The remainder of an account number is that of the number it spells, its first four
characters at the end. -/
theorem remainder?_append {front rest : List Char} (hlength : front.length = 4)
    (hfront : ∀ char ∈ front, IsSymbol char) (hrest : ∀ char ∈ rest, IsSymbol char) :
    remainder? (front ++ rest) = some (numberOf (rest ++ front) % 97) := by
  have hupper : (front ++ rest).map Char.toUpper = front ++ rest := by
    have hsymbols := List.forall_mem_append.mpr ⟨hfront, hrest⟩
    exact (List.map_congr_left fun char hchar => (hsymbols char hchar).toUpper_eq).trans
      (List.map_id _)
  have hrearranged : rearranged (front ++ rest) = (rest ++ front).flatMap expansion := by
    simp only [rearranged, hupper, ← hlength, List.drop_left, List.take_left]
  have hdigits : ∀ digit ∈ (rest ++ front).flatMap expansion, digit.isDigit = true := by
    intro digit hdigit
    obtain ⟨char, hchar, hdigit⟩ := List.mem_flatMap.mp hdigit
    exact isDigit_of_mem_expansion (List.forall_mem_append.mpr ⟨hrest, hfront⟩ char hchar)
      digit hdigit
  rw [remainder?, hrearranged, remainderFrom?_eq hdigits (by decide), numberOf]

/-! ## Check digits -/

theorem isDigit_of_mem_twoDigits {check : Nat} (hcheck : check < 100) :
    ∀ digit ∈ twoDigits check, digit.isDigit = true := by
  have hdigit : ∀ value < 10, (Hex.digitChar value).isDigit = true := by decide
  rw [twoDigits, List.forall_mem_cons, List.forall_mem_singleton]
  exact ⟨hdigit _ (by omega), hdigit _ (by omega)⟩

/-- Check digits are the last two digits of the number that is spelled. -/
theorem numberOf_append_twoDigits {check : Nat} (hcheck : check < 100) (symbols : List Char) :
    numberOf (symbols ++ twoDigits check) = numberOf symbols * 100 + check := by
  have hvalue : ∀ value < 10, (Hex.digitChar value).toNat - '0'.toNat = value := by decide
  have hdigits := isDigit_of_mem_twoDigits hcheck
  rw [twoDigits, List.forall_mem_cons, List.forall_mem_singleton] at hdigits
  have hexpansion : (twoDigits check).flatMap expansion = twoDigits check := by
    simp [twoDigits, expansion_of_isDigit hdigits.1, expansion_of_isDigit hdigits.2]
  rw [numberOf, List.flatMap_append, hexpansion, Nat.ofDigitChars_append, ← numberOf, twoDigits,
    Nat.ofDigitChars_cons, Nat.ofDigitChars_cons, Nat.ofDigitChars_nil, hvalue _ (by omega),
    hvalue _ (by omega)]
  omega

theorem isSymbol_of_mem_front {check : Nat} (hcheck : check < 100) :
    ∀ char ∈ countryCode.toList ++ twoDigits check, IsSymbol char := by
  have hcountry : ∀ char ∈ countryCode.toList, char.isUpper = true :=
    List.forall_mem_cons.mpr ⟨rfl, List.forall_mem_singleton.mpr rfl⟩
  rw [List.forall_mem_append]
  exact ⟨fun char hchar => .inr (hcountry char hchar),
    fun digit hdigit => .inl (isDigit_of_mem_twoDigits hcheck digit hdigit)⟩

theorem remainder?_checked {domestic : List Char} (hdomestic : ∀ char ∈ domestic, IsSymbol char)
    (check : Nat) (hcheck : check < 100) :
    remainder? (countryCode.toList ++ twoDigits check ++ domestic) =
      some ((numberOf (domestic ++ countryCode.toList) * 100 + check) % 97) := by
  rw [remainder?_append rfl (isSymbol_of_mem_front hcheck) hdomestic, ← List.append_assoc,
    numberOf_append_twoDigits hcheck]

/-- The check digits of an account number make its remainder one. -/
theorem exists_check {domestic : List Char} (hdomestic : ∀ char ∈ domestic, IsSymbol char) :
    ∃ check < 100, ofDomestic domestic = countryCode.toList ++ twoDigits check ++ domestic ∧
      remainder? (ofDomestic domestic) = some 1 := by
  have hremainder : remainder? (countryCode.toList ++ ['0', '0'] ++ domestic) = _ :=
    remainder?_checked hdomestic 0 (by decide)
  have hchosen : ofDomestic domestic = countryCode.toList ++
      twoDigits (98 - numberOf (domestic ++ countryCode.toList) * 100 % 97) ++ domestic := by
    simp only [ofDomestic, hremainder, Option.getD_some, Nat.add_zero]
  refine ⟨_, by omega, hchosen, ?_⟩
  rw [hchosen, remainder?_checked hdomestic _ (by omega), Option.some.injEq]
  omega

theorem isValid_ofDomestic {domestic : List Char} (hdomestic : ∀ char ∈ domestic, IsSymbol char)
    (hlength : domestic.length = 30 ∨ domestic.length = 31) :
    isValid (String.ofList (ofDomestic domestic)) = true := by
  obtain ⟨check, hcheck, hnumber, hremainder⟩ := exists_check hdomestic
  have hsymbols : ∀ char ∈ ofDomestic domestic, IsSymbol char := by
    rw [hnumber]
    exact List.forall_mem_append.mpr ⟨isSymbol_of_mem_front hcheck, hdomestic⟩
  have hbasic : ∀ char ∈ ofDomestic domestic, char.toNat < 128 :=
    fun char hchar => (hsymbols char hchar).toNat_lt
  have hsize : (String.ofList (ofDomestic domestic)).utf8ByteSize = domestic.length + 4 := by
    rw [utf8ByteSize_ofList hbasic, hnumber]
    simp +arith [countryCode, twoDigits]
  have hdirect : isDirect (String.ofList (ofDomestic domestic)) = true := by
    rw [isDirect, hsize]
    rcases hlength with hlength | hlength <;> rw [hlength] <;> rfl
  have hdigits : ∀ digit ∈ ((ofDomestic domestic).drop 2).take 2, digit.isDigit = true := by
    rw [hnumber]
    exact isDigit_of_mem_twoDigits hcheck
  have hrest : (ofDomestic domestic).drop 4 = domestic := by
    rw [hnumber]
    rfl
  simp only [isValid, String.toList_ofList, hremainder, hdirect, hrest, Bool.and_eq_true,
    List.all_eq_true, decide_eq_true_eq, Bool.or_eq_true, beq_self_eq_true, and_true]
  exact ⟨⟨⟨hbasic, by rw [hnumber]; rfl⟩, hdigits⟩, hdomestic⟩

/-! ## Base 36 -/

theorem isSymbol_base36Char {value : Nat} (hvalue : value < 36) : IsSymbol (base36Char value) := by
  have hsymbol : ∀ value < 36,
      (base36Char value).isDigit = true ∨ (base36Char value).isUpper = true := by decide
  exact hsymbol value hvalue

@[simp] theorem length_base36Digits (width number : Nat) :
    (base36Digits width number).length = width := by
  induction width generalizing number with
  | zero => rfl
  | succ width ih => rw [base36Digits, List.length_append, ih, List.length_singleton]

theorem isSymbol_of_mem_base36Digits {width number : Nat} :
    ∀ char ∈ base36Digits width number, IsSymbol char := by
  induction width generalizing number with
  | zero => exact List.forall_mem_nil _
  | succ width ih =>
      rw [base36Digits, List.forall_mem_append, List.forall_mem_singleton]
      exact ⟨ih, isSymbol_base36Char (Nat.mod_lt _ (by decide))⟩

theorem base36From_append (total : Nat) (front back : List Char) :
    base36From total (front ++ back) =
      (base36From total front).bind fun number => base36From number back := by
  induction front generalizing total with
  | nil => rfl
  | cons char front ih =>
      rw [List.cons_append, base36From, base36From]
      cases digitInRadix? 36 char with
      | none => rfl
      | some digit => exact ih _

/-- Digits are read as the number they were written for, up to multiples of what their width
holds, if each is spelled as itself or in lower case. -/
theorem base36From_map {spell : Char → Char}
    (hspell : ∀ value < 36, digitInRadix? 36 (spell (base36Char value)) = some value)
    (width number : Nat) :
    base36From 0 ((base36Digits width number).map spell) = .ok (number % 36 ^ width) := by
  induction width generalizing number with
  | zero => simp [base36Digits, base36From, Nat.mod_one]
  | succ width ih =>
      have hlast := hspell (number % 36) (Nat.mod_lt _ (by decide))
      have hsum : number / 36 % 36 ^ width * 36 + number % 36 = number % 36 ^ (width + 1) := by
        rw [pow_succ', Nat.mod_mul, Nat.mul_comm, Nat.add_comm]
      rw [base36Digits, List.map_append, List.map_singleton, base36From_append, ih, Except.bind,
        base36From, hlast]
      exact congrArg Except.ok hsum

/-- Every symbol is a digit in base 36. -/
theorem exists_base36Char {char : Char} (hsymbol : IsSymbol char) :
    ∃ value < 36, char = base36Char value := by
  rcases hsymbol with hdigit | hupper
  · rw [isDigit_iff] at hdigit
    refine ⟨char.toNat - 48, by omega, ?_⟩
    have hcode : '0'.toNat + (char.toNat - 48) = char.toNat := Nat.add_sub_of_le hdigit.1
    rw [base36Char, if_pos (by omega), hcode, Char.ofNat_toNat]
  · rw [isUpper_iff] at hupper
    refine ⟨char.toNat - 55, by omega, ?_⟩
    have hcode : 'A'.toNat + (char.toNat - 55 - 10) = char.toNat := by
      change 65 + _ = _
      omega
    rw [base36Char, if_neg (by omega), hcode, Char.ofNat_toNat]

/-- Symbols are the digits of the number that they are read as. -/
theorem exists_base36From {digits : List Char} (hsymbols : ∀ char ∈ digits, IsSymbol char) :
    ∃ number, base36From 0 digits = .ok number ∧ base36Digits digits.length number = digits := by
  have hspell : ∀ value < 36, digitInRadix? 36 (base36Char value) = some value := by decide
  induction digits using List.reverseRecOn with
  | nil => exact ⟨0, rfl, rfl⟩
  | append_singleton digits char ih =>
      obtain ⟨hdigits, hchar⟩ := List.forall_mem_append.mp hsymbols
      obtain ⟨number, hread, hwritten⟩ := ih hdigits
      obtain ⟨value, hvalue, rfl⟩ := exists_base36Char (List.forall_mem_singleton.mp hchar)
      have hquotient : (number * 36 + value) / 36 = number := by omega
      have hlast : (number * 36 + value) % 36 = value := by omega
      refine ⟨number * 36 + value, ?_, ?_⟩
      · rw [base36From_append, hread, Except.bind, base36From, hspell value hvalue]
        rfl
      · rw [List.length_append, List.length_singleton, base36Digits, hquotient, hlast, hwritten]

/-! ## Addresses -/

/-- An address is below the number that the digits of its account number can hold. -/
theorem exists_body (address : Address) :
    ∃ width, (width = 30 ∨ width = 31) ∧ address.value.toNat < 36 ^ width ∧
      body address = base36Digits width address.value.toNat := by
  have hbody : body address = base36Digits
      (if address.value.toNat < 36 ^ 30 then 30 else 31) address.value.toNat := rfl
  have hbound : address.value.toNat < 2 ^ 160 := address.value.isLt
  by_cases hfits : address.value.toNat < 36 ^ 30
  · exact ⟨30, .inl rfl, hfits, by rw [hbody, if_pos hfits]⟩
  · exact ⟨31, .inr rfl, hbound.trans (by decide), by rw [hbody, if_neg hfits]⟩

theorem isSymbol_of_mem_body (address : Address) : ∀ char ∈ body address, IsSymbol char := by
  obtain ⟨width, -, -, hbody⟩ := exists_body address
  rw [hbody]
  exact isSymbol_of_mem_base36Digits

theorem length_body (address : Address) :
    (body address).length = 30 ∨ (body address).length = 31 := by
  obtain ⟨width, hwidth, -, hbody⟩ := exists_body address
  rwa [hbody, length_base36Digits]

/-- The digits of an address are read as its number, each spelled as itself or otherwise. -/
theorem base36From_body {spell : Char → Char} (address : Address)
    (hspell : ∀ value < 36, digitInRadix? 36 (spell (base36Char value)) = some value) :
    base36From 0 ((body address).map spell) = .ok address.value.toNat := by
  obtain ⟨width, -, hfits, hbody⟩ := exists_body address
  rw [hbody, base36From_map hspell, Nat.mod_eq_of_lt hfits]

/-- An account number is decoded to what its digits spell, if that is not too large. -/
theorem toAddress_of_basic {chars : List Char} {number : Nat}
    (hbasic : ∀ char ∈ chars, char.toNat < 128)
    (hlength : chars.length = 34 ∨ chars.length = 35)
    (hread : base36From 0 (chars.drop 4) = .ok number) :
    toAddress (String.ofList chars) =
      if number < 2 ^ 160 then .ok ⟨BitVec.ofNat 160 number⟩ else .error .overflow := by
  have hdirect : isDirect (String.ofList chars) = true := by
    rw [isDirect, utf8ByteSize_ofList hbasic]
    rcases hlength with hlength | hlength <;> rw [hlength] <;> rfl
  have hfind : chars.find? (128 ≤ ·.toNat) = none := by
    rw [List.find?_eq_none]
    intro char hchar
    simpa using hbasic char hchar
  simp only [toAddress, hdirect, String.toList_ofList, hfind, hread, Bool.not_true,
    Bool.false_eq_true, ↓reduceIte, bind, Except.bind]
  rfl

/-- An address is read back from its account number, however the digits are spelled. -/
theorem toAddress_map (spell : Char → Char) (address : Address)
    (hspell : ∀ value < 36, digitInRadix? 36 (spell (base36Char value)) = some value)
    (hbasic : ∀ char, IsSymbol char → (spell char).toNat < 128) :
    toAddress (String.ofList ((ofDomestic (body address)).map spell)) = .ok address := by
  obtain ⟨check, hcheck, hnumber, -⟩ := exists_check (isSymbol_of_mem_body address)
  have hspelled : ∀ char ∈ (ofDomestic (body address)).map spell, char.toNat < 128 := by
    rw [hnumber, List.forall_mem_map, List.forall_mem_append]
    exact ⟨fun char hchar => hbasic char (isSymbol_of_mem_front hcheck char hchar),
      fun char hchar => hbasic char (isSymbol_of_mem_body address char hchar)⟩
  have hlength : ((ofDomestic (body address)).map spell).length = (body address).length + 4 := by
    rw [hnumber]
    simp +arith [countryCode, twoDigits]
  have hdirect : ((ofDomestic (body address)).map spell).length = 34 ∨
      ((ofDomestic (body address)).map spell).length = 35 := by
    have hbody := length_body address
    omega
  have hdigits : ((ofDomestic (body address)).map spell).drop 4 = (body address).map spell := by
    rw [hnumber]
    rfl
  have hread := base36From_body address hspell
  rw [← hdigits] at hread
  rw [toAddress_of_basic hspelled hdirect hread, if_pos address.value.isLt]
  simp only [BitVec.ofNat_toNat, BitVec.setWidth_eq]

theorem toNat_toLower_lt {char : Char} (hsymbol : IsSymbol char) : char.toLower.toNat < 128 := by
  have hcases := toLower_cases char
  have hbasic := hsymbol.toNat_lt
  omega

/-- The account number of an address has 34 or 35 characters and correct check digits, and
carries the address, in upper and in lower case. -/
theorem toAddress_ofAddress (address : Address) :
    ((ofAddress address).length = 34 ∨ (ofAddress address).length = 35) ∧
      isValid (ofAddress address) = true ∧ toAddress (ofAddress address) = .ok address ∧
      toAddress (ofAddress address).toLower = .ok address := by
  refine ⟨?_, isValid_ofDomestic (isSymbol_of_mem_body address) (length_body address), ?_, ?_⟩
  · obtain ⟨check, -, hnumber, -⟩ := exists_check (isSymbol_of_mem_body address)
    rw [ofAddress, String.length_ofList, hnumber]
    rcases length_body address with hbody | hbody <;> simp [hbody, countryCode, twoDigits]
  · have hread := toAddress_map id address (by decide) fun char hsymbol =>
      hsymbol.toNat_lt
    rwa [List.map_id] at hread
  · have hread := toAddress_map Char.toLower address (by decide) fun char hsymbol =>
      toNat_toLower_lt hsymbol
    have hlower : (ofAddress address).toLower =
        String.ofList ((ofDomestic (body address)).map Char.toLower) := by
      change String.map Char.toLower (String.ofList (ofDomestic (body address))) = _
      rw [← String.toList_inj, String.toList_map, String.toList_ofList, String.toList_ofList]
    rwa [hlower]

end Iban

end ChainClient
