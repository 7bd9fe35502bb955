import Mathlib.Data.List.Basic
import Mathlib.Data.Nat.Prime.Int
import Mathlib.Tactic.NormNum.Prime
import Mathlib.Tactic.Ring
import ChainClient.Proofs.Iban

/-!
# Mistyped account numbers

A valid account number is no longer valid once a digit or a letter is replaced by another
one, or two neighbours change places. The remainder of what it spells would have to stay the
same, but 97 is a prime, and the change is a small number in front of digits. Only where the
first four characters end are neighbours far apart in what is spelled: there the order of ten
modulo 97 is larger than the number of digits between them.

Decoding passes the check digits over. So a mistyped account number may well be decoded, to the
address that its digits spell, and it is for the check to refuse it.
-/

namespace ChainClient

namespace Iban

open Text

/-! ## Typing errors -/

/-- Both are digits, or both are letters in upper case. -/
def IsSameClass (first second : Char) : Prop :=
  first.isDigit = true ∧ second.isDigit = true ∨ first.isUpper = true ∧ second.isUpper = true

theorem IsSameClass.isSymbol {first second : Char} (hclass : IsSameClass first second) :
    IsSymbol first ∧ IsSymbol second :=
  ⟨hclass.imp And.left And.left, hclass.imp And.right And.right⟩

/-- A part of a text has been exchanged for another one. -/
def IsExchanged (old new : List Char) (text other : String) : Prop :=
  ∃ front back, text.toList = front ++ old ++ back ∧ other.toList = front ++ new ++ back

/-- One character has been replaced by another one of its class. -/
def IsReplaced (text other : String) : Prop :=
  ∃ old new, IsSameClass old new ∧ old ≠ new ∧ IsExchanged [old] [new] text other

/-- Two neighbours of one class have changed places. -/
def IsSwapped (text other : String) : Prop :=
  ∃ first second, IsSameClass first second ∧ first ≠ second ∧
    IsExchanged [first, second] [second, first] text other

/-! ## The numbers of symbols -/

/-- The number of decimal digits in which symbols are written. -/
def width (symbols : List Char) : Nat :=
  (symbols.flatMap expansion).length

theorem width_append (front back : List Char) :
    width (front ++ back) = width front + width back := by
  rw [width, List.flatMap_append, List.length_append, width, width]

theorem numberOf_append (front back : List Char) :
    numberOf (front ++ back) = 10 ^ width back * numberOf front + numberOf back := by
  rw [numberOf, List.flatMap_append, Nat.ofDigitChars_append,
    Nat.ofDigitChars_eq_ofDigitChars_zero, numberOf, numberOf, width]

/-- A digit stands for itself. -/
theorem numberOf_of_isDigit {char : Char} (hdigit : char.isDigit = true) :
    width [char] = 1 ∧ numberOf [char] = char.toNat - 48 := by
  have hexpansion : [char].flatMap expansion = [char] := by
    rw [List.flatMap_singleton, expansion_of_isDigit hdigit]
  rw [width, numberOf, hexpansion, Nat.ofDigitChars_cons, Nat.ofDigitChars_nil]
  exact ⟨rfl, Nat.zero_add _⟩

/-- A letter stands for a number of two digits. -/
theorem numberOf_of_isUpper {char : Char} (hupper : char.isUpper = true) :
    width [char] = 2 ∧ numberOf [char] = char.toNat - 55 := by
  have hbounds := isUpper_iff.mp hupper
  have hexpansion : [char].flatMap expansion = Nat.toDigits 10 (char.toNat - 65 + 10) := by
    rw [List.flatMap_singleton, expansion, if_pos hupper]
    rfl
  have htwo : ∀ letter < 26, (Nat.toDigits 10 (letter + 10)).length = 2 := by decide
  rw [width, numberOf, hexpansion, Nat.ofDigitChars_ten_toDigits]
  exact ⟨htwo _ (by omega), by omega⟩

theorem width_pos_le {char : Char} (hsymbol : IsSymbol char) :
    1 ≤ width [char] ∧ width [char] ≤ 2 := by
  rcases hsymbol with hdigit | hupper
  · rw [(numberOf_of_isDigit hdigit).1]
    decide
  · rw [(numberOf_of_isUpper hupper).1]
    decide

/-- Symbols are written in at most two digits each. -/
theorem width_le {symbols : List Char} (hsymbols : ∀ char ∈ symbols, IsSymbol char) :
    width symbols ≤ 2 * symbols.length := by
  induction symbols with
  | nil => exact Nat.le_refl 0
  | cons char symbols ih =>
      obtain ⟨hchar, hothers⟩ := List.forall_mem_cons.mp hsymbols
      have hone := (width_pos_le hchar).2
      have hrest := ih hothers
      rw [← List.singleton_append, width_append, List.length_append, List.length_singleton]
      omega

/-- Symbols of one class are written in as many digits, and stand for small numbers that tell
them apart, also if two of them stand behind each other. -/
theorem IsSameClass.numbers {first second : Char} (hclass : IsSameClass first second) :
    width [first] = width [second] ∧ numberOf [first] < 97 ∧ numberOf [second] < 97 ∧
      (numberOf [first] = numberOf [second] → first = second) ∧
      (numberOf [first, second] ≡ numberOf [second, first] [MOD 97] → first = second) := by
  have hpair (left right : Char) :
      numberOf [left, right] = 10 ^ width [right] * numberOf [left] + numberOf [right] :=
    numberOf_append [left] [right]
  rw [hpair, hpair second first, Nat.ModEq]
  rcases hclass with ⟨hfirst, hsecond⟩ | ⟨hfirst, hsecond⟩
  · obtain ⟨hone, hnumber⟩ := numberOf_of_isDigit hfirst
    obtain ⟨hother, hnumber'⟩ := numberOf_of_isDigit hsecond
    rw [isDigit_iff] at hfirst hsecond
    rw [hone, hother, hnumber, hnumber']
    refine ⟨rfl, by omega, by omega, fun heq => Char.toNat_inj.mp (by omega),
      fun heq => Char.toNat_inj.mp (by omega)⟩
  · obtain ⟨htwo, hnumber⟩ := numberOf_of_isUpper hfirst
    obtain ⟨hother, hnumber'⟩ := numberOf_of_isUpper hsecond
    rw [isUpper_iff] at hfirst hsecond
    rw [htwo, hother, hnumber, hnumber']
    refine ⟨rfl, by omega, by omega, fun heq => Char.toNat_inj.mp (by omega),
      fun heq => Char.toNat_inj.mp (by omega)⟩

/-! ## Exchanged parts -/

/-- If the remainder stays the same, so does that of the part that has been exchanged. -/
theorem modEq_of_exchanged {front old new back : List Char} (hwidth : width old = width new)
    (hnumber : numberOf (front ++ old ++ back) ≡ numberOf (front ++ new ++ back) [MOD 97]) :
    numberOf old ≡ numberOf new [MOD 97] := by
  have hcoprime : Nat.gcd 97 (10 ^ width back) = 1 := Nat.Coprime.pow_right _ (by decide)
  simp only [numberOf_append, hwidth] at hnumber
  have hinner := (Nat.ModEq.add_right_cancel' _ hnumber).cancel_left_of_coprime hcoprime
  exact Nat.ModEq.add_left_cancel' _ hinner

/-- The text with its first four characters at the end. -/
def turned (text : List Char) : List Char :=
  text.drop 4 ++ text.take 4

/-- What is exchanged on one side of the place where the text is turned, is exchanged in the
turned text. -/
theorem turned_exchanged {front old new : List Char} (back : List Char)
    (hlength : old.length = new.length)
    (hside : front.length + old.length ≤ 4 ∨ 4 ≤ front.length) :
    ∃ before after, turned (front ++ old ++ back) = before ++ old ++ after ∧
      turned (front ++ new ++ back) = before ++ new ++ after := by
  rcases hside with hleft | hright
  · have hturn {part : List Char} (hpart : part.length = old.length) :
        turned (front ++ part ++ back) =
          back.drop (4 - (front.length + old.length)) ++ front ++ part ++
            back.take (4 - (front.length + old.length)) := by
      have hall : (front ++ part).length ≤ 4 := by rwa [List.length_append, hpart]
      rw [turned, List.drop_append, List.take_append, List.drop_eq_nil_of_le hall,
        List.take_of_length_le hall, List.length_append, hpart, List.nil_append]
      simp only [List.append_assoc]
    exact ⟨_, _, hturn rfl, hturn hlength.symm⟩
  · have hturn (part : List Char) :
        turned (front ++ part ++ back) = front.drop 4 ++ part ++ (back ++ front.take 4) := by
      rw [turned, List.append_assoc front, List.drop_append_of_le_length hright,
        List.take_append_of_le_length hright]
      simp only [List.append_assoc]
    exact ⟨_, _, hturn old, hturn new⟩

theorem modEq_of_turned_exchanged {front old new back : List Char}
    (hlength : old.length = new.length) (hwidth : width old = width new)
    (hside : front.length + old.length ≤ 4 ∨ 4 ≤ front.length)
    (hnumber : numberOf (turned (front ++ old ++ back)) ≡
      numberOf (turned (front ++ new ++ back)) [MOD 97]) :
    numberOf old ≡ numberOf new [MOD 97] := by
  obtain ⟨before, after, hold, hnew⟩ := turned_exchanged back hlength hside
  rw [hold, hnew] at hnumber
  exact modEq_of_exchanged hwidth hnumber

/-! ## Neighbours on both sides of the turn -/

/-- The order of ten modulo 97 is 96. -/
theorem ten_pow_mod_ne_one : ∀ exponent < 96, 0 < exponent → 10 ^ exponent % 97 ≠ 1 := by
  decide

/-- Two numbers below a prime may change places around a factor other than one only if they
are the same. -/
theorem eq_of_modEq_swapped {factor first second : Nat} (hfactor : factor % 97 ≠ 1)
    (hfirst : first < 97) (hsecond : second < 97)
    (hswapped : factor * second + first ≡ factor * first + second [MOD 97]) :
    first = second := by
  have hprime : Nat.Prime 97 := by norm_num
  have hdvd : (97 : Int) ∣ ((factor : Int) - 1) * ((first : Int) - second) := by
    have hdifference := Nat.modEq_iff_dvd.mp hswapped
    have hproduct : ((factor : Int) - 1) * ((first : Int) - second) =
        ((factor * first + second : Nat) : Int) - ((factor * second + first : Nat) : Int) := by
      push_cast
      ring
    rwa [hproduct]
  rcases (Nat.prime_iff_prime_int.mp hprime).dvd_or_dvd hdvd with hone | hsame
  · exact absurd (by omega) hfactor
  · omega

/-- Behind the third character neighbours end up at both ends of what is spelled. -/
theorem eq_of_turned_swapped {front back : List Char} {first second : Char}
    (hclass : IsSameClass first second) (hfront : front.length = 3)
    (hsymbols : ∀ char ∈ back ++ front, IsSymbol char) (hlength : (back ++ front).length ≤ 33)
    (hnumber : numberOf (turned (front ++ [first, second] ++ back)) ≡
      numberOf (turned (front ++ [second, first] ++ back)) [MOD 97]) :
    first = second := by
  obtain ⟨hwidth, hfirst, hsecond, hinjective, -⟩ := hclass.numbers
  have hturn (left right : Char) : turned (front ++ [left, right] ++ back) =
      [right] ++ (back ++ front) ++ [left] := by
    obtain ⟨a, b, c, rfl⟩ := List.length_eq_three.mp hfront
    simp [turned]
  obtain ⟨hpos, hone⟩ := width_pos_le hclass.isSymbol.1
  have hbetween := width_le hsymbols
  -- between the two stand at most 66 digits, and one or two more belong to the first
  have hexponent : 10 ^ (width [first] + width (back ++ front)) % 97 ≠ 1 :=
    ten_pow_mod_ne_one _ (by omega) (by omega)
  refine hinjective (eq_of_modEq_swapped hexponent hfirst hsecond ?_)
  rw [hturn, hturn, numberOf_append, numberOf_append, numberOf_append _ [second],
    numberOf_append [first], ← hwidth, Nat.mul_add, Nat.mul_add, ← Nat.mul_assoc,
    ← Nat.mul_assoc, ← Nat.pow_add, Nat.add_right_comm, Nat.add_right_comm _ _ (numberOf [second])]
    at hnumber
  exact Nat.ModEq.add_right_cancel' _ hnumber

/-! ## The check -/

/-- A valid account number consists of symbols, is of limited length, and spells a number
with remainder one. -/
theorem checked_of_isValid {text : String} (hvalid : isValid text = true) :
    (∀ char ∈ text.toList, IsSymbol char) ∧ text.toList.length ≤ 35 ∧
      numberOf (turned text.toList) % 97 = 1 := by
  simp only [isValid, Bool.and_eq_true, List.all_eq_true, decide_eq_true_eq, Bool.or_eq_true,
    beq_iff_eq, isDirect] at hvalid
  obtain ⟨⟨⟨⟨⟨hbasic, hcountry⟩, hdirect⟩, hcheck⟩, hdomestic⟩, hremainder⟩ := hvalid
  have hlength : text.toList.length = text.utf8ByteSize := by
    rw [← utf8ByteSize_ofList hbasic, String.ofList_toList]
  -- the first four are the country code and the check digits
  have hfront : ∀ char ∈ text.toList.take 4, IsSymbol char := by
    obtain ⟨rest, hrest⟩ := List.isPrefixOf_iff_prefix.mp hcountry
    have htake : text.toList.take 4 = countryCode.toList ++ (text.toList.drop 2).take 2 := by
      rw [← hrest]
      rfl
    rw [htake, List.forall_mem_append]
    exact ⟨(List.forall_mem_append.mp (isSymbol_of_mem_front (by decide : 0 < 100))).1,
      fun char hchar => .inl (hcheck char hchar)⟩
  have hfour : (text.toList.take 4).length = 4 := by
    rw [List.length_take]
    omega
  have hspelled := remainder?_append hfour hfront hdomestic
  rw [List.take_append_drop, hremainder] at hspelled
  refine ⟨?_, by omega, (Option.some.inj hspelled).symm⟩
  rw [← List.take_append_drop 4 text.toList, List.forall_mem_append]
  exact ⟨hfront, hdomestic⟩

/-- The numbers that valid account numbers spell leave the same remainder. -/
theorem modEq_of_isValid {text other : String} (hvalid : isValid text = true)
    (hother : isValid other = true) :
    numberOf (turned text.toList) ≡ numberOf (turned other.toList) [MOD 97] :=
  (checked_of_isValid hvalid).2.2.trans (checked_of_isValid hother).2.2.symm

theorem isValid_of_replaced {text other : String} (hvalid : isValid text = true)
    (hreplaced : IsReplaced text other) : isValid other = false := by
  rw [← Bool.not_eq_true]
  intro hother
  obtain ⟨old, new, hclass, hne, front, back, htext, hchanged⟩ := hreplaced
  obtain ⟨hwidth, hold, hnew, hinjective, -⟩ := hclass.numbers
  have hsame := modEq_of_isValid hvalid hother
  rw [htext, hchanged] at hsame
  have hlength : [old].length = [new].length := rfl
  have hside : front.length + [old].length ≤ 4 ∨ 4 ≤ front.length := by
    rw [List.length_singleton]
    omega
  have hpart := modEq_of_turned_exchanged hlength hwidth hside hsame
  exact hne (hinjective (hpart.eq_of_lt_of_lt hold hnew))

theorem isValid_of_swapped {text other : String} (hvalid : isValid text = true)
    (hswapped : IsSwapped text other) : isValid other = false := by
  rw [← Bool.not_eq_true]
  intro hother
  obtain ⟨first, second, hclass, hne, front, back, htext, hchanged⟩ := hswapped
  obtain ⟨hwidth, -, -, -, hpair⟩ := hclass.numbers
  have hsame := modEq_of_isValid hvalid hother
  rw [htext, hchanged] at hsame
  -- the two stay together unless the text is turned between them
  by_cases hfront : front.length = 3
  · obtain ⟨hsymbols, hlength, -⟩ := checked_of_isValid hvalid
    have hparts : ∀ char ∈ back ++ front, IsSymbol char := by
      intro char hchar
      refine hsymbols char ?_
      rw [htext, List.mem_append, List.mem_append]
      exact (List.mem_append.mp hchar).elim .inr fun hleft => .inl (.inl hleft)
    have hshort : (back ++ front).length ≤ 33 := by
      simp only [htext, List.length_append, List.length_cons, List.length_nil] at hlength ⊢
      omega
    exact hne (eq_of_turned_swapped hclass hfront hparts hshort hsame)
  · have hwidths : width [first, second] = width [second, first] := by
      have hsum (left right : Char) : width [left, right] = width [left] + width [right] :=
        width_append [left] [right]
      rw [hsum, hsum, Nat.add_comm]
    have hlength : [first, second].length = [second, first].length := rfl
    have hside : front.length + [first, second].length ≤ 4 ∨ 4 ≤ front.length := by
      simp only [List.length_cons, List.length_nil]
      omega
    exact hne (hpair (modEq_of_turned_exchanged hlength hwidths hside hsame))

/-- The check refuses what has come from a valid account number by a typing error. -/
theorem isValid_of_mistyped {text other : String} (hvalid : isValid text = true)
    (hmistyped : IsReplaced text other ∨ IsSwapped text other) : isValid other = false :=
  hmistyped.elim (isValid_of_replaced hvalid) (isValid_of_swapped hvalid)

/-- The last check digit and the first digit behind it have changed places. -/
theorem isValid_of_mistyped_around_turn :
    let text := "TH93112A8NT0RIRPIXR7IXJBB1U0ZBXEB1K"
    let other := "TH91312A8NT0RIRPIXR7IXJBB1U0ZBXEB1K"
    isValid text = true ∧ IsSwapped text other ∧ isValid other = false := by
  intro text other
  have hvalid : isValid text = true := by decide +kernel
  have hswapped : IsSwapped text other :=
    ⟨'3', '1', .inl ⟨rfl, rfl⟩, by decide, ['T', 'H', '9'],
      "12A8NT0RIRPIXR7IXJBB1U0ZBXEB1K".toList, by decide +kernel, by decide +kernel⟩
  exact ⟨hvalid, hswapped, isValid_of_mistyped hvalid (.inr hswapped)⟩

/-! ## Decoding -/

theorem IsReplaced.isSymbol {text other : String} (hreplaced : IsReplaced text other)
    (hsymbols : ∀ char ∈ text.toList, IsSymbol char) : ∀ char ∈ other.toList, IsSymbol char := by
  obtain ⟨old, new, hclass, -, front, back, htext, hother⟩ := hreplaced
  rw [htext, List.forall_mem_append, List.forall_mem_append] at hsymbols
  obtain ⟨⟨hfront, -⟩, hback⟩ := hsymbols
  rw [hother, List.forall_mem_append, List.forall_mem_append, List.forall_mem_singleton]
  exact ⟨⟨hfront, hclass.isSymbol.2⟩, hback⟩

theorem IsReplaced.length_eq {text other : String} (hreplaced : IsReplaced text other) :
    other.toList.length = text.toList.length := by
  obtain ⟨old, new, -, -, front, back, htext, hother⟩ := hreplaced
  simp only [htext, hother, List.length_append, List.length_singleton]

/-- The account number of an address consists of symbols, the digits of the address behind the
first four. -/
theorem toList_ofAddress (address : Address) :
    (∀ char ∈ (ofAddress address).toList, IsSymbol char) ∧
      (ofAddress address).toList.drop 4 = body address ∧
      (ofAddress address).toList.length = (body address).length + 4 := by
  obtain ⟨check, hcheck, hnumber, -⟩ := exists_check (isSymbol_of_mem_body address)
  rw [ofAddress, String.toList_ofList, hnumber, List.forall_mem_append]
  refine ⟨⟨isSymbol_of_mem_front hcheck, isSymbol_of_mem_body address⟩, rfl, ?_⟩
  simp +arith [countryCode, twoDigits]

/-- An address has no other digits. -/
theorem body_eq_of_base36Digits {address : Address} {digits : List Char}
    (hlength : digits.length = (body address).length)
    (hdigits : base36Digits digits.length address.value.toNat = digits) :
    digits = body address := by
  obtain ⟨width, -, -, hbody⟩ := exists_body address
  rw [hbody, length_base36Digits] at hlength
  rw [hbody, ← hlength, hdigits]

/-- The check refuses an account number of an address in which a character has been replaced.
Decoding does not notice a character replaced among the first four. One replaced behind them
gives another number, and thereby another address, or no address if the number is too large. -/
theorem toAddress_of_replaced {address : Address} {other : String}
    (hreplaced : IsReplaced (ofAddress address) other) :
    isValid other = false ∧
      (other.toList.drop 4 = (ofAddress address).toList.drop 4 → toAddress other = .ok address) ∧
      (other.toList.drop 4 ≠ (ofAddress address).toList.drop 4 →
        ∃ number, base36From 0 (other.toList.drop 4) = .ok number ∧
          (2 ^ 160 ≤ number → toAddress other = .error .overflow) ∧
          (number < 2 ^ 160 → ∃ wrong, wrong ≠ address ∧ wrong.value.toNat = number ∧
            toAddress other = .ok wrong)) := by
  obtain ⟨hsymbols, hbody, hlength⟩ := toList_ofAddress address
  have hother := hreplaced.isSymbol hsymbols
  have hlengths := hreplaced.length_eq
  have hcounts := length_body address
  have hnumber {number : Nat} (hread : base36From 0 (other.toList.drop 4) = .ok number) :
      toAddress other =
        if number < 2 ^ 160 then .ok ⟨BitVec.ofNat 160 number⟩ else .error .overflow := by
    rw [← String.ofList_toList (s := other)]
    exact toAddress_of_basic (fun char hchar => (hother char hchar).toNat_lt) (by omega) hread
  refine ⟨isValid_of_replaced ?_ hreplaced, fun hsame => ?_, fun hdiffer => ?_⟩
  · exact isValid_ofDomestic (isSymbol_of_mem_body address) hcounts
  · have hread : base36From 0 ((body address).map id) = _ := base36From_body address (by decide)
    rw [List.map_id, ← hbody, ← hsame] at hread
    rw [hnumber hread, if_pos address.value.isLt]
    simp only [BitVec.ofNat_toNat, BitVec.setWidth_eq]
  · obtain ⟨number, hread, hwritten⟩ := exists_base36From fun char hchar =>
      hother char (List.mem_of_mem_drop hchar)
    refine ⟨number, hread, fun hlarge => ?_, fun hfits => ?_⟩
    · rw [hnumber hread, if_neg (Nat.not_lt.mpr hlarge)]
    · have hvalue : (BitVec.ofNat 160 number).toNat = number := by
        rw [BitVec.toNat_ofNat, Nat.mod_eq_of_lt hfits]
      refine ⟨⟨BitVec.ofNat 160 number⟩, ?_, hvalue, by rw [hnumber hread, if_pos hfits]⟩
      -- the same number would have the same digits
      rintro rfl
      rw [← hvalue] at hwritten
      have hdigits : (other.toList.drop 4).length = (body ⟨BitVec.ofNat 160 number⟩).length := by
        rw [List.length_drop]
        omega
      exact hdiffer ((body_eq_of_base36Digits hdigits hwritten).trans hbody.symm)

/-- The largest address is followed by numbers that are too large for an address. -/
theorem toAddress_of_replaced_first_digit :
    let address : Address := ⟨BitVec.allOnes 160⟩
    let other := "TH25ZWJ4YIDKW7A8PN4G709KZMFOAOL3X8F"
    IsReplaced (ofAddress address) other ∧ isValid other = false ∧
      toAddress other = .error .overflow := by
  intro address other
  have hreplaced : IsReplaced (ofAddress address) other :=
    ⟨'T', 'Z', .inr ⟨rfl, rfl⟩, by decide, ['T', 'H', '2', '5'],
      "WJ4YIDKW7A8PN4G709KZMFOAOL3X8F".toList, by decide +kernel, by decide +kernel⟩
  obtain ⟨hinvalid, -, hbehind⟩ := toAddress_of_replaced hreplaced
  obtain ⟨number, hread, hlarge, -⟩ := hbehind (by decide +kernel)
  have hnumber : base36From 0 (other.toList.drop 4) =
      .ok 1754743705215038463139621346358930642849897644031 := by
    decide +kernel
  rw [hread, Except.ok.injEq] at hnumber
  exact ⟨hreplaced, hinvalid, hlarge (by rw [hnumber]; decide)⟩

/-- Another last letter makes another payee. -/
theorem toAddress_other_payee :
    let address : Address := ⟨0x08d04fc4513e27854ac19f16b9b8cb8d564e2c68⟩
    let other := "TH93112A8NT0RIRPIXR7IXJBB1U0ZBXEB1L"
    IsReplaced (ofAddress address) other ∧
      toAddress other = .ok ⟨0x08d04fc4513e27854ac19f16b9b8cb8d564e2c69⟩ := by
  intro address other
  refine ⟨⟨'K', 'L', .inr ⟨rfl, rfl⟩, by decide, "TH93112A8NT0RIRPIXR7IXJBB1U0ZBXEB1".toList, [],
    ?_, ?_⟩, ?_⟩
  · decide +kernel
  · decide +kernel
  · decide +kernel

end Iban

end ChainClient
