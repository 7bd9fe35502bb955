import ChainClient.Proofs.Text.Case
import ChainClient.Proofs.Text.Hex

/-!
# Spellings of bytes

Bytes are spelled by their digits, each in upper or in lower case, and a text may have a mark
in front of them. These texts are exactly those that are decoded, and each is decoded to the
bytes that it spells.
-/

namespace ChainClient.Text.Hex

/-- The characters are the digits of the bytes, each in either case. -/
def IsSpelling (digits : List Char) (bytes : Bytes) : Prop :=
  digits.map Char.toLower = digitsOf bytes

instance (digits : List Char) (bytes : Bytes) : Decidable (IsSpelling digits bytes) :=
  inferInstanceAs (Decidable (digits.map Char.toLower = digitsOf bytes))

/-- The text consists of the characters, or of a mark in either case and the characters. -/
def IsMarked (text : String) (digits : List Char) : Prop :=
  text.toList = digits ∨ text.toList = '0' :: 'x' :: digits ∨ text.toList = '0' :: 'X' :: digits

/-- The text spells the bytes, with a mark or without one. -/
def Spells (text : String) (bytes : Bytes) : Prop :=
  ∃ digits, IsMarked text digits ∧ IsSpelling digits bytes

/-! ## Digits -/

theorem digitChar_cases {value : Nat} (hvalue : value < 16) :
    (value < 10 ∧ (digitChar value).toNat = 48 + value) ∨
      (10 ≤ value ∧ (digitChar value).toNat = 87 + value) := by
  have hall : ∀ value < 16, (value < 10 ∧ (digitChar value).toNat = 48 + value) ∨
      (10 ≤ value ∧ (digitChar value).toNat = 87 + value) := by
    decide
  exact hall value hvalue

/-- A digit is read as the value whose character it is in lower case. -/
theorem digit?_eq_some_iff {char : Char} {value : Nat} :
    digit? char = some value ↔ value < 16 ∧ char.toLower = digitChar value := by
  have hlower := toLower_cases char
  have hvalue := @digitChar_cases value
  rw [← Char.toNat_inj, digit?, digitInRadix?, Option.filter_eq_some_iff, digitValue?]
  simp only [Char.reduceToNat, decide_eq_true_eq]
  split
  · rw [Option.some.injEq]
    omega
  split
  · rw [Option.some.injEq]
    omega
  split
  · rw [Option.some.injEq]
    omega
  · simp only [reduceCtorEq, false_and, false_iff]
    omega

theorem toNat_lt_of_digit? {char : Char} {value : Nat} (hdigit : digit? char = some value) :
    char.toNat < 128 := by
  obtain ⟨hvalue, hlower⟩ := digit?_eq_some_iff.mp hdigit
  have hcases := toLower_cases char
  have hchar := digitChar_cases hvalue
  rw [← hlower] at hchar
  omega

/-- Two digits are read as a byte if they are its digits. -/
theorem byte_eq_iff {high low : Char} {upper lower : Nat} (hupper : digit? high = some upper)
    (hlower : digit? low = some lower) (byte : UInt8) :
    UInt8.ofNat (upper * 16 + lower) = byte ↔
      high.toLower = digitChar (byte.toNat / 16) ∧ low.toLower = digitChar (byte.toNat % 16) := by
  have hbyte := byte.toNat_lt
  have hvalue {char : Char} {value other : Nat} (hread : digit? char = some value)
      (hother : other < 16) : char.toLower = digitChar other ↔ value = other := by
    have hsome := @digit?_eq_some_iff char other
    rw [hread, Option.some.injEq, and_iff_right hother] at hsome
    exact hsome.symm
  have hbounds := (digit?_eq_some_iff.mp hupper).1
  have hbounds' := (digit?_eq_some_iff.mp hlower).1
  rw [hvalue hupper (by omega), hvalue hlower (by omega), ← UInt8.toNat_inj, UInt8.toNat_ofNat']
  omega

/-! ## Runs of digits -/

theorem isSpelling_nil {bytes : Bytes} : IsSpelling [] bytes ↔ bytes = [] := by
  cases bytes with
  | nil => exact iff_of_true rfl rfl
  | cons byte bytes => exact iff_of_false (List.cons_ne_nil _ _ ·.symm) (List.cons_ne_nil _ _)

theorem not_isSpelling_singleton {char : Char} {bytes : Bytes} : ¬ IsSpelling [char] bytes := by
  cases bytes <;> simp [IsSpelling, digitsOf]

theorem isSpelling_cons {high low : Char} {digits : List Char} {bytes : Bytes} :
    IsSpelling (high :: low :: digits) bytes ↔ ∃ byte rest, bytes = byte :: rest ∧
      high.toLower = digitChar (byte.toNat / 16) ∧ low.toLower = digitChar (byte.toNat % 16) ∧
      IsSpelling digits rest := by
  cases bytes with
  | nil => simp [IsSpelling, digitsOf]
  | cons byte rest =>
      simp only [IsSpelling, digitsOf, List.map_cons, List.cons.injEq]
      constructor
      · rintro ⟨hhigh, hlow, hrest⟩
        exact ⟨byte, rest, ⟨rfl, rfl⟩, hhigh, hlow, hrest⟩
      · rintro ⟨_, _, ⟨rfl, rfl⟩, hhigh, hlow, hrest⟩
        exact ⟨hhigh, hlow, hrest⟩

/-- Digits are read as the bytes that they spell, and nothing else is read. -/
theorem pairs?_eq_ok_iff {position : Nat} {digits : List Char} {bytes : Bytes} :
    pairs? position digits = .ok bytes ↔ IsSpelling digits bytes := by
  fun_induction pairs? position digits generalizing bytes with
  | case1 =>
      rw [isSpelling_nil, Except.ok.injEq]
      exact eq_comm
  | case2 => exact iff_of_false nofun not_isSpelling_singleton
  | case3 => exact iff_of_false nofun not_isSpelling_singleton
  | case4 position high low rest hhigh =>
      refine iff_of_false nofun fun hspelling => ?_
      obtain ⟨byte, others, -, hcase, -⟩ := isSpelling_cons.mp hspelling
      have hbyte := byte.toNat_lt
      rw [digit?_eq_some_iff.mpr ⟨by omega, hcase⟩] at hhigh
      cases hhigh
  | case5 position high low rest upper hlow hhigh =>
      refine iff_of_false nofun fun hspelling => ?_
      obtain ⟨byte, others, -, -, hcase, -⟩ := isSpelling_cons.mp hspelling
      rw [digit?_eq_some_iff.mpr ⟨Nat.mod_lt _ (by decide), hcase⟩] at hlow
      cases hlow
  | case6 position high low rest upper lower hlow hhigh ih =>
      rw [isSpelling_cons]
      constructor
      · intro hread
        cases hrest : pairs? (position + 2) rest with
        | error error =>
            rw [hrest] at hread
            cases hread
        | ok others =>
            rw [hrest] at hread
            cases hread
            obtain ⟨hleft, hright⟩ := (byte_eq_iff hhigh hlow _).mp rfl
            exact ⟨_, others, rfl, hleft, hright, ih.mp hrest⟩
      · rintro ⟨byte, others, rfl, hleft, hright, hspelling⟩
        rw [ih.mpr hspelling, (byte_eq_iff hhigh hlow byte).mpr ⟨hleft, hright⟩]
        rfl

/-- An even number of digits spells some bytes. -/
theorem exists_isSpelling {digits : List Char}
    (hdigits : ∀ char ∈ digits, (digit? char).isSome = true) (heven : digits.length % 2 = 0) :
    ∃ bytes, IsSpelling digits bytes := by
  fun_induction pairs? 0 digits with
  | case1 => exact ⟨[], rfl⟩
  | case2 => cases heven
  | case3 => cases heven
  | case4 position high low rest hhigh =>
      have hsome := hdigits high List.mem_cons_self
      rw [hhigh] at hsome
      cases hsome
  | case5 position high low rest upper hlow hhigh =>
      have hsome := hdigits low (List.mem_cons_of_mem _ List.mem_cons_self)
      rw [hlow] at hsome
      cases hsome
  | case6 position high low rest upper lower hlow hhigh ih =>
      have hrest : rest.length % 2 = 0 := by
        rw [List.length_cons, List.length_cons] at heven
        omega
      obtain ⟨bytes, hbytes⟩ := ih (fun char hchar =>
        hdigits char (List.mem_cons_of_mem _ (List.mem_cons_of_mem _ hchar))) hrest
      obtain ⟨hleft, hright⟩ := (byte_eq_iff hhigh hlow _).mp rfl
      exact ⟨_, isSpelling_cons.mpr ⟨_, bytes, rfl, hleft, hright, hbytes⟩⟩

namespace IsSpelling

variable {digits : List Char} {bytes : Bytes}

theorem map_toLower (hspelling : IsSpelling digits bytes) :
    digits.map Char.toLower = digitsOf bytes :=
  hspelling

theorem exists_digit? (hspelling : IsSpelling digits bytes) {char : Char} (hchar : char ∈ digits) :
    ∃ value, digit? char = some value := by
  have hlower : char.toLower ∈ digitsOf bytes := by
    rw [← hspelling.map_toLower]
    exact List.mem_map_of_mem hchar
  obtain ⟨value, hvalue, hdigit⟩ := exists_of_mem_digitsOf hlower
  exact ⟨value, digit?_eq_some_iff.mpr ⟨hvalue, hdigit⟩⟩

theorem length_eq (hspelling : IsSpelling digits bytes) : digits.length = 2 * bytes.length := by
  rw [← length_digitsOf, ← hspelling.map_toLower, List.length_map]

theorem toNat_lt (hspelling : IsSpelling digits bytes) : ∀ char ∈ digits, char.toNat < 128 := by
  intro char hchar
  obtain ⟨value, hvalue⟩ := hspelling.exists_digit? hchar
  exact toNat_lt_of_digit? hvalue

theorem utf8ByteSize_eq (hspelling : IsSpelling digits bytes) :
    (String.ofList digits).utf8ByteSize = 2 * bytes.length := by
  rw [utf8ByteSize_ofList hspelling.toNat_lt, hspelling.length_eq]

/-- Digits spell only one byte string. -/
theorem unique {other : Bytes} (hspelling : IsSpelling digits bytes)
    (hother : IsSpelling digits other) : bytes = other :=
  digitsOf_injective (hspelling.map_toLower.symm.trans hother)

end IsSpelling

theorem isSpelling_digitsOf (bytes : Bytes) : IsSpelling (digitsOf bytes) bytes := by
  have hlower : ∀ value < 16, (digitChar value).toLower = digitChar value := by decide
  refine (List.map_congr_left fun char hchar => ?_).trans (List.map_id _)
  obtain ⟨value, hvalue, rfl⟩ := exists_of_mem_digitsOf hchar
  exact hlower value hvalue

/-- Digits in upper case spell the same bytes. -/
theorem isSpelling_map_toUpper (bytes : Bytes) :
    IsSpelling ((digitsOf bytes).map Char.toUpper) bytes := by
  have hlower : ∀ value < 16, (digitChar value).toUpper.toLower = digitChar value := by decide
  rw [IsSpelling, List.map_map]
  refine (List.map_congr_left fun char hchar => ?_).trans (List.map_id _)
  obtain ⟨value, hvalue, rfl⟩ := exists_of_mem_digitsOf hchar
  exact hlower value hvalue

/-! ## Texts -/

theorem decodeDigits_eq_ok_iff {text : String} {bytes : Bytes} :
    decodeDigits text = .ok bytes ↔ IsSpelling text.toList bytes := by
  rw [decodeDigits]
  split
  next hodd =>
    refine iff_of_false (by rintro ⟨⟩) fun hspelling => ?_
    have hsize := hspelling.utf8ByteSize_eq
    rw [String.ofList_toList] at hsize
    omega
  next => exact pairs?_eq_ok_iff

theorem dropMark_cases (text : List Char) :
    text = dropMark text ∨ text = '0' :: 'x' :: dropMark text ∨
      text = '0' :: 'X' :: dropMark text := by
  unfold dropMark
  split
  · exact .inr (.inl rfl)
  · exact .inr (.inr rfl)
  · exact .inl rfl

/-- What is left of a text without its mark is what the mark stands in front of, if that
consists of digits. -/
theorem dropMark_eq_iff {text : String} {digits : List Char} {bytes : Bytes}
    (hspelling : IsSpelling digits bytes) :
    dropMark text.toList = digits ↔ IsMarked text digits := by
  -- the letter of a mark is no digit, so digits do not begin with a mark
  have hunmarked (char : Char) (hchar : digit? char = none) : char ∉ digits := by
    intro hmem
    obtain ⟨value, hvalue⟩ := hspelling.exists_digit? hmem
    cases hchar.symm.trans hvalue
  constructor
  · rintro rfl
    exact dropMark_cases text.toList
  · rintro (hbare | hmarked | hmarked)
    · rw [hbare]
      rcases dropMark_cases digits with hsame | hsmall | hlarge
      · exact hsame.symm
      · exact absurd (by rw [hsmall]; simp) (hunmarked 'x' rfl)
      · exact absurd (by rw [hlarge]; simp) (hunmarked 'X' rfl)
    · rw [hmarked]
      rfl
    · rw [hmarked]
      rfl

theorem Spells.length_le {text : String} {bytes : Bytes} (hspells : Spells text bytes) :
    2 * bytes.length ≤ text.utf8ByteSize := by
  obtain ⟨digits, hmarked, hspelling⟩ := hspells
  have htext : (∀ char ∈ text.toList, char.toNat < 128) ∧ digits.length ≤ text.toList.length := by
    rcases hmarked with hbare | hmarked | hmarked
    · rw [hbare]
      exact ⟨hspelling.toNat_lt, Nat.le_refl _⟩
    · rw [hmarked, List.forall_mem_cons, List.forall_mem_cons, List.length_cons, List.length_cons]
      exact ⟨⟨by decide, by decide, hspelling.toNat_lt⟩, by omega⟩
    · rw [hmarked, List.forall_mem_cons, List.forall_mem_cons, List.length_cons, List.length_cons]
      exact ⟨⟨by decide, by decide, hspelling.toNat_lt⟩, by omega⟩
  rw [← hspelling.length_eq, ← String.ofList_toList (s := text), utf8ByteSize_ofList htext.1]
  exact htext.2

/-- A text is decoded to the bytes that it spells, and no other text is decoded. -/
theorem decode_eq_ok_iff {text : String} {bytes : Bytes} :
    decode text = .ok bytes ↔ Spells text bytes := by
  rw [decode, decodeDigits_eq_ok_iff, stripPrefix, String.toList_ofList]
  constructor
  · intro hspelling
    exact ⟨_, (dropMark_eq_iff hspelling).mp rfl, hspelling⟩
  · rintro ⟨digits, hmarked, hspelling⟩
    rwa [(dropMark_eq_iff hspelling).mpr hmarked]

end ChainClient.Text.Hex
