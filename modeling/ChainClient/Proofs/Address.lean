import Mathlib.Algebra.Ring.Nat
import ChainClient.Proofs.Bytes
import ChainClient.Proofs.Text.Spelling

/-!
# Addresses in text

The checksum of an address only raises letters, so its digits still spell the address, and of
all spellings it is a single one. A text is taken for an address if its digits spell the address
in one case, where a checksum was not meant, or exactly as the checksum asks.
-/

namespace ChainClient

namespace Address

open Text

/-! ## Checksummed digits -/

/-- The digits of the checksummed text of an address. -/
def checkedDigits (address : Address) : List Char :=
  checksumDigits (Hex.digitsOf address.toBytes)

theorem toChecksum_eq_iff {address : Address} {digits : List Char} :
    address.toChecksum = "0x" ++ String.ofList digits ↔ digits = checkedDigits address := by
  rw [toChecksum, toLowerHex, Hex.toList_encode, ← String.toList_inj, String.toList_append,
    String.toList_append, List.append_cancel_left_eq, String.toList_ofList, String.toList_ofList]
  exact eq_comm

theorem length_nibbles (digest : Word) : (nibbles digest).length = 64 := by
  have htwo : digest.toBytes.map (fun _ => 2) = List.replicate 32 2 := by
    rw [List.map_const', Word.length_toBytes]
  rw [nibbles, List.length_flatMap]
  exact congrArg List.sum htwo

/-- Letters that are raised or left as they are, are the same letters in lower case. -/
theorem map_toLower_zipWith {marks : List Nat} {digits : List Char}
    (hlength : digits.length ≤ marks.length)
    (hdigits : ∀ char ∈ digits, ∃ value < 16, char = Hex.digitChar value) :
    (List.zipWith (fun mark digit => if 8 ≤ mark then digit.toUpper else digit) marks digits).map
      Char.toLower = digits := by
  have hcases : ∀ value < 16, (Hex.digitChar value).toLower = Hex.digitChar value ∧
      (Hex.digitChar value).toUpper.toLower = Hex.digitChar value := by
    decide
  induction digits generalizing marks with
  | nil => simp
  | cons digit digits ih =>
      cases marks with
      | nil => simp at hlength
      | cons mark marks =>
          obtain ⟨hdigit, hothers⟩ := List.forall_mem_cons.mp hdigits
          obtain ⟨value, hvalue, rfl⟩ := hdigit
          obtain ⟨hsmall, hlarge⟩ := hcases value hvalue
          rw [List.zipWith_cons_cons, List.map_cons, ih (Nat.le_of_succ_le_succ hlength) hothers]
          split
          · rw [hlarge]
          · rw [hsmall]

theorem isSpelling_checkedDigits (address : Address) :
    Hex.IsSpelling (checkedDigits address) address.toBytes := by
  rw [Hex.IsSpelling, checkedDigits, checksumDigits]
  refine map_toLower_zipWith ?_ fun char hchar => Hex.exists_of_mem_digitsOf hchar
  rw [length_nibbles, Hex.length_digitsOf, length_toBytes]
  decide

/-! ## Texts of addresses -/

theorem toBytes_inj {first second : Address} (hbytes : first.toBytes = second.toBytes) :
    first = second := by
  rw [← ofLastBytes_toBytes first, hbytes, ofLastBytes_toBytes]

/-- Forty digits spell one address. -/
theorem exists_isSpelling_iff {digits : List Char} :
    (∃ address : Address, Hex.IsSpelling digits address.toBytes) ↔
      (String.ofList digits).utf8ByteSize = digitCount ∧ areHexDigits digits = true := by
  rw [areHexDigits, List.all_eq_true]
  constructor
  · rintro ⟨address, hspelling⟩
    refine ⟨by rw [hspelling.utf8ByteSize_eq, length_toBytes]; rfl, fun char hchar => ?_⟩
    exact Option.isSome_iff_exists.mpr (hspelling.exists_digit? hchar)
  · rintro ⟨hsize, hdigits⟩
    have hbasic : ∀ char ∈ digits, char.toNat < 128 := by
      intro char hchar
      obtain ⟨value, hvalue⟩ := Option.isSome_iff_exists.mp (hdigits char hchar)
      exact Hex.toNat_lt_of_digit? hvalue
    rw [utf8ByteSize_ofList hbasic] at hsize
    obtain ⟨bytes, hbytes⟩ := Hex.exists_isSpelling hdigits (by rw [hsize]; rfl)
    have hlength : bytes.length = size := by
      have hdouble := hbytes.length_eq
      rw [hsize, digitCount] at hdouble
      rw [size]
      omega
    exact ⟨ofLastBytes bytes, by rwa [toBytes_ofLastBytes hlength]⟩

theorem checksummed_eq_ok_iff {text expected : String} :
    checksummed text = .ok expected ↔
      (∃ address : Address, Hex.IsSpelling (Hex.dropMark text.toList) address.toBytes) ∧
        expected = "0x" ++ String.ofList
          (checksumDigits ((Hex.dropMark text.toList).map Char.toLower)) := by
  rw [exists_isSpelling_iff]
  by_cases hlength : (String.ofList (Hex.dropMark text.toList)).utf8ByteSize = digitCount
  · cases hdigits : areHexDigits (Hex.dropMark text.toList) with
    | false => simp [checksummed, hlength, hdigits]
    | true => simp [checksummed, hlength, hdigits, eq_comm]
  · simp [checksummed, hlength]

/-- A text passes the check if its digits are those of the checksummed text of an address. -/
theorem isChecksummed_iff {text : String} :
    isChecksummed text = true ↔
      ∃ address, Hex.dropMark text.toList = checkedDigits address := by
  have hstrip {digits : List Char} :
      Hex.stripPrefix ("0x" ++ String.ofList digits) = String.ofList digits := by
    rw [Hex.stripPrefix, String.toList_append, String.toList_ofList, String.toList_ofList]
    rfl
  constructor
  · intro hchecked
    cases hexpected : checksummed text with
    | error error =>
        rw [isChecksummed, hexpected] at hchecked
        cases hchecked
    | ok expected =>
        obtain ⟨⟨address, hspelling⟩, rfl⟩ := checksummed_eq_ok_iff.mp hexpected
        -- what is expected is computed from the digits in lower case, those of the address
        simp only [isChecksummed, hexpected, hstrip, hspelling.map_toLower, beq_iff_eq] at hchecked
        exact ⟨address, (String.ofList_injective hchecked).symm⟩
  · rintro ⟨address, hdigits⟩
    have hspelling := isSpelling_checkedDigits address
    rw [← hdigits] at hspelling
    have hexpected := checksummed_eq_ok_iff.mpr ⟨⟨address, hspelling⟩, rfl⟩
    simp only [isChecksummed, hexpected, hstrip, hspelling.map_toLower, beq_iff_eq]
    rw [Hex.stripPrefix, hdigits]
    rfl

/-- Digits of an address pass the check if they are those of its checksummed text. -/
theorem isChecksummed_of_isMarked {text : String} {digits : List Char} {address : Address}
    (hmarked : Hex.IsMarked text digits) (hspelling : Hex.IsSpelling digits address.toBytes) :
    isChecksummed text = true ↔ digits = checkedDigits address := by
  rw [isChecksummed_iff, (Hex.dropMark_eq_iff hspelling).mpr hmarked]
  constructor
  · rintro ⟨other, hdigits⟩
    have hother := isSpelling_checkedDigits other
    rw [← hdigits] at hother
    rw [hdigits, toBytes_inj (hspelling.unique hother)]
  · exact fun hdigits => ⟨address, hdigits⟩

/-- Digits in one case are taken as they are, and others are checked. -/
theorem parse_eq_ok_iff {text : String} {address : Address} :
    parse text = .ok address ↔
      Hex.IsSpelling (Hex.dropMark text.toList) address.toBytes ∧
        (isMixedCase (Hex.dropMark text.toList) = true →
          isChecksummed (Hex.stripPrefix text) = true) := by
  have hdigits : (Hex.stripPrefix text).toList = Hex.dropMark text.toList := String.toList_ofList
  constructor
  · intro hparse
    simp only [parse, hdigits] at hparse
    split at hparse
    next => cases hparse
    split at hparse
    next => cases hparse
    next bytes hbytes =>
      split at hparse
      next => cases hparse
      next haccepted =>
        rw [ofBytes] at hparse
        split at hparse
        next hlength =>
          cases hparse
          rw [Hex.decodeDigits_eq_ok_iff, hdigits] at hbytes
          refine ⟨by rwa [toBytes_ofLastBytes hlength], fun hmixed => ?_⟩
          simpa [hmixed] using haccepted
        next => cases hparse
  · rintro ⟨hspelling, hchecked⟩
    have hsize : (Hex.stripPrefix text).utf8ByteSize = digitCount := by
      rw [Hex.stripPrefix, hspelling.utf8ByteSize_eq, length_toBytes]
      rfl
    have hdecode : Hex.decodeDigits (Hex.stripPrefix text) = .ok address.toBytes := by
      rw [Hex.decodeDigits_eq_ok_iff, hdigits]
      exact hspelling
    have hbytes : ofBytes address.toBytes = .ok address := by
      rw [ofBytes, length_toBytes, ofLastBytes_toBytes]
      rfl
    have haccepted : (isMixedCase (Hex.dropMark text.toList) &&
        !isChecksummed (Hex.stripPrefix text)) = false := by
      cases hmixed : isMixedCase (Hex.dropMark text.toList) with
      | false => rfl
      | true => rw [hchecked hmixed]; rfl
    simp only [parse, hsize, hdecode, hdigits, haccepted, hbytes]
    rfl

theorem isMixedCase_eq_false_iff {digits : List Char} :
    isMixedCase digits = false ↔
      (∀ char ∈ digits, char.isLower = false) ∨ (∀ char ∈ digits, char.isUpper = false) := by
  rw [isMixedCase, Bool.and_eq_false_iff, List.any_eq_false, List.any_eq_false]
  simp only [Bool.not_eq_true]

/-! ## Accepted texts -/

/-- Digits leave no doubt about an address if they are in one case, where no checksum is meant,
or in the cases of its checksum. -/
def IsUnambiguous (digits : List Char) (address : Address) : Prop :=
  (∀ char ∈ digits, char.isLower = false) ∨ (∀ char ∈ digits, char.isUpper = false) ∨
    address.toChecksum = "0x" ++ String.ofList digits

/-- The case of some letters has been changed. -/
def IsRecased (digits others : List Char) : Prop :=
  others ≠ digits ∧ others.map Char.toLower = digits.map Char.toLower

/-- Digits that spell an address leave no doubt about it unless their cases are mixed in another
way than that of its checksum. -/
theorem isUnambiguous_iff {digits : List Char} {address : Address}
    (hspelling : Hex.IsSpelling digits address.toBytes) :
    IsUnambiguous digits address ↔
      (isMixedCase digits = true → isChecksummed (String.ofList digits) = true) := by
  have hmarked : Hex.IsMarked (String.ofList digits) digits := .inl String.toList_ofList
  rw [isChecksummed_of_isMarked hmarked hspelling, ← toChecksum_eq_iff, IsUnambiguous, ← or_assoc,
    ← isMixedCase_eq_false_iff]
  cases isMixedCase digits <;> simp

/-- A text is accepted as an address if, behind a mark or without one, its forty digits spell the
address without doubt. It passes the check if these are the digits of the checksummed text, so
none that differ from them in case pass it. -/
theorem accepts_unambiguous (text : String) (address : Address) :
    (parse text = .ok address ↔ ∃ digits, Hex.IsMarked text digits ∧ digits.length = 40 ∧
      Hex.IsSpelling digits address.toBytes ∧ IsUnambiguous digits address) ∧
    (isChecksummed text = true ↔ ∃ spelled : Address, ∃ digits,
      Hex.IsMarked text digits ∧ digits.length = 40 ∧ Hex.IsSpelling digits spelled.toBytes ∧
        spelled.toChecksum = "0x" ++ String.ofList digits) ∧
    ∀ digits others, address.toChecksum = "0x" ++ String.ofList digits →
      IsRecased digits others → Hex.IsMarked text others → isChecksummed text = false := by
  have hforty {digits : List Char} {spelled : Address}
      (hspelling : Hex.IsSpelling digits spelled.toBytes) : digits.length = 40 := by
    rw [hspelling.length_eq, length_toBytes]
  refine ⟨?_, ?_, ?_⟩
  · rw [parse_eq_ok_iff]
    constructor
    · rintro ⟨hspelling, hchecked⟩
      exact ⟨_, (Hex.dropMark_eq_iff hspelling).mp rfl, hforty hspelling, hspelling,
        (isUnambiguous_iff hspelling).mpr hchecked⟩
    · rintro ⟨digits, hmarked, -, hspelling, hunambiguous⟩
      rw [Hex.stripPrefix, (Hex.dropMark_eq_iff hspelling).mpr hmarked]
      exact ⟨hspelling, (isUnambiguous_iff hspelling).mp hunambiguous⟩
  · constructor
    · intro hchecked
      obtain ⟨spelled, hdigits⟩ := isChecksummed_iff.mp hchecked
      have hspelling := isSpelling_checkedDigits spelled
      exact ⟨spelled, _, (Hex.dropMark_eq_iff hspelling).mp hdigits, hforty hspelling, hspelling,
        toChecksum_eq_iff.mpr rfl⟩
    · rintro ⟨spelled, digits, hmarked, -, hspelling, hdigits⟩
      exact (isChecksummed_of_isMarked hmarked hspelling).mpr (toChecksum_eq_iff.mp hdigits)
  · rintro digits others hdigits ⟨hne, hlower⟩ hmarked
    rw [toChecksum_eq_iff] at hdigits
    have hspelling : Hex.IsSpelling others address.toBytes := by
      rw [Hex.IsSpelling, hlower, hdigits]
      exact isSpelling_checkedDigits address
    rw [← Bool.not_eq_true, isChecksummed_of_isMarked hmarked hspelling, ← hdigits]
    exact hne

/-- The first letter is no longer raised, and the mark is written in upper case. -/
theorem accepts_unambiguous_recased :
    let address : Address := ⟨0x08d04fc4513e27854ac19f16b9b8cb8d564e2c68⟩
    let digits := "08D04fc4513e27854ac19f16B9b8cB8D564e2c68".toList
    let others := "08d04fc4513e27854ac19f16B9b8cB8D564e2c68".toList
    let text := "0X08d04fc4513e27854ac19f16B9b8cB8D564e2c68"
    address.toChecksum = "0x" ++ String.ofList digits ∧ IsRecased digits others ∧
      Hex.IsMarked text others ∧ isChecksummed text = false := by
  intro address digits others text
  have hdigits : address.toChecksum = "0x" ++ String.ofList digits := by decide +kernel
  have hrecased : IsRecased digits others := ⟨by decide +kernel, by decide +kernel⟩
  have hmarked : Hex.IsMarked text others := .inr (.inr (by decide +kernel))
  exact ⟨hdigits, hrecased, hmarked,
    (accepts_unambiguous text address).2.2 digits others hdigits hrecased hmarked⟩

end Address

end ChainClient
