import ChainClient.Proofs.Json.Record
import ChainClient.Proofs.Text.Numeral

/-!
# Literals of numbers

A literal without a sign, a fraction, and an exponent is a number written with the fewest
digits; a literal with one of them has a character that is no digit. Settling keeps this up to
two exceptions: zero loses its sign, and an integer beyond 128 bits that is the shortest
decimal of a number in 64 bits gets a point or an exponent.
-/

namespace ChainClient.Json

open Text Number

/-! ## Reading in decimal -/

/-- Some character is neither a digit nor an underscore. -/
def IsForeign (text : List Char) : Prop :=
  ∃ char ∈ text, char.isDigit = false ∧ char ≠ '_'

theorem IsForeign.append_left {text : List Char} (htext : IsForeign text) (before : List Char) :
    IsForeign (before ++ text) := by
  obtain ⟨char, hchar, hforeign⟩ := htext
  exact ⟨char, List.mem_append_right before hchar, hforeign⟩

/-- A way to read texts by which written numbers are read as themselves, and nothing is read
from a text with a foreign character. -/
structure IsDecimal (reads : List Char → Nat → Prop) : Prop where
  written {size number : Nat} : reads (Nat.toDigits 10 size) number ↔ size = number
  foreign {text : List Char} {number : Nat} (htext : IsForeign text) : ¬ reads text number

theorem isDecimal_isBroken : IsDecimal (IsBroken 10) where
  written {size number} := by
    obtain ⟨hnonempty, hsize⟩ := isNumeral_toDigits size
    rw [IsBroken, and_iff_right hnonempty, filter_eq_self (by decide) hsize]
    constructor
    · exact hsize.unique (by decide)
    · rintro rfl
      exact hsize
  foreign := by
    rintro text number ⟨char, hchar, hdigit, hunderscore⟩ ⟨-, hdenotes⟩
    have hmem : char ∈ text.filter (· ≠ '_') :=
      List.mem_filter.mpr ⟨hchar, decide_eq_true hunderscore⟩
    rw [isDigit_of_denotes hdenotes char hmem] at hdigit
    exact Bool.noConfusion hdigit

theorem isDecimal_isNumeral : IsDecimal (IsNumeral 10) where
  written {size number} := by
    constructor
    · exact fun hnumeral => isDecimal_isBroken.written.mp (hnumeral.isBroken (by decide))
    · rintro rfl
      exact isNumeral_toDigits size
  foreign htext hnumeral := isDecimal_isBroken.foreign htext (hnumeral.isBroken (by decide))

theorem toList_toString_nat (number : Nat) : (toString number).toList = Nat.toDigits 10 number :=
  Nat.toList_repr

theorem toString_inj {first second : Nat} : toString first = toString second ↔ first = second := by
  rw [← String.toList_inj, toList_toString_nat, toList_toString_nat]
  constructor
  · intro heq
    exact isDecimal_isNumeral.written.mp (heq ▸ isNumeral_toDigits second)
  · rintro rfl
    rfl

/-! ## Parts of a literal -/

theorem append_of_digitRun? {text digits rest : List Char}
    (hrun : digitRun? text = some (digits, rest)) :
    text = digits ++ rest ∧ digits ≠ [] ∧ ∀ digit ∈ digits, digit.isDigit = true := by
  have happend := List.takeWhile_append_dropWhile (p := Char.isDigit) (l := text)
  rw [digitRun?, List.span_eq_takeWhile_dropWhile] at hrun
  split at hrun
  next => cases hrun
  next hnonempty hspan =>
    obtain ⟨hdigits, hrest⟩ := Prod.mk.inj hspan
    obtain ⟨rfl, rfl⟩ := Prod.mk.inj (Option.some.inj hrun)
    rw [hdigits, hrest] at happend
    refine ⟨happend.symm, ?_, ?_⟩
    · rintro rfl
      exact hnonempty rfl
    · rw [← hdigits]
      exact fun digit hdigit => List.mem_takeWhile_imp hdigit

/-- The whole part is written with the fewest digits. -/
theorem append_of_wholePart? {text whole rest : List Char}
    (hwhole : wholePart? text = some (whole, rest)) :
    ∃ size, whole = Nat.toDigits 10 size ∧ text = whole ++ rest := by
  unfold wholePart? at hwhole
  split at hwhole
  next rest' =>
    have hzero : ∀ {tail : List Char}, some (['0'], tail) = some (whole, rest) →
        ∃ size, whole = Nat.toDigits 10 size ∧ '0' :: tail = whole ++ rest := by
      intro tail htail
      obtain ⟨rfl, rfl⟩ := Prod.mk.inj (Option.some.inj htail)
      exact ⟨0, rfl, rfl⟩
    split at hwhole
    next =>
      split at hwhole
      next => cases hwhole
      next => exact hzero hwhole
    next => exact hzero hwhole
  next hnonzero =>
    obtain ⟨rfl, hnonempty, hdigits⟩ := append_of_digitRun? hwhole
    have hread := digits?_ten_eq_some_iff.mpr ⟨hnonempty, hdigits, rfl⟩
    refine ⟨_, (toDigits_of_digits? hread ?_).symm, rfl⟩
    intro hhead
    obtain ⟨tail, rfl⟩ := List.head?_eq_some_iff.mp hhead
    exact hnonzero _ rfl

theorem cases_of_fraction? {text fraction rest : List Char}
    (hfraction : fraction? text = some (fraction, rest)) :
    (fraction = [] ∧ text = rest) ∨ (fraction ≠ [] ∧ IsForeign text) := by
  unfold fraction? at hfraction
  split at hfraction
  next =>
    obtain ⟨-, hnonempty, -⟩ := append_of_digitRun? hfraction
    exact .inr ⟨hnonempty, '.', List.mem_cons_self, by decide, by decide⟩
  next =>
    obtain ⟨rfl, rfl⟩ := Prod.mk.inj (Option.some.inj hfraction)
    exact .inl ⟨rfl, rfl⟩

theorem cases_of_exponent? {text exponent rest : List Char}
    (hexponent : exponent? text = some (exponent, rest)) :
    (exponent = [] ∧ text = rest) ∨ (exponent ≠ [] ∧ IsForeign text) := by
  unfold exponent? at hexponent
  split at hexponent
  next letter tail =>
    split at hexponent
    next hletter =>
      obtain ⟨parts, -, hparts⟩ := Option.map_eq_some_iff.mp hexponent
      obtain ⟨rfl, -⟩ := Prod.mk.inj hparts
      refine .inr ⟨List.cons_ne_nil _ _, letter, List.mem_cons_self, ?_, ?_⟩
      · obtain rfl | rfl := hletter <;> decide
      · obtain rfl | rfl := hletter <;> decide
    next =>
      obtain ⟨rfl, rfl⟩ := Prod.mk.inj (Option.some.inj hexponent)
      exact .inl ⟨rfl, rfl⟩
  next =>
    obtain ⟨rfl, rfl⟩ := Prod.mk.inj (Option.some.inj hexponent)
    exact .inl ⟨rfl, rfl⟩

/-- The parts behind the sign: the whole part and what makes a literal no integer. -/
theorem cases_of_parts {text whole fraction exponent rest behind : List Char}
    (hwhole : wholePart? text = some (whole, rest))
    (hfraction : fraction? rest = some (fraction, behind))
    (hexponent : exponent? behind = some (exponent, [])) :
    ∃ size, whole = Nat.toDigits 10 size ∧
      ((fraction = [] ∧ exponent = [] ∧ text = whole) ∨
        ((fraction ≠ [] ∨ exponent ≠ []) ∧ IsForeign text)) := by
  obtain ⟨size, hsize, rfl⟩ := append_of_wholePart? hwhole
  refine ⟨size, hsize, ?_⟩
  obtain ⟨hnone, rfl⟩ | ⟨hsome, hforeign⟩ := cases_of_fraction? hfraction
  · obtain ⟨hempty, rfl⟩ | ⟨hsome, hforeign⟩ := cases_of_exponent? hexponent
    · exact .inl ⟨hnone, hempty, List.append_nil whole⟩
    · exact .inr ⟨.inr hsome, hforeign.append_left whole⟩
  · exact .inr ⟨.inl hsome, hforeign.append_left whole⟩

/-- A literal is a written number, one behind a minus sign, or has a fraction or an exponent. -/
theorem cases_of_parse? {literal : String} {numeral : Numeral}
    (hparse : Numeral.parse? literal = some numeral) :
    (∃ size, numeral = ⟨false, Nat.toDigits 10 size, [], []⟩ ∧ literal = toString size) ∨
    (∃ size, numeral = ⟨true, Nat.toDigits 10 size, [], []⟩ ∧
      literal.toList = '-' :: Nat.toDigits 10 size) ∨
    ((numeral.fraction ≠ [] ∨ numeral.exponent ≠ []) ∧ IsForeign literal.toList) := by
  rw [Numeral.parse?] at hparse
  split at hparse
  next numeral' hnumeral =>
    obtain rfl := Option.some.inj hparse
    unfold numeral? at hnumeral
    split at hnumeral
    next isNegative text hsign =>
      simp only [bind, Option.bind_eq_some_iff, Prod.exists] at hnumeral
      obtain ⟨whole, rest, hwhole, fraction, behind, hfraction, hrest⟩ := hnumeral
      obtain ⟨exponent, last, hexponent, hparts⟩ := hrest
      obtain ⟨rfl, rfl⟩ := Prod.mk.inj (Option.some.inj hparts)
      obtain ⟨size, rfl, ⟨rfl, rfl, rfl⟩ | ⟨hsome, hforeign⟩⟩ :=
        cases_of_parts hwhole hfraction hexponent
      · split at hsign
        next htext =>
          obtain ⟨rfl, rfl⟩ := Prod.mk.inj hsign
          exact .inr (.inl ⟨size, rfl, htext⟩)
        next =>
          obtain ⟨rfl, htext⟩ := Prod.mk.inj hsign
          refine .inl ⟨size, rfl, ?_⟩
          rw [← String.toList_inj, toList_toString_nat, htext]
      · refine .inr (.inr ⟨hsome, ?_⟩)
        split at hsign
        next htext =>
          obtain ⟨rfl, rfl⟩ := Prod.mk.inj hsign
          rw [htext]
          exact hforeign.append_left ['-']
        next =>
          obtain ⟨rfl, htext⟩ := Prod.mk.inj hsign
          rwa [htext]
  next => cases hparse

/-! ## Literals that are kept -/

section Literals

variable {reads : List Char → Nat → Prop} {literal : String} {numeral : Numeral}

theorem isForeign_sign_cons (text : List Char) : IsForeign ('-' :: text) :=
  ⟨'-', List.mem_cons_self, by decide, by decide⟩

theorem not_isForeign_toDigits (number : Nat) : ¬ IsForeign (Nat.toDigits 10 number) :=
  fun hforeign => isDecimal_isNumeral.foreign hforeign (isNumeral_toDigits number)

theorem parse?_toString_nat (number : Nat) :
    Numeral.parse? (toString number) = some ⟨false, Nat.toDigits 10 number, [], []⟩ := by
  by_cases hzero : number = 0
  · rw [hzero]
    decide
  · have hparse := parse?_toString_int (Int.natCast_ne_zero.mpr hzero)
    rwa [decide_eq_false (by omega), Int.natAbs_natCast] at hparse

/-- A literal is read as the number that is written so. -/
theorem IsDecimal.literal_iff (hdecimal : IsDecimal reads)
    (hparse : Numeral.parse? literal = some numeral) {number : Nat} :
    reads literal.toList number ↔ literal = toString number := by
  have hforeign (hliteral : IsForeign literal.toList) :
      reads literal.toList number ↔ literal = toString number := by
    refine iff_of_false (hdecimal.foreign hliteral) ?_
    rintro rfl
    rw [toList_toString_nat] at hliteral
    exact not_isForeign_toDigits number hliteral
  obtain ⟨size, -, rfl⟩ | ⟨size, -, hliteral⟩ | ⟨-, hliteral⟩ := cases_of_parse? hparse
  · rw [toList_toString_nat, hdecimal.written, toString_inj]
  · exact hforeign (hliteral ▸ isForeign_sign_cons _)
  · exact hforeign hliteral

theorem isForeign_literal {numeral : Numeral}
    (hparts : numeral.fraction ≠ [] ∨ numeral.exponent ≠ []) :
    IsForeign numeral.literal.toList := by
  have hmark : '.' ∈ numeral.chars ∨ 'e' ∈ numeral.chars := by
    rcases hparts with hfraction | hexponent
    · exact .inl (by simp [Numeral.chars, hfraction])
    · exact .inr (by simp [Numeral.chars, hexponent])
  rw [Numeral.literal, String.toList_ofList]
  rcases hmark with hpoint | hletter
  · exact ⟨'.', hpoint, by decide, by decide⟩
  · exact ⟨'e', hletter, by decide, by decide⟩

theorem toList_literal_written (size : Nat) :
    (Numeral.literal ⟨false, Nat.toDigits 10 size, [], []⟩).toList = Nat.toDigits 10 size := by
  rw [Numeral.literal, String.toList_ofList]
  simp [Numeral.chars, Numeral.sign]

/-- The literal of a numeral has the digits of the text, and only its exponent is rewritten. -/
theorem IsDecimal.rewritten_iff (hdecimal : IsDecimal reads)
    (hparse : Numeral.parse? literal = some numeral) {number : Nat} :
    reads numeral.literal.toList number ↔ literal = toString number := by
  rw [← hdecimal.literal_iff hparse]
  obtain ⟨size, rfl, rfl⟩ | ⟨size, rfl, hliteral⟩ | ⟨hparts, hliteral⟩ := cases_of_parse? hparse
  · rw [toList_literal_written, toList_toString_nat]
  · rw [hliteral, Numeral.literal, String.toList_ofList]
    exact iff_of_false (hdecimal.foreign (isForeign_sign_cons _))
      (hdecimal.foreign (isForeign_sign_cons _))
  · exact iff_of_false (hdecimal.foreign (isForeign_literal hparts)) (hdecimal.foreign hliteral)

end Literals

/-! ## Settled literals -/

theorem isForeign_positional {decimal : Decimal} (hexponent : decimal.exponent < 0) :
    IsForeign decimal.positional := by
  have hpoint : '.' ∈ decimal.positional := by
    rw [Decimal.positional, if_neg (by omega)]
    split <;> simp
  exact ⟨'.', hpoint, by decide, by decide⟩

/-- The digits of a number in 64 bits have a point or an exponent among them. -/
theorem isForeign_settledSize (value : Binary64) : IsForeign (settledSize value) := by
  rw [settledSize]
  split
  next =>
    have hmark : 'e' ∈ (value.shortest .even).scientific := by
      rw [Decimal.scientific]
      simp
    exact ⟨'e', hmark, by decide, by decide⟩
  next =>
    split
    next => exact ⟨'.', by simp, by decide, by decide⟩
    next hexponent => exact isForeign_positional (by omega)

theorem integer?_eq_none {numeral : Numeral}
    (hparts : numeral.fraction ≠ [] ∨ numeral.exponent ≠ []) : numeral.integer? = none := by
  simp only [Numeral.integer?, bind, Option.bind_eq_none_iff]
  intro decimal hwritten
  rw [Numeral.written?] at hwritten
  split at hwritten
  next hexponent =>
    have hfraction := hparts.resolve_right (not_not_intro (List.isEmpty_iff.mp hexponent))
    rw [if_neg (by simpa using hfraction)]
  next => cases hwritten

/-- A number that is no integer of 128 bits is settled to its literal, unless it is the shortest
decimal of a number in 64 bits. -/
theorem settled_cases {numeral : Numeral} (hinteger : numeral.integer? = none) :
    (numeral.binary64? = none ∧ numeral.settled = numeral.literal) ∨
      (numeral.binary64? ≠ none ∧ IsForeign numeral.settled.toList) := by
  rw [Numeral.settled, hinteger]
  cases hvalue : numeral.binary64? with
  | none => exact .inl ⟨rfl, rfl⟩
  | some value =>
      refine .inr ⟨Option.some_ne_none value, ?_⟩
      rw [String.toList_ofList]
      exact (isForeign_settledSize value).append_left numeral.sign

/-- What a literal is read as once it is settled. Zero may have had a sign. An integer beyond
128 bits must not be the shortest decimal of a number in 64 bits. -/
def SettlesAs (literal : String) (numeral : Numeral) (number : Nat) : Prop :=
  (literal = "-0" ∧ number = 0) ∨
    (literal = toString number ∧ (number < 2 ^ 128 ∨ numeral.binary64? = none))

section Settled

variable {reads : List Char → Nat → Prop} {literal : String} {numeral : Numeral} {number : Nat}

theorem settlesAs_toString_iff {size : Nat} :
    SettlesAs (toString size) numeral number ↔
      size = number ∧ (number < 2 ^ 128 ∨ numeral.binary64? = none) := by
  have hunsigned : toString size ≠ "-0" := by
    intro hsign
    refine not_isForeign_toDigits size ?_
    rw [← toList_toString_nat, hsign]
    exact isForeign_sign_cons ['0']
  rw [SettlesAs, toString_inj, or_iff_right (fun hzero => hunsigned hzero.1)]

theorem settlesAs_iff_of_isForeign (hliteral : IsForeign literal.toList) :
    SettlesAs literal numeral number ↔ literal = "-0" ∧ number = 0 := by
  refine or_iff_left ?_
  rintro ⟨rfl, -⟩
  rw [toList_toString_nat] at hliteral
  exact not_isForeign_toDigits number hliteral

theorem IsDecimal.settled_iff_of_written (hdecimal : IsDecimal reads) (size : Nat) :
    reads (Numeral.settled ⟨false, Nat.toDigits 10 size, [], []⟩).toList number ↔
      size = number ∧
        (number < 2 ^ 128 ∨ Numeral.binary64? ⟨false, Nat.toDigits 10 size, [], []⟩ = none) := by
  have hinteger := integer?_written false size
  rw [if_neg Bool.false_ne_true] at hinteger
  by_cases hsmall : size < 2 ^ 128
  · rw [if_pos hsmall] at hinteger
    rw [Numeral.settled, hinteger, toList_toString_int, if_neg (by omega), Int.natAbs_natCast,
      hdecimal.written]
    constructor
    · rintro rfl
      exact ⟨rfl, .inl hsmall⟩
    · exact And.left
  · rw [if_neg hsmall] at hinteger
    obtain ⟨hnone, hsettled⟩ | ⟨hsome, hforeign⟩ := settled_cases hinteger
    · rw [hsettled, toList_literal_written, hdecimal.written, and_iff_left (.inr hnone)]
    · refine iff_of_false (hdecimal.foreign hforeign) ?_
      rintro ⟨rfl, hlarge | hnone⟩
      · exact hsmall hlarge
      · exact hsome hnone

theorem IsDecimal.settled_iff_of_negative (hdecimal : IsDecimal reads) (size : Nat) :
    reads (Numeral.settled ⟨true, Nat.toDigits 10 size, [], []⟩).toList number ↔
      size = 0 ∧ number = 0 := by
  have hinteger := integer?_written true size
  rw [if_pos rfl] at hinteger
  by_cases hsmall : size ≤ 2 ^ 127
  · rw [if_pos hsmall] at hinteger
    rw [Numeral.settled, hinteger, toList_toString_int, Int.natAbs_neg, Int.natAbs_natCast]
    by_cases hzero : size = 0
    · rw [hzero, if_neg (by decide), hdecimal.written, and_iff_right rfl, eq_comm]
    · rw [if_pos (by omega)]
      exact iff_of_false (hdecimal.foreign (isForeign_sign_cons _)) fun hboth => hzero hboth.1
  · rw [if_neg hsmall] at hinteger
    refine iff_of_false (hdecimal.foreign ?_) (by omega)
    obtain ⟨-, hsettled⟩ | ⟨-, hforeign⟩ := settled_cases hinteger
    · rw [hsettled, Numeral.literal, String.toList_ofList]
      exact isForeign_sign_cons _
    · exact hforeign

theorem IsDecimal.settled_iff (hdecimal : IsDecimal reads)
    (hparse : Numeral.parse? literal = some numeral) :
    reads numeral.settled.toList number ↔ SettlesAs literal numeral number := by
  obtain ⟨size, rfl, rfl⟩ | ⟨size, rfl, hliteral⟩ | ⟨hparts, hliteral⟩ := cases_of_parse? hparse
  · rw [hdecimal.settled_iff_of_written, settlesAs_toString_iff]
  · have hforeign : IsForeign literal.toList := hliteral ▸ isForeign_sign_cons _
    have hzero : literal = "-0" ↔ size = 0 := by
      rw [← String.toList_inj, hliteral]
      change '-' :: _ = '-' :: Nat.toDigits 10 0 ↔ _
      rw [List.cons.injEq, and_iff_right rfl, ← toList_toString_nat, ← toList_toString_nat,
        String.toList_inj, toString_inj]
    rw [hdecimal.settled_iff_of_negative, settlesAs_iff_of_isForeign hforeign, hzero]
  · have hnonzero : literal ≠ "-0" := by
      rintro rfl
      have hzero : Numeral.parse? "-0" = some ⟨true, ['0'], [], []⟩ := by decide
      rw [hzero, Option.some.injEq] at hparse
      rw [← hparse] at hparts
      simp at hparts
    rw [settlesAs_iff_of_isForeign hliteral]
    refine iff_of_false (hdecimal.foreign ?_) fun hboth => hnonzero hboth.1
    obtain ⟨-, hsettled⟩ | ⟨-, hforeign⟩ := settled_cases (integer?_eq_none hparts)
    · rw [hsettled]
      exact isForeign_literal hparts
    · exact hforeign

end Settled

end ChainClient.Json
