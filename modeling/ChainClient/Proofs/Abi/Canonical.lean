import Mathlib.Data.Bool.AllAny
import ChainClient.Proofs.Abi.Form
import ChainClient.Proofs.Abi.WellFormed
import ChainClient.Proofs.Text.Digits

/-!
# Canonical forms of types

The canonical form of a well-formed type is parsed as this type, so that well-formed
types with one canonical form are one type. Commas of a canonical form stand in
parentheses, which are balanced; this is why a tuple is taken apart into the canonical
forms of its members.
-/

namespace ChainClient.Abi.AbiType

open Text

/-- The letters in names of types. -/
def nameLetters : List Char :=
  "boluintadresyg".toList

/-! ## Equations -/

@[simp] theorem spelling_bool : spelling .bool = "bool".toList := rfl

@[simp] theorem spelling_uint (bits : Nat) :
    spelling (.uint bits) = "uint".toList ++ Nat.toDigits 10 bits := rfl

@[simp] theorem spelling_int (bits : Nat) :
    spelling (.int bits) = "int".toList ++ Nat.toDigits 10 bits := rfl

@[simp] theorem spelling_address : spelling .address = "address".toList := rfl

@[simp] theorem spelling_fixedBytes (length : Nat) :
    spelling (.fixedBytes length) = "bytes".toList ++ Nat.toDigits 10 length := rfl

@[simp] theorem spelling_bytes : spelling .bytes = "bytes".toList := rfl

@[simp] theorem spelling_string : spelling .string = "string".toList := rfl

@[simp] theorem spelling_fixedArray (element : AbiType) (length : Nat) :
    spelling (.fixedArray element length) =
      spelling element ++ '[' :: Nat.toDigits 10 length ++ [']'] := rfl

@[simp] theorem spelling_array (element : AbiType) :
    spelling (.array element) = spelling element ++ ['[', ']'] := rfl

@[simp] theorem spelling_tuple (members : List AbiType) :
    spelling (.tuple members) = '(' :: spellings members ++ [')'] := rfl

@[simp] theorem spellings_nil : spellings [] = [] := rfl

@[simp] theorem spellings_singleton (type : AbiType) : spellings [type] = spelling type := rfl

theorem spellings_cons_cons (type other : AbiType) (types : List AbiType) :
    spellings (type :: other :: types) = spelling type ++ ',' :: spellings (other :: types) := rfl

theorem spellings_cons (type : AbiType) (types : List AbiType) :
    spellings (type :: types) =
      spelling type ++ types.flatMap fun other => ',' :: spelling other := by
  induction types generalizing type with
  | nil => simp
  | cons other types ih => rw [spellings_cons_cons, ih, List.flatMap_cons, List.cons_append]

/-! ## The characters of a canonical form -/

/-- What holds of digits, of the letters in names, and of brackets and commas holds of
every character of a canonical form. -/
theorem forall_mem_spelling {property : Char → Prop}
    (hdigit : ∀ char, char.isDigit = true → property char)
    (hletter : ∀ char ∈ nameLetters ++ "()[],".toList, property char) (type : AbiType) :
    ∀ char ∈ spelling type, property char := by
  have hdigits (number : Nat) : ∀ char ∈ Nat.toDigits 10 number, property char :=
    fun char hchar => hdigit char (isDigit_of_mem_toDigits char hchar)
  have hname {name : List Char} (hsubset : name ⊆ nameLetters) : ∀ char ∈ name, property char :=
    fun char hchar => hletter char (List.mem_append_left _ (hsubset hchar))
  induction type with
  | bool => exact hname (by decide)
  | uint bits => exact List.forall_mem_append.mpr ⟨hname (by decide), hdigits bits⟩
  | int bits => exact List.forall_mem_append.mpr ⟨hname (by decide), hdigits bits⟩
  | address => exact hname (by decide)
  | fixedBytes length => exact List.forall_mem_append.mpr ⟨hname (by decide), hdigits length⟩
  | bytes => exact hname (by decide)
  | string => exact hname (by decide)
  | fixedArray element length ih =>
      simp only [spelling_fixedArray, List.forall_mem_append, List.forall_mem_cons]
      exact ⟨⟨ih, hletter _ (by decide), hdigits length⟩, hletter _ (by decide), by simp⟩
  | array element ih =>
      simp only [spelling_array, List.forall_mem_append, List.forall_mem_cons]
      exact ⟨ih, hletter _ (by decide), hletter _ (by decide), by simp⟩
  | tuple members ih =>
      have hmembers : ∀ char ∈ spellings members, property char := by
        cases members with
        | nil => simp
        | cons member members =>
            obtain ⟨hmember, hothers⟩ := List.forall_mem_cons.mp ih
            rw [spellings_cons, List.forall_mem_append]
            refine ⟨hmember, fun char hchar => ?_⟩
            obtain ⟨other, hother, hchar⟩ := List.mem_flatMap.mp hchar
            rcases List.mem_cons.mp hchar with rfl | hchar
            · exact hletter _ (by decide)
            · exact hothers other hother char hchar
      simp only [spelling_tuple, List.forall_mem_append, List.forall_mem_cons]
      exact ⟨⟨hletter _ (by decide), hmembers⟩, hletter _ (by decide), by simp⟩

theorem isUnbroken_spelling (type : AbiType) : IsUnbroken (spelling type) := by
  refine forall_mem_spelling (fun char hchar => ?_) (List.all_iff_forall_prop.mp (by decide)) type
  have hbounds := isDigit_iff.mp hchar
  simp [isBlank, blankRanges]
  omega

/-! ## The members of a tuple -/

/-- A text stays whole where its surroundings are split at commas. -/
def StaysWhole (depth : Nat) (text : List Char) : Prop :=
  ∀ rest, splitAtCommas depth (text ++ rest) =
    (text ++ (splitAtCommas depth rest).1, (splitAtCommas depth rest).2)

theorem StaysWhole.append {depth : Nat} {text more : List Char} (htext : StaysWhole depth text)
    (hmore : StaysWhole depth more) : StaysWhole depth (text ++ more) := by
  intro rest
  rw [List.append_assoc, htext, hmore, List.append_assoc]

/-- Without a comma and without parentheses a text stays whole. -/
theorem staysWhole_of_plain {text : List Char} (depth : Nat)
    (hplain : ',' ∉ text ∧ '(' ∉ text ∧ ')' ∉ text) : StaysWhole depth text := by
  intro rest
  induction text with
  | nil => rfl
  | cons char text ih =>
      simp only [List.mem_cons, not_or] at hplain
      obtain ⟨⟨hcomma, hcommas⟩, ⟨hopening, hopenings⟩, ⟨hclosing, hclosings⟩⟩ := hplain
      simp only [List.cons_append, splitAtCommas, depthAfter, Ne.symm hcomma, Ne.symm hopening,
        Ne.symm hclosing, false_and, ↓reduceIte, ih ⟨hcommas, hopenings, hclosings⟩]

theorem staysWhole_toDigits (depth number : Nat) : StaysWhole depth (Nat.toDigits 10 number) :=
  staysWhole_of_plain depth ⟨not_mem_toDigits (by decide) number,
    not_mem_toDigits (by decide) number, not_mem_toDigits (by decide) number⟩

/-- Between parentheses commas do not split. -/
theorem StaysWhole.parenthesized {depth : Nat} {text : List Char}
    (htext : StaysWhole (depth + 1) text) : StaysWhole depth ('(' :: text ++ [')']) := by
  intro rest
  have hopening : splitAtCommas depth ('(' :: (text ++ ')' :: rest)) =
      ('(' :: (splitAtCommas (depth + 1) (text ++ ')' :: rest)).1,
        (splitAtCommas (depth + 1) (text ++ ')' :: rest)).2) := by
    simp [splitAtCommas, depthAfter]
  have hclosing : splitAtCommas (depth + 1) (')' :: rest) =
      (')' :: (splitAtCommas depth rest).1, (splitAtCommas depth rest).2) := by
    simp [splitAtCommas, depthAfter]
  simp only [List.cons_append, List.append_assoc, List.nil_append]
  rw [hopening, htext, hclosing]

theorem staysWhole_comma (depth : Nat) : StaysWhole (depth + 1) [','] := by
  intro rest
  simp [splitAtCommas, depthAfter]

theorem staysWhole_spellings {depth : Nat} {types : List AbiType}
    (htypes : ∀ type ∈ types, StaysWhole (depth + 1) (spelling type)) :
    StaysWhole (depth + 1) (spellings types) := by
  induction types with
  | nil => exact staysWhole_of_plain _ (by decide)
  | cons type types ih =>
      obtain ⟨htype, hothers⟩ := List.forall_mem_cons.mp htypes
      cases types with
      | nil => exact htype
      | cons other types => exact htype.append ((staysWhole_comma depth).append (ih hothers))

theorem staysWhole_spelling (type : AbiType) (depth : Nat) : StaysWhole depth (spelling type) := by
  induction type generalizing depth with
  | bool => exact staysWhole_of_plain depth (by decide)
  | uint bits =>
      exact (staysWhole_of_plain depth (by decide)).append (staysWhole_toDigits depth bits)
  | int bits =>
      exact (staysWhole_of_plain depth (by decide)).append (staysWhole_toDigits depth bits)
  | address => exact staysWhole_of_plain depth (by decide)
  | fixedBytes length =>
      exact (staysWhole_of_plain depth (by decide)).append (staysWhole_toDigits depth length)
  | bytes => exact staysWhole_of_plain depth (by decide)
  | string => exact staysWhole_of_plain depth (by decide)
  | fixedArray element length ih =>
      have hopening : StaysWhole depth ['['] := staysWhole_of_plain depth (by decide)
      have hclosing : StaysWhole depth [']'] := staysWhole_of_plain depth (by decide)
      have hsize := hopening.append (staysWhole_toDigits depth length)
      exact ((ih depth).append hsize).append hclosing
  | array element ih => exact (ih depth).append (staysWhole_of_plain depth (by decide))
  | tuple members ih =>
      refine StaysWhole.parenthesized (staysWhole_spellings fun member hmember => ?_)
      exact ih member hmember (depth + 1)

theorem spelling_ne_nil (type : AbiType) : spelling type ≠ [] := by
  cases type <;> simp

theorem splitAtCommas_spellings (type : AbiType) (types : List AbiType) :
    splitAtCommas 0 (spellings (type :: types)) = (spelling type, types.map spelling) := by
  induction types generalizing type with
  | nil => simpa [splitAtCommas] using staysWhole_spelling type 0 []
  | cons other types ih =>
      have hfirst := staysWhole_spelling type 0 (',' :: spellings (other :: types))
      rw [spellings_cons_cons, hfirst]
      simp [splitAtCommas, ih]

/-- The body of a canonical tuple is taken apart into its members. -/
theorem memberTexts_spellings (members : List AbiType) :
    memberTexts (spellings members) = members.map spelling := by
  cases members with
  | nil => rfl
  | cons member members =>
      have hbody : IsUnbroken (spellings (member :: members)) :=
        (isUnbroken_spelling (.tuple (member :: members))).of_isInfix ⟨['('], [')'], rfl⟩
      have hnonempty : spellings (member :: members) ≠ [] := by
        simp [spellings_cons, spelling_ne_nil]
      rw [memberTexts, hbody.trim_eq, if_neg hnonempty, splitAtCommas_spellings, List.map_cons]

/-! ## Names -/

theorem named?_uint (digits : List Char) :
    named? ("uint".toList ++ digits) = (width? digits).map .uint := by
  simp [named?, after?]

theorem named?_int (digits : List Char) :
    named? ("int".toList ++ digits) = (width? digits).map .int := by
  simp [named?, after?]

theorem named?_fixedBytes {digits : List Char} (hdigits : digits ≠ []) :
    named? ("bytes".toList ++ digits) =
      ((plainCount? digits).filter fun length => 1 ≤ length && length ≤ 32).map .fixedBytes := by
  simp [named?, after?, hdigits]

theorem plainCount?_toDigits {number : Nat} (hpos : 0 < number) (hbound : number < sizeCount) :
    plainCount? (Nat.toDigits 10 number) = some number := by
  rw [plainCount?, if_neg (head?_toDigits_ne_zero hpos), count?_toDigits hbound]

theorem width?_toDigits {bits : Nat} (hwidth : isWidth bits = true) :
    width? (Nat.toDigits 10 bits) = some bits := by
  have hbounds : 8 ≤ bits ∧ bits ≤ 256 := by
    simp only [isWidth, Bool.and_eq_true, decide_eq_true_eq] at hwidth
    exact ⟨hwidth.1.2, hwidth.2⟩
  have hlarge : 256 < sizeCount := by decide
  have hcount : plainCount? (Nat.toDigits 10 bits) = some bits :=
    plainCount?_toDigits (by omega) (by omega)
  unfold width?
  split
  next hdigits => exact absurd hdigits Nat.toDigits_ne_nil
  next => simp [hcount, hwidth]

/-! ## Parsing a canonical form -/

/-- A name without punctuation is parsed as the type it names. -/
theorem parseChars_spelling_of_named? {type : AbiType}
    (hnamed : named? (spelling type) = some type)
    (hplain : '(' ∉ spelling type ∧ ']' ∉ spelling type) :
    parseChars (spelling type) = .ok type := by
  have hform : Form.of (spelling type) = .name (spelling type) := by
    refine form_eq_name (fun hlast => ?_) fun hhead => ?_
    · exact hplain.2 (List.mem_of_getLast? hlast)
    · exact hplain.1 (List.mem_of_head? hhead)
  rw [parseChars_eq_ok_iff, (isUnbroken_spelling type).trim_eq, hform]
  exact hnamed

theorem parseChars_spelling {type : AbiType} (hwell : type.isWellFormed = true) :
    parseChars (spelling type) = .ok type := by
  have hdigits {name : List Char} (hname : '(' ∉ name ∧ ']' ∉ name) (number : Nat) :
      '(' ∉ name ++ Nat.toDigits 10 number ∧ ']' ∉ name ++ Nat.toDigits 10 number := by
    simp [hname, not_mem_toDigits]
  induction type with
  | bool => exact parseChars_spelling_of_named? rfl (by decide)
  | uint bits =>
      refine parseChars_spelling_of_named? ?_ (hdigits (by decide) bits)
      rw [spelling_uint, named?_uint, width?_toDigits hwell]
      rfl
  | int bits =>
      refine parseChars_spelling_of_named? ?_ (hdigits (by decide) bits)
      rw [spelling_int, named?_int, width?_toDigits hwell]
      rfl
  | address => exact parseChars_spelling_of_named? rfl (by decide)
  | fixedBytes length =>
      refine parseChars_spelling_of_named? ?_ (hdigits (by decide) length)
      have hlength : 1 ≤ length ∧ length ≤ 32 := by simpa [isWellFormed] using hwell
      have hbound : 32 < sizeCount := by decide
      rw [spelling_fixedBytes, named?_fixedBytes Nat.toDigits_ne_nil,
        plainCount?_toDigits (by omega) (by omega)]
      simp [hlength]
  | bytes => exact parseChars_spelling_of_named? rfl (by decide)
  | string => exact parseChars_spelling_of_named? rfl (by decide)
  | fixedArray element length ih =>
      simp only [isWellFormed, Bool.and_eq_true, decide_eq_true_eq] at hwell
      obtain ⟨⟨hnonzero, hbound⟩, helement⟩ := hwell
      have hform : Form.of (spelling (.fixedArray element length)) =
          .dimension (spelling element) (Nat.toDigits 10 length) :=
        form_eq_dimension_iff.mpr ⟨rfl, not_mem_toDigits (by decide) length⟩
      rw [parseChars_eq_ok_iff, (isUnbroken_spelling _).trim_eq, hform]
      refine ⟨element, ih helement, ?_⟩
      unfold withDimension?
      split
      next hdigits => exact absurd hdigits Nat.toDigits_ne_nil
      next => simp [count?_toDigits hbound, hnonzero]
  | array element ih =>
      have hform : Form.of (spelling (.array element)) = .dimension (spelling element) [] :=
        form_eq_dimension_iff.mpr ⟨by simp, List.not_mem_nil⟩
      rw [parseChars_eq_ok_iff, (isUnbroken_spelling _).trim_eq, hform]
      exact ⟨element, ih hwell, rfl⟩
  | tuple members ih =>
      rw [isWellFormed, areWellFormed_iff] at hwell
      have hform : Form.of (spelling (.tuple members)) = .members (members.map spelling) :=
        form_eq_members_iff.mpr ⟨spellings members, rfl, memberTexts_spellings members⟩
      rw [parseChars_eq_ok_iff, (isUnbroken_spelling _).trim_eq, hform]
      refine ⟨members, ?_, rfl⟩
      rw [List.forall₂_map_left_iff, List.forall₂_same]
      exact fun member hmember => ih member hmember (hwell member hmember)

/-- The canonical form of a well-formed type is parsed as the type, so no other
well-formed type has the same canonical form. -/
theorem parse_canonical {type : AbiType} (hwell : type.isWellFormed = true) :
    parse type.canonical = .ok type ∧
      ∀ other : AbiType, other.isWellFormed = true → other.canonical = type.canonical →
        other = type := by
  have hparse {type : AbiType} (hwell : type.isWellFormed = true) :
      parse type.canonical = .ok type := by
    rw [parse, canonical, String.toList_ofList]
    exact parseChars_spelling hwell
  refine ⟨hparse hwell, fun other hother hcanonical => ?_⟩
  have hsame := hparse hother
  rw [hcanonical, hparse hwell] at hsame
  exact (Except.ok.inj hsame).symm

/-- An array of the largest length behind tuples of one member, of none, and of several. -/
theorem parse_canonical_nested :
    let type : AbiType :=
      .tuple [.tuple [.array (.fixedArray (.uint 8) 3), .tuple []],
        .fixedArray (.tuple [.fixedBytes 32]) 18446744073709551615]
    type.isWellFormed = true ∧
      type.canonical = "((uint8[3][],()),(bytes32)[18446744073709551615])" ∧
      parse type.canonical = .ok type ∧
      ∀ other : AbiType, other.isWellFormed = true → other.canonical = type.canonical →
        other = type := by
  intro type
  have hwell : type.isWellFormed = true := by decide +kernel
  exact ⟨hwell, by decide +kernel, parse_canonical hwell⟩

end ChainClient.Abi.AbiType
