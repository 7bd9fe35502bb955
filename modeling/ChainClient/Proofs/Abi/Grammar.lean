import Mathlib.Data.List.Chain
import ChainClient.Proofs.Abi.Canonical

/-!
# The grammar of types

The text of a type is its canonical form, but for the widths that may be left out. This
holds of texts without blanks whose numbers have neither a sign nor, in a dimension,
a zero in front; the parser accepts other numbers too, and then the text is not
canonical.
-/

namespace ChainClient.Abi.AbiType

open Text

/-- The width that is left out behind the name of a number type. -/
def missingWidth (rest : List Char) : List Char :=
  if rest.head?.any Char.isDigit then [] else "256".toList

/-- A text with the width behind each `int` that has none. As `uint` ends in `int`, it
is given its width too. -/
def withWidths : List Char → List Char
  | 'i' :: 'n' :: 't' :: rest => "int".toList ++ missingWidth rest ++ withWidths rest
  | char :: rest => char :: withWidths rest
  | [] => []

/-- Nowhere in the text is there a plus sign or a zero right behind an opening bracket. -/
def IsStrict (text : List Char) : Prop :=
  '+' ∉ text ∧ ¬ ['[', '0'] <:+: text

/-- The characters between the names and numbers in a text. -/
def marks : List Char :=
  "()[],".toList

/-! ## Putting in the widths -/

theorem withWidths_cons {char : Char} {rest : List Char} (hchar : char ≠ 'i') :
    withWidths (char :: rest) = char :: withWidths rest := by
  rw [withWidths]
  rintro _ rfl
  exact absurd rfl hchar

theorem withWidths_of_not_mem {text : List Char} (htext : 'i' ∉ text) : withWidths text = text := by
  induction text with
  | nil => rfl
  | cons char rest ih =>
      rw [List.mem_cons, not_or] at htext
      rw [withWidths_cons (Ne.symm htext.1), ih htext.2]

theorem not_letter_of_mem_marks :
    ∀ mark ∈ marks, mark ≠ 'i' ∧ mark ≠ 'n' ∧ mark ≠ 't' ∧ mark.isDigit = false :=
  List.all_iff_forall_prop.mp (by decide)

/-- What stands before a mark and what stands behind it are filled in on their own. -/
theorem withWidths_append_cons {mark : Char} (hmark : mark ∈ marks) (front back : List Char) :
    withWidths (front ++ mark :: back) = withWidths front ++ mark :: withWidths back := by
  obtain ⟨hi, hn, ht, hdigit⟩ := not_letter_of_mem_marks mark hmark
  fun_induction withWidths front with
  | case1 rest ih =>
      have hwidth : missingWidth (rest ++ mark :: back) = missingWidth rest := by
        cases rest with
        | nil => simp [missingWidth, hdigit]
        | cons char rest => rfl
      simp only [List.cons_append, withWidths, hwidth, ih, List.append_assoc]
  | case2 char rest hname ih =>
      rw [List.cons_append, withWidths, ih, List.cons_append]
      -- no `int` can reach over the mark
      rintro after rfl heq
      cases rest with
      | nil => exact hn (List.cons.inj heq).1
      | cons next rest =>
          cases rest with
          | nil => exact ht (List.cons.inj (List.cons.inj heq).2).1
          | cons last rest =>
              simp only [List.cons_append, List.cons.injEq] at heq
              exact hname rest rfl (by rw [heq.1, heq.2.1])
  | case3 => exact withWidths_cons hi

theorem withWidths_flatMap (first : List Char) (others : List (List Char)) :
    withWidths (first ++ others.flatMap (',' :: ·)) =
      withWidths first ++ others.flatMap fun other => ',' :: withWidths other := by
  induction others generalizing first with
  | nil => simp
  | cons other others ih =>
      rw [List.flatMap_cons, List.cons_append, withWidths_append_cons (by decide), ih,
        List.flatMap_cons, List.cons_append]

/-- No character of a text is lost when its widths are put in. -/
theorem mem_withWidths {text : List Char} {char : Char} (hchar : char ∈ text) :
    char ∈ withWidths text := by
  fun_induction withWidths text with
  | case1 rest ih =>
      rw [List.mem_append, List.mem_append]
      have hsplit : char ∈ "int".toList ∨ char ∈ rest := List.mem_append.mp hchar
      exact hsplit.imp .inl ih
  | case2 first rest hname ih => exact List.mem_cons.mpr ((List.mem_cons.mp hchar).imp_right ih)
  | case3 => exact hchar

/-! ## Strict texts -/

theorem IsStrict.of_isInfix {text part : List Char} (hstrict : IsStrict text)
    (hpart : part <:+: text) : IsStrict part :=
  ⟨fun hsign => hstrict.1 (hpart.subset hsign), fun hzero => hstrict.2 (hzero.trans hpart)⟩

/-- In a strict text a number is written with its own digits. -/
theorem IsStrict.toDigits_of_count? {limit number : Nat} {digits : List Char}
    (hstrict : IsStrict digits) (hcount : count? 10 limit digits = some number)
    (hhead : digits.head? ≠ some '0') : Nat.toDigits 10 number = digits :=
  toDigits_of_digits? (digits?_of_count? hcount hstrict.1) hhead

theorem IsStrict.toDigits_of_plainCount? {number : Nat} {digits : List Char}
    (hstrict : IsStrict digits) (hcount : plainCount? digits = some number) :
    Nat.toDigits 10 number = digits := by
  unfold plainCount? at hcount
  split at hcount
  · cases hcount
  next hhead => exact hstrict.toDigits_of_count? hcount hhead

/-- The width of a number type is put in, or it was there. -/
theorem withWidths_int {digits : List Char} {bits : Nat} (hwidth : width? digits = some bits)
    (hstrict : IsStrict digits) :
    withWidths ("int".toList ++ digits) = "int".toList ++ Nat.toDigits 10 bits := by
  have hname : withWidths ("int".toList ++ digits) =
      "int".toList ++ missingWidth digits ++ withWidths digits := rfl
  cases digits with
  | nil =>
      cases hwidth
      rfl
  | cons digit digits =>
      have hcount := (Option.filter_eq_some_iff.mp hwidth).1
      have hdigits := hstrict.toDigits_of_plainCount? hcount
      have hdigit : digit.isDigit = true :=
        isDigit_of_mem_toDigits digit (hdigits ▸ List.mem_cons_self)
      have hletter : 'i' ∉ digit :: digits := by
        rw [← hdigits]
        exact not_mem_toDigits (by decide) bits
      rw [hname, hdigits, withWidths_of_not_mem hletter]
      simp [missingWidth, hdigit]

/-- A strict name is the canonical form of its type once it has its width. -/
theorem spelling_of_named? {name : List Char} {type : AbiType} (hname : named? name = some type)
    (hstrict : IsStrict name) : spelling type = withWidths name := by
  cases names_of_named? hname with
  | bool => rfl
  | address => rfl
  | string => rfl
  | bytes => rfl
  | uint hwidth =>
      have hname := withWidths_int hwidth (hstrict.of_isInfix (List.suffix_append _ _).isInfix)
      rw [spelling_uint]
      exact (congrArg ('u' :: ·) hname).symm
  | int hwidth =>
      exact (withWidths_int hwidth (hstrict.of_isInfix (List.suffix_append _ _).isInfix)).symm
  | @fixedBytes digits length hcount hlength =>
      have hdigits : Nat.toDigits 10 length = digits :=
        (hstrict.of_isInfix (List.suffix_append _ _).isInfix).toDigits_of_plainCount? hcount
      rw [spelling_fixedBytes, hdigits, withWidths_of_not_mem]
      rw [List.mem_append, not_or, ← hdigits]
      exact ⟨by decide, not_mem_toDigits (by decide) length⟩

/-- The size of a dimension in a strict text is that of its type. -/
theorem spelling_of_withDimension? {element type : AbiType} {size : List Char}
    (htype : withDimension? element size = some type) (hstrict : IsStrict ('[' :: size)) :
    spelling type = spelling element ++ '[' :: size ++ [']'] ∧ 'i' ∉ size := by
  unfold withDimension? at htype
  split at htype
  next =>
    cases htype
    exact ⟨by simp, List.not_mem_nil⟩
  next =>
    obtain ⟨length, hlength, rfl⟩ := Option.map_eq_some_iff.mp htype
    have hcount := (Option.filter_eq_some_iff.mp hlength).1
    have hhead : size.head? ≠ some '0' := by
      intro hzero
      obtain ⟨rest, rfl⟩ := List.head?_eq_some_iff.mp hzero
      exact hstrict.2 ⟨[], rest, rfl⟩
    have hsize := hstrict.of_isInfix (List.suffix_cons _ _).isInfix
    have hdigits := hsize.toDigits_of_count? hcount hhead
    rw [spelling_fixedArray, hdigits]
    exact ⟨rfl, hdigits ▸ not_mem_toDigits (by decide) length⟩

/-- Without blanks, the body of a tuple is empty or consists of the texts of its members
with commas between them. -/
theorem eq_append_of_memberTexts {body : List Char} (hunbroken : IsUnbroken body) :
    body = [] ∧ memberTexts body = [] ∨
      ∃ first others, memberTexts body = first :: others ∧
        body = first ++ others.flatMap (',' :: ·) := by
  unfold memberTexts
  rw [hunbroken.trim_eq]
  split
  next hempty => exact .inl ⟨hempty, rfl⟩
  next => exact .inr ⟨_, _, rfl, eq_append_of_splitAtCommas rfl⟩

theorem infix_of_mem_memberTexts {body part : List Char} (hpart : part ∈ memberTexts body) :
    part <:+: body := by
  unfold memberTexts at hpart
  split at hpart
  next => exact absurd hpart List.not_mem_nil
  next =>
    have hbody : body = (splitAtCommas 0 body).1 ++
        (splitAtCommas 0 body).2.flatMap (',' :: ·) := eq_append_of_splitAtCommas rfl
    rw [hbody]
    rcases List.mem_cons.mp hpart with rfl | hpart
    · exact (List.prefix_append _ _).isInfix
    · have hother : (',' :: part) <:+: (splitAtCommas 0 body).2.flatMap (',' :: ·) :=
        List.infix_of_mem_flatten (List.mem_map_of_mem hpart)
      exact ((List.suffix_cons _ _).isInfix.trans hother).trans (List.suffix_append _ _).isInfix

/-- The members of a tuple are written like their texts. -/
theorem spellings_of_memberTexts {body : List Char} {members : List AbiType}
    (hunbroken : IsUnbroken body)
    (hmembers : List.Forall₂ (fun part member => spelling member = withWidths part)
      (memberTexts body) members) : spellings members = withWidths body := by
  rcases eq_append_of_memberTexts hunbroken with ⟨rfl, hempty⟩ | ⟨first, others, htexts, hbody⟩
  · rw [hempty, List.forall₂_nil_left_iff] at hmembers
    rw [hmembers]
    rfl
  · rw [htexts, List.forall₂_cons_left_iff] at hmembers
    obtain ⟨member, rest, hfirst, hothers, rfl⟩ := hmembers
    have hrest : rest.map spelling = others.map withWidths := by
      rw [← List.forall₂_eq_eq_eq, List.forall₂_map_left_iff, List.forall₂_map_right_iff]
      exact hothers.flip
    have hjoined : (rest.flatMap fun other => ',' :: spelling other) =
        others.flatMap fun other => ',' :: withWidths other := by
      rw [← List.flatMap_map spelling (',' :: ·), hrest, List.flatMap_map]
    rw [spellings_cons, hbody, withWidths_flatMap, hfirst, hjoined]

/-- The text of a type is its canonical form if the text is strict. -/
theorem spelling_of_parseChars {text : List Char} {type : AbiType}
    (hparse : parseChars text = .ok type) :
    IsUnbroken text → IsStrict text → spelling type = withWidths text := by
  refine parseChars_induction
    (motive := fun text type => IsUnbroken text → IsStrict text → spelling type = withWidths text)
    ?dimension ?members ?name hparse
  case dimension =>
    intro text element size inner type hform ih htype hunbroken hstrict
    rw [hunbroken.trim_eq, form_eq_dimension_iff] at hform
    obtain ⟨rfl, -⟩ := hform
    have helement : element <:+: element ++ '[' :: size ++ [']'] :=
      ⟨[], '[' :: size ++ [']'], by simp⟩
    have hsize : '[' :: size <:+: element ++ '[' :: size ++ [']'] := ⟨element, [']'], rfl⟩
    obtain ⟨hspelling, hletter⟩ := spelling_of_withDimension? htype (hstrict.of_isInfix hsize)
    rw [hspelling, ih (hunbroken.of_isInfix helement) (hstrict.of_isInfix helement),
      withWidths_append_cons (by decide) _ [], withWidths_append_cons (by decide) element,
      withWidths_of_not_mem hletter]
    rfl
  case members =>
    intro text texts members hform ih hunbroken hstrict
    rw [hunbroken.trim_eq, form_eq_members_iff] at hform
    obtain ⟨body, rfl, rfl⟩ := hform
    have hbody : body <:+: '(' :: body ++ [')'] := ⟨['('], [')'], rfl⟩
    have hparts := (List.forall₂_and_left _ _).mpr ⟨fun _ hpart => hpart, ih⟩
    have hmembers := hparts.imp fun part member hpart =>
      have hinside := (infix_of_mem_memberTexts hpart.1).trans hbody
      hpart.2 (hunbroken.of_isInfix hinside) (hstrict.of_isInfix hinside)
    rw [spelling_tuple, spellings_of_memberTexts (hunbroken.of_isInfix hbody) hmembers,
      withWidths_append_cons (by decide) _ [], withWidths_cons (by decide)]
    rfl
  case name =>
    intro text name type hform hname hunbroken hstrict
    rw [hunbroken.trim_eq] at hform
    obtain rfl := eq_of_form_eq_name hform
    exact spelling_of_named? hname hstrict

/-! ## Canonical forms are strict -/

/-- Whether a character may stand right behind another one in a strict text. -/
def MayFollow (char next : Char) : Prop :=
  char = '[' → next ≠ '0'

theorem isChain_mayFollow_iff {text : List Char} :
    text.IsChain MayFollow ↔ ¬ ['[', '0'] <:+: text := by
  rw [List.isChain_iff_forall_rel_of_append_cons_cons]
  constructor
  · rintro hfollow ⟨front, back, rfl⟩
    have hpair : front ++ ['[', '0'] ++ back = front ++ '[' :: '0' :: back := by simp
    exact hfollow hpair rfl rfl
  · rintro hpadded char next front back rfl rfl rfl
    exact hpadded ⟨front, back, by simp⟩

theorem isChain_of_not_mem {text : List Char} (hbracket : '[' ∉ text) : text.IsChain MayFollow := by
  rw [isChain_mayFollow_iff]
  exact fun hpadded => hbracket (hpadded.subset List.mem_cons_self)

/-- A text may be put behind another one if it does not start with a zero. -/
theorem isChain_append {front back : List Char} (hfront : front.IsChain MayFollow)
    (hback : back.IsChain MayFollow) (hhead : back.head? ≠ some '0') :
    (front ++ back).IsChain MayFollow := by
  refine List.isChain_append.mpr ⟨hfront, hback, ?_⟩
  rintro char - next hnext - rfl
  exact hhead hnext

theorem isChain_mark_cons {mark : Char} {text : List Char} (hmark : mark ≠ '[')
    (htext : text.IsChain MayFollow) : (mark :: text).IsChain MayFollow :=
  List.isChain_cons.mpr ⟨fun _ _ heq => absurd heq hmark, htext⟩

theorem isChain_spellings {types : List AbiType}
    (htypes : ∀ type ∈ types, (spelling type).IsChain MayFollow) :
    (spellings types).IsChain MayFollow := by
  induction types with
  | nil => exact List.isChain_nil
  | cons type types ih =>
      obtain ⟨htype, hothers⟩ := List.forall_mem_cons.mp htypes
      cases types with
      | nil => exact htype
      | cons other types =>
          exact isChain_append htype (isChain_mark_cons (by decide) (ih hothers)) (by simp)

theorem isChain_spelling {type : AbiType} (hwell : type.isWellFormed = true) :
    (spelling type).IsChain MayFollow := by
  have hnamed {name : List Char} (hname : '[' ∉ name) (number : Nat) :
      '[' ∉ name ++ Nat.toDigits 10 number :=
    fun hmem => (List.mem_append.mp hmem).elim hname (not_mem_toDigits (by decide) number)
  induction type with
  | bool => exact isChain_of_not_mem (by decide)
  | uint bits => exact isChain_of_not_mem (hnamed (by decide) bits)
  | int bits => exact isChain_of_not_mem (hnamed (by decide) bits)
  | address => exact isChain_of_not_mem (by decide)
  | fixedBytes length => exact isChain_of_not_mem (hnamed (by decide) length)
  | bytes => exact isChain_of_not_mem (by decide)
  | string => exact isChain_of_not_mem (by decide)
  | fixedArray element length ih =>
      simp only [isWellFormed, Bool.and_eq_true, decide_eq_true_eq] at hwell
      obtain ⟨⟨hnonzero, -⟩, helement⟩ := hwell
      have hsize : ('[' :: Nat.toDigits 10 length).IsChain MayFollow := by
        refine List.isChain_cons.mpr ⟨?_, isChain_of_not_mem (not_mem_toDigits (by decide) length)⟩
        rintro next hnext - rfl
        exact head?_toDigits_ne_zero (Nat.pos_of_ne_zero hnonzero) hnext
      exact isChain_append (isChain_append (ih helement) hsize (by simp)) (List.isChain_singleton _)
        (by simp)
  | array element ih =>
      exact isChain_append (ih hwell) (isChain_mayFollow_iff.mpr (by decide)) (by simp)
  | tuple members ih =>
      rw [isWellFormed, areWellFormed_iff] at hwell
      have hmembers := isChain_spellings fun member hmember =>
        ih member hmember (hwell member hmember)
      exact isChain_append (isChain_mark_cons (by decide) hmembers) (List.isChain_singleton _)
        (by simp)

theorem isStrict_spelling {type : AbiType} (hwell : type.isWellFormed = true) :
    IsStrict (spelling type) := by
  refine ⟨fun hsign => ?_, isChain_mayFollow_iff.mp (isChain_spelling hwell)⟩
  have hunsigned : ∀ char ∈ spelling type, char ≠ '+' := by
    refine forall_mem_spelling ?_ (List.all_iff_forall_prop.mp (by decide)) type
    rintro char hdigit rfl
    exact absurd hdigit (by decide)
  exact hunsigned '+' hsign rfl

/-- Putting in the widths does not make a text strict. -/
theorem IsStrict.of_withWidths {text : List Char} (hstrict : IsStrict (withWidths text)) :
    IsStrict text := by
  refine ⟨fun hsign => hstrict.1 (mem_withWidths hsign), ?_⟩
  rintro ⟨front, back, rfl⟩
  have hzero : withWidths (front ++ '[' :: '0' :: back) =
      withWidths front ++ '[' :: '0' :: withWidths back := by
    rw [withWidths_append_cons (by decide), withWidths_cons (by decide)]
  exact hstrict.2 ⟨withWidths front, withWidths back, by simpa using hzero.symm⟩

/-- A text without blanks that denotes a type denotes a well-formed one, and is its
canonical form up to widths that are left out exactly if it is strict. -/
theorem canonical_eq_iff_isStrict {text : String} {type : AbiType}
    (hunbroken : ∀ char ∈ text.toList, isBlank char = false) (hparse : parse text = .ok type) :
    type.isWellFormed = true ∧
      (type.canonical = String.ofList (withWidths text.toList) ↔ IsStrict text.toList) := by
  have hwell := isWellFormed_of_parse hparse
  refine ⟨hwell, fun hcanonical => ?_, fun hstrict => ?_⟩
  · have hspelling := String.ofList_injective hcanonical
    exact (hspelling ▸ isStrict_spelling hwell).of_withWidths
  · exact congrArg String.ofList (spelling_of_parseChars hparse hunbroken hstrict)

/-- A strict text with two widths left out, at two depths. -/
theorem canonical_eq_iff_isStrict_nested :
    let text := "(uint,(int,int8[3])[])[20]"
    let type : AbiType :=
      .fixedArray (.tuple [.uint 256, .array (.tuple [.int 256, .fixedArray (.int 8) 3])]) 20
    (∀ char ∈ text.toList, isBlank char = false) ∧ parse text = .ok type ∧
      type.isWellFormed = true ∧
      (type.canonical = String.ofList (withWidths text.toList) ↔ IsStrict text.toList) ∧
      String.ofList (withWidths text.toList) = "(uint256,(int256,int8[3])[])[20]" := by
  intro text type
  have hunbroken : ∀ char ∈ text.toList, isBlank char = false :=
    List.all_iff_forall_prop.mp (by decide +kernel)
  have hparse : parse text = .ok type := by decide +kernel
  obtain ⟨hwell, hcanonical⟩ := canonical_eq_iff_isStrict hunbroken hparse
  exact ⟨hunbroken, hparse, hwell, hcanonical, by decide +kernel⟩

/-- A zero in front of a length is read over, a sign in front of a width too. -/
theorem canonical_ne_of_alternative_spelling :
    let padded := "uint8[02]"
    let signed := "int+64"
    (∀ char ∈ padded.toList, isBlank char = false) ∧
      parse padded = .ok (.fixedArray (.uint 8) 2) ∧
      (AbiType.fixedArray (.uint 8) 2).canonical ≠ String.ofList (withWidths padded.toList) ∧
      (∀ char ∈ signed.toList, isBlank char = false) ∧
      parse signed = .ok (.int 64) ∧
      (AbiType.int 64).canonical ≠ String.ofList (withWidths signed.toList) := by
  refine ⟨List.all_iff_forall_prop.mp (by decide +kernel), by decide +kernel, by decide +kernel,
    List.all_iff_forall_prop.mp (by decide +kernel), by decide +kernel, by decide +kernel⟩

end ChainClient.Abi.AbiType
