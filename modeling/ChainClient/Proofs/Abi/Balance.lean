import ChainClient.Proofs.Abi.Canonical
import ChainClient.Proofs.Abi.WellFormed

/-!
# Parentheses in the texts of types

The parser counts parentheses and passes over a closing one too many, but a text that
denotes a type has none: every parenthesis in it is closed, and none before it is opened. So
whatever stands behind a tuple in such a text is array dimensions.
-/

namespace ChainClient.Abi.AbiType

open Text

/-! ## Balanced texts -/

/-- The depth of parentheses behind a text, if none is closed that is not open. -/
def depthThrough? (depth : Nat) : List Char → Option Nat
  | [] => some depth
  | char :: rest =>
      if char = ')' ∧ depth = 0 then none else depthThrough? (depthAfter depth char) rest

/-- Each parenthesis that the text opens it closes again, and it closes no other. -/
def IsBalanced (text : List Char) : Prop :=
  ∀ depth, depthThrough? depth text = some depth

theorem depthThrough?_append (depth : Nat) (text more : List Char) :
    depthThrough? depth (text ++ more) =
      (depthThrough? depth text).bind fun depth => depthThrough? depth more := by
  induction text generalizing depth with
  | nil => rfl
  | cons char text ih =>
      rw [List.cons_append, depthThrough?, depthThrough?]
      split
      · rfl
      · exact ih _

/-- More open parentheses around a text do not change what it opens and closes. -/
theorem depthThrough?_succ {depth deeper : Nat} {text : List Char}
    (hdepth : depthThrough? depth text = some deeper) :
    depthThrough? (depth + 1) text = some (deeper + 1) := by
  induction text generalizing depth with
  | nil =>
      cases hdepth
      rfl
  | cons char text ih =>
      rw [depthThrough?] at hdepth ⊢
      split at hdepth
      · cases hdepth
      next hopen =>
        rw [if_neg (by omega)]
        have hafter : depthAfter (depth + 1) char = depthAfter depth char + 1 := by
          unfold depthAfter
          split
          · rfl
          split
          next hclosing =>
            rw [not_and] at hopen
            have hpositive := hopen hclosing
            omega
          · rfl
        rw [hafter]
        exact ih hdepth

theorem isBalanced_nil : IsBalanced [] := fun _ => rfl

theorem IsBalanced.append {text more : List Char} (htext : IsBalanced text)
    (hmore : IsBalanced more) : IsBalanced (text ++ more) := by
  intro depth
  rw [depthThrough?_append, htext depth, Option.bind_some, hmore depth]

theorem isBalanced_of_plain {text : List Char}
    (hplain : ∀ char ∈ text, char ≠ '(' ∧ char ≠ ')') : IsBalanced text := by
  intro depth
  induction text with
  | nil => rfl
  | cons char text ih =>
      obtain ⟨⟨hopening, hclosing⟩, htext⟩ := List.forall_mem_cons.mp hplain
      rw [depthThrough?, if_neg (by simp [hclosing]), depthAfter, if_neg hopening,
        if_neg hclosing, ih htext]

theorem IsBalanced.parenthesized {text : List Char} (htext : IsBalanced text) :
    IsBalanced ('(' :: text ++ [')']) := by
  intro depth
  have hopening : depthThrough? depth ('(' :: text ++ [')']) =
      depthThrough? (depth + 1) (text ++ [')']) := by
    simp [depthThrough?, depthAfter]
  rw [hopening, depthThrough?_append, htext]
  simp [depthThrough?, depthAfter]

/-- Balanced texts with commas between them are balanced. -/
theorem isBalanced_joined {first : List Char} {others : List (List Char)}
    (hfirst : IsBalanced first) (hothers : ∀ other ∈ others, IsBalanced other) :
    IsBalanced (first ++ others.flatMap (',' :: ·)) := by
  refine hfirst.append ?_
  induction others with
  | nil => exact isBalanced_nil
  | cons other others ih =>
      obtain ⟨hother, hothers⟩ := List.forall_mem_cons.mp hothers
      have hcomma : IsBalanced [','] := isBalanced_of_plain (by simp)
      exact (hcomma.append hother).append (ih hothers)

/-! ## Blanks around a text -/

theorem isBalanced_of_blank {text : List Char} (hblank : ∀ char ∈ text, isBlank char = true) :
    IsBalanced text := by
  refine isBalanced_of_plain fun char hchar => ⟨?_, ?_⟩
  · rintro rfl
    exact absurd (hblank _ hchar) (by decide)
  · rintro rfl
    exact absurd (hblank _ hchar) (by decide)

theorem exists_eq_trimEnd_append (text : List Char) :
    ∃ blanks, text = trimEnd text ++ blanks ∧ ∀ char ∈ blanks, isBlank char = true := by
  induction text with
  | nil => exact ⟨[], rfl, by simp⟩
  | cons char rest ih =>
      obtain ⟨blanks, hrest, hblanks⟩ := ih
      rw [trimEnd]
      split
      next hkept =>
        rw [hkept, List.nil_append] at hrest
        subst hrest
        split
        next hchar => exact ⟨char :: rest, rfl, List.forall_mem_cons.mpr ⟨hchar, hblanks⟩⟩
        next => exact ⟨rest, rfl, hblanks⟩
      next => exact ⟨blanks, congrArg (char :: ·) hrest, hblanks⟩

theorem IsBalanced.of_trim {text : List Char} (htrim : IsBalanced (trim text)) :
    IsBalanced text := by
  obtain ⟨blanks, hrest, hblanks⟩ := exists_eq_trimEnd_append (text.dropWhile isBlank)
  rw [← List.takeWhile_append_dropWhile (p := isBlank) (l := text), hrest]
  have hfront : IsBalanced (text.takeWhile isBlank) :=
    isBalanced_of_blank (List.all_eq_true.mp List.all_takeWhile)
  exact hfront.append (htrim.append (isBalanced_of_blank hblanks))

/-- Blanks are passed over behind the last character that is none. -/
theorem trimEnd_append {front : List Char} (hfront : front ≠ [])
    (hlast : ∀ char ∈ front.getLast?, isBlank char = false) (back : List Char) :
    trimEnd (front ++ back) = front ++ trimEnd back := by
  induction front with
  | nil => exact absurd rfl hfront
  | cons char front ih =>
      cases front with
      | nil =>
          have hvisible : isBlank char = false := hlast char rfl
          rw [List.singleton_append, trimEnd, hvisible]
          cases trimEnd back <;> rfl
      | cons next front =>
          have hrest := ih (List.cons_ne_nil _ _) hlast
          rw [List.cons_append, trimEnd, hrest]
          rfl

/-! ## Texts that denote types -/

theorem not_parenthesis_of_isDigit {char : Char} (hdigit : char.isDigit = true) :
    char ≠ '(' ∧ char ≠ ')' := by
  constructor <;>
  · rintro rfl
    exact absurd hdigit (by decide)

/-- A count is written in digits behind at most a sign. -/
theorem isBalanced_of_count? {limit number : Nat} {digits : List Char}
    (hcount : count? 10 limit digits = some number) : IsBalanced digits := by
  obtain ⟨-, hdigits, -⟩ := digits?_ten_eq_some_iff.mp (Option.filter_eq_some_iff.mp hcount).1
  have hcounted : IsBalanced (countDigits digits) := isBalanced_of_plain fun char hchar =>
    not_parenthesis_of_isDigit (hdigits char hchar)
  unfold countDigits at hcounted
  split at hcounted
  next rest =>
    have hsign : IsBalanced ['+'] := isBalanced_of_plain (by simp)
    exact hsign.append hcounted
  next => exact hcounted

theorem isBalanced_of_plainCount? {number : Nat} {digits : List Char}
    (hcount : plainCount? digits = some number) : IsBalanced digits := by
  unfold plainCount? at hcount
  split at hcount
  · cases hcount
  · exact isBalanced_of_count? hcount

theorem isBalanced_of_width? {bits : Nat} {digits : List Char}
    (hwidth : width? digits = some bits) : IsBalanced digits := by
  cases digits with
  | nil => exact isBalanced_nil
  | cons digit digits =>
      exact isBalanced_of_plainCount? (Option.filter_eq_some_iff.mp hwidth).1

theorem isBalanced_of_names {name : List Char} {type : AbiType} (hname : Names name type) :
    IsBalanced name := by
  cases hname with
  | uint hwidth => exact (isBalanced_of_plain (by simp)).append (isBalanced_of_width? hwidth)
  | int hwidth => exact (isBalanced_of_plain (by simp)).append (isBalanced_of_width? hwidth)
  | fixedBytes hcount =>
      exact (isBalanced_of_plain (by simp)).append (isBalanced_of_plainCount? hcount)
  | _ => exact isBalanced_of_plain (by simp)

theorem isBalanced_of_withDimension? {element type : AbiType} {size : List Char}
    (htype : withDimension? element size = some type) : IsBalanced size := by
  cases size with
  | nil => exact isBalanced_nil
  | cons digit digits =>
      simp only [withDimension?, Option.map_eq_some_iff] at htype
      obtain ⟨length, hlength, -⟩ := htype
      exact isBalanced_of_count? (Option.filter_eq_some_iff.mp hlength).1

/-- The body of a tuple is balanced if its parts are. -/
theorem isBalanced_of_memberTexts {body : List Char} {members : List AbiType}
    (hmembers : List.Forall₂ (fun part _ => IsBalanced part) (memberTexts body) members) :
    IsBalanced body := by
  have hparts : ∀ part ∈ memberTexts body, IsBalanced part := by
    intro part hpart
    obtain ⟨position, hposition, rfl⟩ := List.mem_iff_getElem.mp hpart
    exact hmembers.get hposition (hmembers.length_eq ▸ hposition)
  rw [memberTexts] at hparts
  split at hparts
  next hblank =>
    refine .of_trim ?_
    rw [hblank]
    exact isBalanced_nil
  next =>
    cases hsplit : splitAtCommas 0 body with
    | mk first others =>
        rw [hsplit] at hparts
        obtain ⟨hfirst, hothers⟩ := List.forall_mem_cons.mp hparts
        rw [eq_append_of_splitAtCommas hsplit]
        exact isBalanced_joined hfirst hothers

theorem isBalanced_of_parseChars {text : List Char} {type : AbiType}
    (hparse : parseChars text = .ok type) : IsBalanced text := by
  refine parseChars_induction (motive := fun text _ => IsBalanced text) ?dimension ?members ?name
    hparse
  case dimension =>
    intro text element size inner type hform helement htype
    refine .of_trim ?_
    rw [(form_eq_dimension_iff.mp hform).1]
    have hopening : IsBalanced ['['] := isBalanced_of_plain (by simp)
    have hsize := hopening.append (isBalanced_of_withDimension? htype)
    exact (helement.append hsize).append (isBalanced_of_plain (by simp))
  case members =>
    intro text texts members hform hmembers
    obtain ⟨body, htext, rfl⟩ := form_eq_members_iff.mp hform
    refine .of_trim ?_
    rw [htext]
    exact (isBalanced_of_memberTexts hmembers).parenthesized
  case name =>
    intro text name type hform hname
    rw [eq_of_form_eq_name hform] at hname
    exact .of_trim (isBalanced_of_names (names_of_named? hname))

/-! ## Tuples with dimensions -/

theorem base_withDimension? {element type : AbiType} {size : List Char}
    (htype : withDimension? element size = some type) : type.base = element.base := by
  cases size with
  | nil =>
      cases htype
      rfl
  | cons digit digits =>
      simp only [withDimension?, Option.map_eq_some_iff] at htype
      obtain ⟨length, -, rfl⟩ := htype
      rfl

theorem isBalanced_spellings {types : List AbiType} (hwell : areWellFormed types = true) :
    IsBalanced (spellings types) := by
  rw [areWellFormed_iff] at hwell
  have hspelling : ∀ type ∈ types, IsBalanced (spelling type) := fun type htype =>
    isBalanced_of_parseChars (parseChars_spelling (hwell type htype))
  cases types with
  | nil => exact isBalanced_nil
  | cons type types =>
      obtain ⟨hfirst, hothers⟩ := List.forall_mem_cons.mp hspelling
      rw [spellings_cons, ← List.flatMap_map spelling (',' :: ·)]
      exact isBalanced_joined hfirst (by simpa using hothers)

/-- A balanced text that a tuple starts with is the whole tuple. -/
theorem eq_nil_of_isBalanced_prefix {inner front back : List Char} (hinner : IsBalanced inner)
    (hfront : IsBalanced front) (hnonempty : front ≠ [])
    (hsplit : '(' :: inner ++ [')'] = front ++ back) : back = [] := by
  obtain ⟨char, front, rfl⟩ := List.exists_cons_of_ne_nil hnonempty
  rw [List.cons_append, List.cons_append, List.cons.injEq] at hsplit
  obtain ⟨rfl, hrest⟩ := hsplit
  rcases List.eq_nil_or_concat back with rfl | ⟨back, last, rfl⟩
  · rfl
  -- the body goes on behind the text, so that the text leaves a parenthesis open
  · rw [List.concat_eq_append, ← List.append_assoc] at hrest
    obtain ⟨rfl, -⟩ := List.append_inj' hrest rfl
    have hopen := hinner 0
    rw [depthThrough?_append] at hopen
    obtain ⟨depth, hdepth, -⟩ := Option.bind_eq_some_iff.mp hopen
    have hclosed : depthThrough? 1 front = some 0 := hfront 0
    rw [depthThrough?_succ hdepth] at hclosed
    cases hclosed

theorem head?_ne_of_names {name : List Char} {type : AbiType} (hname : Names name type) :
    name.head? ≠ some '(' := by
  cases hname <;> simp

theorem trim_spelling_append (types : List AbiType) (behind : List Char) :
    trim ((tuple types).spelling ++ behind) = (tuple types).spelling ++ trimEnd behind := by
  have hstart : ((tuple types).spelling ++ behind).dropWhile isBlank =
      (tuple types).spelling ++ behind :=
    List.dropWhile_cons_of_neg (by decide)
  have hlast : ∀ char ∈ (tuple types).spelling.getLast?, isBlank char = false := by
    rw [spelling_tuple, List.getLast?_concat]
    rintro char ⟨⟩
    decide
  rw [trim, hstart, trimEnd_append (spelling_ne_nil _) hlast]

/-- If a tuple's text with more behind it denotes a type, the type is built on this tuple, by
induction on what stands behind. -/
theorem base_of_parseChars_append {types : List AbiType} {behind : List Char} {type : AbiType}
    (hwell : (tuple types).isWellFormed = true)
    (hparse : parseChars ((tuple types).spelling ++ behind) = .ok type) :
    type.base = .tuple types := by
  induction hlength : behind.length using Nat.strongRecOn generalizing behind type with
  | ind length ih =>
      have hinner := isBalanced_spellings hwell
      have htrimmed := length_trimEnd_le behind
      rw [parseChars_eq_ok_iff, trim_spelling_append] at hparse
      by_cases hbehind : trimEnd behind = []
      · have hsame : parseChars (tuple types).spelling = .ok type := by
          rw [parseChars_eq_ok_iff, (isUnbroken_spelling _).trim_eq]
          simpa [hbehind] using hparse
        rw [parseChars_spelling hwell] at hsame
        cases hsame
        rfl
      split at hparse
      next => exact hparse.elim
      next element size hform =>
        obtain ⟨elementType, helement, htype⟩ := hparse
        have hsplit := (form_eq_dimension_iff.mp hform).1
        rw [List.append_assoc] at hsplit
        have hmore : ∃ more, element = (tuple types).spelling ++ more ∧ more.length < length := by
          rcases List.append_eq_append_iff.mp hsplit with
            ⟨more, rfl, hrest⟩ | ⟨more, htuple, hrest⟩
          · refine ⟨more, rfl, ?_⟩
            have hlonger := congrArg List.length hrest
            simp only [List.length_append, List.length_cons] at hlonger
            omega
          · have hnonempty : element ≠ [] := by
              rintro rfl
              rw [List.nil_append] at htuple
              subst htuple
              cases hrest
            obtain rfl := eq_nil_of_isBalanced_prefix hinner (isBalanced_of_parseChars helement)
              hnonempty htuple
            refine ⟨[], by simpa using htuple.symm, ?_⟩
            have hpositive := List.length_pos_of_ne_nil hbehind
            simp only [List.length_nil]
            omega
        obtain ⟨more, rfl, hshorter⟩ := hmore
        rw [base_withDimension? htype, ih more.length hshorter helement rfl]
      next texts hform =>
        obtain ⟨members, hmembers, -⟩ := hparse
        obtain ⟨body, hbody, rfl⟩ := form_eq_members_iff.mp hform
        obtain ⟨rest, last, hrest⟩ := (List.eq_nil_or_concat (trimEnd behind)).resolve_left hbehind
        rw [hrest, List.concat_eq_append, spelling_tuple, List.cons_append, List.cons_append,
          List.cons_append, List.cons.injEq, ← List.append_assoc] at hbody
        obtain ⟨rfl, -⟩ := List.append_inj' hbody.2 rfl
        -- the tuple is closed before the body is over
        have hclosed := isBalanced_of_memberTexts
          (hmembers.imp fun _ _ hpart => isBalanced_of_parseChars hpart) 0
        rw [List.append_assoc, depthThrough?_append, hinner] at hclosed
        cases hclosed
      next name hform =>
        rw [eq_of_form_eq_name hform] at hparse
        exact absurd rfl (head?_ne_of_names (names_of_named? hparse))

end ChainClient.Abi.AbiType
