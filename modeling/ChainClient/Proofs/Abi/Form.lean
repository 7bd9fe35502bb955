import ChainClient.Abi.Type.Parser
import ChainClient.Proofs.Abi.Induction

/-!
# How texts of types are put together

The parser takes a text apart at its last bracket, or at the commas between its
parentheses. Each step has an inverse, so that the form of a text says what the text
is. Parsing succeeds exactly if it succeeds on the parts, and what holds of parts and
their types carries over to the whole by induction.
-/

namespace ChainClient.Abi

namespace AbiType

open Text

/-! ## Texts without blanks -/

/-- No character of the text is blank. -/
def IsUnbroken (text : List Char) : Prop :=
  ∀ char ∈ text, isBlank char = false

theorem IsUnbroken.trim_eq {text : List Char} (hunbroken : IsUnbroken text) : trim text = text := by
  have hstart : text.dropWhile isBlank = text := by
    cases text with
    | nil => rfl
    | cons char rest => exact List.dropWhile_cons_of_neg (by simp [hunbroken char])
  rw [trim, hstart, trimEnd_of_all_visible hunbroken]

theorem IsUnbroken.of_isInfix {text part : List Char} (hunbroken : IsUnbroken text)
    (hpart : part <:+: text) : IsUnbroken part :=
  fun char hchar => hunbroken char (hpart.subset hchar)

/-! ## Taking a text apart -/

theorem beforeLast?_eq_some_iff {last : Char} {text front : List Char} :
    beforeLast? last text = some front ↔ text = front ++ [last] := by
  induction text generalizing front with
  | nil => simp [beforeLast?]
  | cons char rest ih =>
      cases rest with
      | nil =>
          rw [beforeLast?, List.singleton_eq_append_iff]
          split
          next hchar => simp [hchar]
          next hchar => simp [Ne.symm hchar]
      | cons next rest =>
          rw [beforeLast?, Option.map_eq_some_iff]
          · cases front with
            | nil => simp
            | cons first front => simp [ih, and_comm]
          · simp

theorem splitAtBracket?_eq_none_iff {text : List Char} :
    splitAtBracket? text = none ↔ '[' ∉ text := by
  induction text with
  | nil => simp [splitAtBracket?]
  | cons char rest ih =>
      rw [splitAtBracket?, List.mem_cons, not_or, ← ih]
      cases splitAtBracket? rest with
      | none => simp [eq_comm]
      | some found => simp

theorem splitAtBracket?_append {element size : List Char} (hsize : '[' ∉ size) :
    splitAtBracket? (element ++ '[' :: size) = some (element, size) := by
  induction element with
  | nil => simp [splitAtBracket?, splitAtBracket?_eq_none_iff.mpr hsize]
  | cons char element ih => rw [List.cons_append, splitAtBracket?, ih]

/-- A text is split at its last opening bracket. -/
theorem eq_append_of_splitAtBracket? {text element size : List Char}
    (hsplit : splitAtBracket? text = some (element, size)) :
    text = element ++ '[' :: size ∧ '[' ∉ size := by
  induction text generalizing element with
  | nil => simp [splitAtBracket?] at hsplit
  | cons char rest ih =>
      rw [splitAtBracket?] at hsplit
      split at hsplit
      next front back hrest =>
        simp only [Option.some.injEq, Prod.mk.injEq] at hsplit
        obtain ⟨rfl, rfl⟩ := hsplit
        obtain ⟨rfl, hback⟩ := ih hrest
        exact ⟨rfl, hback⟩
      next hrest =>
        split at hsplit
        next hchar =>
          simp only [Option.some.injEq, Prod.mk.injEq] at hsplit
          obtain ⟨rfl, rfl⟩ := hsplit
          exact ⟨congrArg (· :: rest) hchar, splitAtBracket?_eq_none_iff.mp hrest⟩
        next => simp at hsplit

/-- The parts of a text with the commas between them are the text. -/
theorem eq_append_of_splitAtCommas {depth : Nat} {text first : List Char}
    {others : List (List Char)} (hsplit : splitAtCommas depth text = (first, others)) :
    text = first ++ others.flatMap (',' :: ·) := by
  induction text generalizing depth first others with
  | nil =>
      simp only [splitAtCommas, Prod.mk.injEq] at hsplit
      obtain ⟨rfl, rfl⟩ := hsplit
      rfl
  | cons char rest ih =>
      rw [splitAtCommas] at hsplit
      split at hsplit
      next hcomma =>
        simp only [Prod.mk.injEq] at hsplit
        obtain ⟨rfl, rfl⟩ := hsplit
        rw [List.nil_append, List.flatMap_cons, List.cons_append, ← ih rfl, hcomma.1]
      next =>
        simp only [Prod.mk.injEq] at hsplit
        obtain ⟨rfl, rfl⟩ := hsplit
        rw [List.cons_append, ← ih rfl]

/-! ## Forms -/

theorem form_eq_dimension_iff {text element size : List Char} :
    Form.of text = .dimension element size ↔
      text = element ++ '[' :: size ++ [']'] ∧ '[' ∉ size := by
  constructor
  · intro hform
    unfold Form.of at hform
    split at hform
    next opened hopened =>
      split at hform
      · cases hform
      next hsplit =>
        cases hform
        obtain ⟨rfl, hsize⟩ := eq_append_of_splitAtBracket? hsplit
        exact ⟨beforeLast?_eq_some_iff.mp hopened, hsize⟩
    next =>
      split at hform
      · split at hform <;> cases hform
      · cases hform
  · rintro ⟨rfl, hsize⟩
    unfold Form.of
    simp only [beforeLast?_eq_some_iff.mpr rfl, splitAtBracket?_append hsize]

theorem beforeLast?_eq_none {last char : Char} (hchar : char ≠ last) (front : List Char) :
    beforeLast? last (front ++ [char]) = none := by
  rw [Option.eq_none_iff_forall_ne_some]
  intro other hother
  have heq := beforeLast?_eq_some_iff.mp hother
  exact hchar (List.cons.inj (List.append_inj_right' heq rfl)).1

theorem form_eq_members_iff {text : List Char} {texts : List (List Char)} :
    Form.of text = .members texts ↔
      ∃ body, text = '(' :: body ++ [')'] ∧ memberTexts body = texts := by
  constructor
  · intro hform
    unfold Form.of at hform
    split at hform
    · split at hform <;> cases hform
    next =>
      split at hform
      next rest =>
        split at hform
        next body hbody =>
          cases hform
          exact ⟨body, congrArg ('(' :: ·) (beforeLast?_eq_some_iff.mp hbody), rfl⟩
        next => cases hform
      next => cases hform
  · rintro ⟨body, rfl, rfl⟩
    unfold Form.of
    rw [beforeLast?_eq_none (by decide)]
    simp only [List.cons_append, beforeLast?_eq_some_iff.mpr rfl]

theorem eq_of_form_eq_name {text name : List Char} (hform : Form.of text = .name name) :
    name = text := by
  unfold Form.of at hform
  split at hform
  · split at hform <;> cases hform
  next =>
    split at hform
    · split at hform <;> cases hform
      rfl
    · cases hform
      rfl

/-- A text that neither ends with a bracket nor starts with a parenthesis is a name. -/
theorem form_eq_name {text : List Char} (hlast : text.getLast? ≠ some ']')
    (hhead : text.head? ≠ some '(') : Form.of text = .name text := by
  have hopened : beforeLast? ']' text = none := by
    rw [Option.eq_none_iff_forall_ne_some]
    rintro front hfront
    obtain rfl := beforeLast?_eq_some_iff.mp hfront
    exact hlast List.getLast?_concat
  unfold Form.of
  simp only [hopened]
  split
  · simp at hhead
  · rfl

/-! ## Names -/

theorem after?_eq_some_iff {beginning text rest : List Char} :
    after? beginning text = some rest ↔ text = beginning ++ rest := by
  induction beginning generalizing text with
  | nil => simp [after?]
  | cons expected beginning ih =>
      cases text with
      | nil => simp [after?]
      | cons char text =>
          rw [after?, List.cons_append, List.cons.injEq, eq_comm (a := char), ← ih]
          split <;> simp [*]

/-- The names of types, with the digits behind those that have a width or a length. -/
inductive Names : List Char → AbiType → Prop where
  | bool : Names "bool".toList .bool
  | address : Names "address".toList .address
  | string : Names "string".toList .string
  | bytes : Names "bytes".toList .bytes
  | uint {digits : List Char} {bits : Nat} (hwidth : width? digits = some bits) :
      Names ("uint".toList ++ digits) (.uint bits)
  | int {digits : List Char} {bits : Nat} (hwidth : width? digits = some bits) :
      Names ("int".toList ++ digits) (.int bits)
  | fixedBytes {digits : List Char} {length : Nat} (hcount : plainCount? digits = some length)
      (hlength : 1 ≤ length ∧ length ≤ 32) : Names ("bytes".toList ++ digits) (.fixedBytes length)

theorem names_of_named? {name : List Char} {type : AbiType} (hname : named? name = some type) :
    Names name type := by
  unfold named? at hname
  split at hname
  next heq => cases hname; exact heq ▸ .bool
  split at hname
  next heq => cases hname; exact heq ▸ .address
  split at hname
  next heq => cases hname; exact heq ▸ .string
  split at hname
  next heq => cases hname; exact heq ▸ .bytes
  split at hname
  next digits hdigits =>
    obtain ⟨bits, hbits, rfl⟩ := Option.map_eq_some_iff.mp hname
    exact after?_eq_some_iff.mp hdigits ▸ .uint hbits
  split at hname
  next digits hdigits =>
    obtain ⟨bits, hbits, rfl⟩ := Option.map_eq_some_iff.mp hname
    exact after?_eq_some_iff.mp hdigits ▸ .int hbits
  split at hname
  next digits hdigits =>
    obtain ⟨length, hlength, rfl⟩ := Option.map_eq_some_iff.mp hname
    obtain ⟨hcount, hbounds⟩ := Option.filter_eq_some_iff.mp hlength
    exact after?_eq_some_iff.mp hdigits ▸ .fixedBytes hcount (by simpa using hbounds)
  next => cases hname

/-! ## Parsing by form -/

section Parsing

variable {text : List Char} {type : AbiType}

theorem parseChars_eq_ok_iff :
    parseChars text = .ok type ↔
      match Form.of (trim text) with
      | .unopened => False
      | .dimension element size =>
          ∃ inner, parseChars element = .ok inner ∧ withDimension? inner size = some type
      | .members texts =>
          ∃ members, List.Forall₂ (fun part member => parseChars part = .ok member) texts members ∧
            .tuple members = type
      | .name name => named? name = some type := by
  rw [parseChars]
  split
  next hform => simp [hform]
  next element size hform =>
    simp only [hform]
    cases parseChars element with
    | error error => simp [bind, Except.bind]
    | ok inner =>
        simp only [bind, Except.bind, Except.ok.injEq, exists_eq_left']
        cases withDimension? inner size <;> simp
  next texts hform =>
    simp only [hform]
    rw [List.mapM_subtype fun _ _ => rfl, List.unattach_attach]
    simp only [← mapM_eq_ok_iff]
    cases texts.mapM parseChars <;> simp [bind, Except.bind]
  next name hform =>
    simp only [hform]
    cases named? name <;> simp

/-- What passes from the parts of a text and their types to the text and its type
holds of every text and the type it denotes. -/
theorem parseChars_induction {motive : List Char → AbiType → Prop}
    (dimension : ∀ {text element size inner type}, Form.of (trim text) = .dimension element size →
      motive element inner → withDimension? inner size = some type → motive text type)
    (members : ∀ {text texts members}, Form.of (trim text) = .members texts →
      List.Forall₂ motive texts members → motive text (.tuple members))
    (name : ∀ {text name type}, Form.of (trim text) = .name name → named? name = some type →
      motive text type)
    (hparse : parseChars text = .ok type) : motive text type := by
  -- the parts of a text are shorter than the text
  induction hlength : text.length using Nat.strongRecOn generalizing text type with
  | ind length ih =>
      have htrim := length_trim_le text
      rw [parseChars_eq_ok_iff] at hparse
      split at hparse
      next => exact hparse.elim
      next element size hform =>
        obtain ⟨inner, hinner, htype⟩ := hparse
        have hshorter := length_of_dimension hform
        exact dimension hform (ih element.length (by omega) hinner rfl) htype
      next texts hform =>
        obtain ⟨types, htypes, rfl⟩ := hparse
        have hparts := (List.forall₂_and_left _ _).mpr ⟨fun _ hpart => hpart, htypes⟩
        refine members hform (hparts.imp fun part member hpart => ?_)
        have hshorter := length_of_members hform hpart.1
        exact ih part.length (by omega) hpart.2 rfl
      next _ hform => exact name hform hparse

end Parsing

end AbiType

end ChainClient.Abi
