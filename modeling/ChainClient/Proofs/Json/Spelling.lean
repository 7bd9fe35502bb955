import Mathlib.Data.List.TakeWhile
import ChainClient.Json.Parser
import ChainClient.Json.Printer

/-!
# Texts that spell JSON values

A value is spelled with blanks between its tokens and with escapes in its texts, as one
likes. Every spelling of a value is read as the value, as long as its arrays and objects
are not nested more deeply than the reader goes. Numbers have no spelling here: an
interface holds none.
-/

namespace ChainClient.Json

open Text

/-! ## Induction over values -/

/-- A statement holds of every value if it holds of the plain ones and of every array and
object whose parts have it. -/
@[elab_as_elim, induction_eliminator]
theorem induction {motive : Json → Prop}
    (null : motive .null)
    (bool : ∀ value, motive (.bool value))
    (number : ∀ literal, motive (.number literal))
    (string : ∀ text, motive (.string text))
    (array : ∀ items, (∀ item ∈ items, motive item) → motive (.array items))
    (object : ∀ members, (∀ member ∈ members, motive member.2) → motive (.object members))
    (unreadable : motive .unreadable) :
    ∀ value, motive value :=
  fun value =>
    @Json.rec motive (fun items => ∀ item ∈ items, motive item)
      (fun members => ∀ member ∈ members, motive member.2) (fun member => motive member.2)
      null bool number string array object unreadable
      (fun _ hmem => absurd hmem List.not_mem_nil)
      (fun _ _ hhead htail _ hmem =>
        (List.mem_cons.mp hmem).elim (fun heq => heq ▸ hhead) (htail _))
      (fun _ hmem => absurd hmem List.not_mem_nil)
      (fun _ _ hhead htail _ hmem =>
        (List.mem_cons.mp hmem).elim (fun heq => heq ▸ hhead) (htail _))
      (fun _ _ hvalue => hvalue)
      value

/-! ## Spellings -/

def AreSpaces (text : List Char) : Prop :=
  ∀ char ∈ text, isSpace char = true

/-- A text that is another one with blanks around it. -/
def Pads (inner text : List Char) : Prop :=
  ∃ before after, AreSpaces before ∧ AreSpaces after ∧ text = before ++ inner ++ after

/-- What stands between quotes for the given characters: each character itself, unless it is
a quote, a backslash, or a control character, or one of the escapes for it. -/
inductive Quotes : List Char → List Char → Prop where
  | nil : Quotes [] []
  | plain {char : Char} {chars text : List Char} (hquote : char ≠ '\x22') (hslash : char ≠ '\\')
      (hcontrol : 32 ≤ char.toNat) (hrest : Quotes chars text) :
      Quotes (char :: chars) (char :: text)
  | short {letter char : Char} {chars text : List Char} (hletter : shortEscape? letter = some char)
      (hrest : Quotes chars text) : Quotes (char :: chars) ('\\' :: letter :: text)
  | unit {first second third fourth : Char} {value : Nat} {chars text : List Char}
      (hunit : unit? first second third fourth = some value)
      (hwhole : isLeading value = false ∧ isTrailing value = false) (hrest : Quotes chars text) :
      Quotes (Char.ofNat value :: chars) ('\\' :: 'u' :: first :: second :: third :: fourth :: text)
  | pair {a b c d e f g h : Char} {leading trailing : Nat} {chars text : List Char}
      (hleading : unit? a b c d = some leading) (hfirst : isLeading leading = true)
      (htrailing : unit? e f g h = some trailing) (hsecond : isTrailing trailing = true)
      (hrest : Quotes chars text) :
      Quotes (Char.ofNat (0x10000 + (leading - 0xd800) * 0x400 + (trailing - 0xdc00)) :: chars)
        ('\\' :: 'u' :: a :: b :: c :: d :: '\\' :: 'u' :: e :: f :: g :: h :: text)

def IsQuoted (value : String) (text : List Char) : Prop :=
  ∃ body, Quotes value.toList body ∧ text = '\x22' :: body ++ ['\x22']

mutual

/-- The text spells the value, with neither blanks in front of it nor behind it. -/
def Spells : Json → List Char → Prop
  | .null, text => text = "null".toList
  | .bool true, text => text = "true".toList
  | .bool false, text => text = "false".toList
  | .string value, text => IsQuoted value text
  | .array items, text => ∃ body, SpellsItems items body ∧ text = '[' :: body ++ [']']
  | .object members, text => ∃ body, SpellsMembers members body ∧ text = '\x7b' :: body ++ ['\x7d']
  | .number _, _ => False
  | .unreadable, _ => False

/-- The text spells the values between the brackets of an array. -/
def SpellsItems : List Json → List Char → Prop
  | [], text => AreSpaces text
  | [item], text => ∃ inner, Spells item inner ∧ Pads inner text
  | item :: items, text => ∃ inner padded others,
      Spells item inner ∧ Pads inner padded ∧ SpellsItems items others ∧
        text = padded ++ ',' :: others

/-- The text spells the members between the braces of an object. -/
def SpellsMembers : List (String × Json) → List Char → Prop
  | [], text => AreSpaces text
  | [(key, value)], text => ∃ quoted front inner back,
      IsQuoted key quoted ∧ Pads quoted front ∧ Spells value inner ∧ Pads inner back ∧
        text = front ++ ':' :: back
  | (key, value) :: members, text => ∃ quoted front inner back others,
      IsQuoted key quoted ∧ Pads quoted front ∧ Spells value inner ∧ Pads inner back ∧
        SpellsMembers members others ∧ text = front ++ ':' :: (back ++ ',' :: others)

end

mutual

/-- How many arrays and objects are nested in a value at most. -/
def nesting : Json → Nat
  | .array items => itemsNesting items + 1
  | .object members => membersNesting members + 1
  | _ => 0

def itemsNesting : List Json → Nat
  | [] => 0
  | item :: items => max (nesting item) (itemsNesting items)

def membersNesting : List (String × Json) → Nat
  | [] => 0
  | (_, value) :: members => max (nesting value) (membersNesting members)

end

attribute [local simp] Spells SpellsItems SpellsMembers nesting itemsNesting membersNesting

/-! ## Blanks -/

theorem skipSpaces_append {spaces : List Char} (hspaces : AreSpaces spaces) (text : List Char) :
    skipSpaces (spaces ++ text) = skipSpaces text :=
  List.dropWhile_append_of_pos hspaces

theorem skipSpaces_cons (char : Char) (hchar : isSpace char = false) (text : List Char) :
    skipSpaces (char :: text) = char :: text := by
  rw [skipSpaces, List.dropWhile_cons_of_neg (by simp [hchar])]

/-! ## Texts -/

theorem joinPieces?_unit {value : Nat} (hleading : isLeading value = false)
    (htrailing : isTrailing value = false) (pieces : List Piece) :
    joinPieces? (.unit value :: pieces) = (joinPieces? pieces).map (Char.ofNat value :: ·) := by
  cases pieces with
  | nil => simp [joinPieces?, hleading, htrailing]
  | cons piece pieces => cases piece <;> simp [joinPieces?, hleading, htrailing]

/-- What stands between quotes is read as the characters it stands for. -/
theorem pieces?_of_quotes {chars text : List Char} (hquotes : Quotes chars text)
    (rest : List Char) :
    ∃ pieces, pieces? (text ++ '\x22' :: rest) = some (pieces, rest) ∧
      joinPieces? pieces = some chars := by
  induction hquotes with
  | nil => exact ⟨[], by simp [pieces?], rfl⟩
  | @plain char chars text hquote hslash hcontrol hrest ih =>
      obtain ⟨pieces, hpieces, hjoin⟩ := ih
      refine ⟨.char char :: pieces, ?_, by simp [joinPieces?, hjoin]⟩
      rw [List.cons_append, pieces?]
      · simp [hquote, hslash, hpieces, Nat.not_lt.mpr hcontrol]
      · simp [hslash]
      · simp [hslash]
  | @short letter char chars text hletter hrest ih =>
      obtain ⟨pieces, hpieces, hjoin⟩ := ih
      refine ⟨.char char :: pieces, ?_, by simp [joinPieces?, hjoin]⟩
      rw [List.cons_append, List.cons_append, pieces?]
      · simp [hletter, hpieces]
      · rintro _ _ _ _ _ rfl
        simp [shortEscape?] at hletter
  | @unit first second third fourth value chars text hunit hwhole hrest ih =>
      obtain ⟨pieces, hpieces, hjoin⟩ := ih
      refine ⟨.unit value :: pieces, ?_, ?_⟩
      · simp [pieces?, hunit, hpieces]
      · rw [joinPieces?_unit hwhole.1 hwhole.2, hjoin, Option.map_some]
  | @pair a b c d e f g h leading trailing chars text hleading hfirst htrailing hsecond hrest ih =>
      obtain ⟨pieces, hpieces, hjoin⟩ := ih
      refine ⟨.unit leading :: .unit trailing :: pieces, ?_, ?_⟩
      · simp [pieces?, hleading, htrailing, hpieces]
      · simp [joinPieces?, hfirst, hsecond, hjoin]

theorem string?_of_quotes {value : String} {body : List Char} (hquotes : Quotes value.toList body)
    (rest : List Char) : string? (body ++ '\x22' :: rest) = some (some value, rest) := by
  obtain ⟨pieces, hpieces, hjoin⟩ := pieces?_of_quotes hquotes rest
  simp [string?, hpieces, hjoin]

/-! ## Values -/

/-- A spelling begins neither with a blank nor with a closing bracket or brace. -/
theorem exists_cons_of_spells {value : Json} {text : List Char} (hspells : Spells value text) :
    ∃ char rest, text = char :: rest ∧ isSpace char = false ∧ char ≠ ']' ∧ char ≠ '\x7d' := by
  cases value with
  | null =>
      rw [Spells] at hspells
      exact ⟨_, _, hspells, by decide⟩
  | bool value => cases value <;> exact ⟨_, _, hspells, by decide⟩
  | number literal => exact hspells.elim
  | string value =>
      obtain ⟨body, -, rfl⟩ := hspells
      exact ⟨_, _, rfl, by decide⟩
  | array items =>
      obtain ⟨body, -, rfl⟩ := hspells
      exact ⟨_, _, rfl, by decide⟩
  | object members =>
      obtain ⟨body, -, rfl⟩ := hspells
      exact ⟨_, _, rfl, by decide⟩
  | unreadable => exact hspells.elim

/-- Every spelling of the value is read as the value, whatever stands behind it. -/
def IsRead (value : Json) : Prop :=
  ∀ (fuel depth : Nat) {text before : List Char}, Spells value text → AreSpaces before →
    2 * text.length ≤ fuel → depth + value.nesting < depthLimit →
      ∀ rest, value? fuel depth (before ++ (text ++ rest)) = some (value, rest)

theorem items?_of_spells {items : List Json} (hitems : ∀ item ∈ items, IsRead item)
    (hnonempty : items ≠ []) {text : List Char} (hspells : SpellsItems items text)
    {fuel depth : Nat} (hfuel : 2 * text.length < fuel)
    (hdepth : depth + itemsNesting items < depthLimit) (rest : List Char) :
    items? fuel depth (text ++ ']' :: rest) = some (items, rest) := by
  induction items generalizing text fuel with
  | nil => exact absurd rfl hnonempty
  | cons item items ih =>
      obtain ⟨hitem, hothers⟩ := List.forall_mem_cons.mp hitems
      obtain ⟨fuel, rfl⟩ := Nat.exists_eq_succ_of_ne_zero (Nat.ne_zero_of_lt hfuel)
      rw [itemsNesting] at hdepth
      cases items with
      | nil =>
          obtain ⟨inner, hinner, before, after, hbefore, hafter, rfl⟩ := hspells
          simp only [List.length_append] at hfuel
          have hread := hitem fuel depth hinner hbefore (by omega) (by omega)
            (after ++ ']' :: rest)
          simp only [items?, List.append_assoc, hread, Option.bind_eq_bind, Option.bind_some,
            skipSpaces_append hafter, skipSpaces_cons ']' (by decide)]
      | cons other items =>
          obtain ⟨inner, padded, others, hinner, ⟨before, after, hbefore, hafter, rfl⟩, hspells,
            rfl⟩ := hspells
          simp only [List.length_append, List.length_cons] at hfuel
          have hread := hitem fuel depth hinner hbefore (by omega) (by omega)
            (after ++ ',' :: (others ++ ']' :: rest))
          have hrest : items? fuel depth (others ++ ']' :: rest) = some (other :: items, rest) :=
            ih hothers (List.cons_ne_nil _ _) hspells (by omega) (by omega)
          simp only [items?, List.append_assoc, List.cons_append, hread, Option.bind_eq_bind,
            Option.bind_some, skipSpaces_append hafter, skipSpaces_cons ',' (by decide), hrest]

/-- A member is read with those behind it: none before the closing brace, and those behind a
comma. -/
theorem members?_of_member {key : String} {value : Json} {members : List (Option String × Json)}
    {quoted front text after behind rest : List Char} {fuel depth : Nat}
    (hkey : IsQuoted key quoted) (hfront : Pads quoted front)
    (hread : value? fuel depth text = some (value, after ++ behind)) (hafter : AreSpaces after)
    (hbehind : (members = [] ∧ behind = '\x7d' :: rest) ∨
      ∃ others, behind = ',' :: others ∧ members? fuel depth others = some (members, rest)) :
    members? (fuel + 1) depth (front ++ ':' :: text) =
      some ((some key, value) :: members, rest) := by
  obtain ⟨body, hbody, rfl⟩ := hkey
  obtain ⟨before, middle, hbefore, hmiddle, rfl⟩ := hfront
  simp only [members?, List.append_assoc, List.cons_append, List.nil_append,
    skipSpaces_append hbefore, skipSpaces_cons '\x22' (by decide), string?_of_quotes hbody,
    Option.bind_eq_bind, Option.bind_some, skipSpaces_append hmiddle,
    skipSpaces_cons ':' (by decide), hread, skipSpaces_append hafter]
  rcases hbehind with ⟨rfl, rfl⟩ | ⟨others, rfl, hothers⟩
  · simp only [skipSpaces_cons '\x7d' (by decide)]
  · simp only [skipSpaces_cons ',' (by decide), hothers, Option.bind_some]

theorem members?_of_spells {members : List (String × Json)}
    (hmembers : ∀ member ∈ members, IsRead member.2) (hnonempty : members ≠ [])
    {text : List Char} (hspells : SpellsMembers members text) {fuel depth : Nat}
    (hfuel : 2 * text.length < fuel) (hdepth : depth + membersNesting members < depthLimit)
    (rest : List Char) :
    members? fuel depth (text ++ '\x7d' :: rest) =
      some (members.map fun member => (some member.1, member.2), rest) := by
  induction members generalizing text fuel with
  | nil => exact absurd rfl hnonempty
  | cons member members ih =>
      obtain ⟨key, value⟩ := member
      obtain ⟨hvalue, hothers⟩ := List.forall_mem_cons.mp hmembers
      have hvalue : IsRead value := hvalue
      obtain ⟨fuel, rfl⟩ := Nat.exists_eq_succ_of_ne_zero (Nat.ne_zero_of_lt hfuel)
      rw [membersNesting] at hdepth
      cases members with
      | nil =>
          obtain ⟨quoted, front, inner, back, hkey, hfront, hinner,
            ⟨before, after, hbefore, hafter, rfl⟩, rfl⟩ := hspells
          simp only [List.length_append, List.length_cons] at hfuel
          have hread := hvalue fuel depth hinner hbefore (by omega) (by omega)
            (after ++ '\x7d' :: rest)
          simp only [List.append_assoc, List.cons_append]
          exact members?_of_member hkey hfront hread hafter (.inl ⟨rfl, rfl⟩)
      | cons other members =>
          obtain ⟨quoted, front, inner, back, others, hkey, hfront, hinner,
            ⟨before, after, hbefore, hafter, rfl⟩, hspells, rfl⟩ := hspells
          simp only [List.length_append, List.length_cons] at hfuel
          have hread := hvalue fuel depth hinner hbefore (by omega) (by omega)
            (after ++ ',' :: (others ++ '\x7d' :: rest))
          have hrest : members? fuel depth (others ++ '\x7d' :: rest) =
              some ((other :: members).map fun member => (some member.1, member.2), rest) :=
            ih hothers (List.cons_ne_nil _ _) hspells (by omega) (by omega)
          simp only [List.append_assoc, List.cons_append]
          exact members?_of_member hkey hfront hread hafter (.inr ⟨_, rfl, hrest⟩)

theorem objectOf_map_some (members : List (String × Json)) :
    objectOf (members.map fun member => (some member.1, member.2)) = .object members := by
  have hmembers : (members.map fun member => (some member.1, member.2)).mapM
      (fun member : Option String × Json => member.1.map (·, member.2)) = some members := by
    induction members with
    | nil => rfl
    | cons member members ih => simp [List.mapM_cons, ih]
  rw [objectOf, hmembers]

/-- The items of an array begin with the first item, which does not begin like the end. -/
theorem exists_cons_of_spellsItems {items : List Json} {body : List Char} (hnonempty : items ≠ [])
    (hspells : SpellsItems items body) :
    ∃ before char tail, AreSpaces before ∧ body = before ++ char :: tail ∧ isSpace char = false ∧
      char ≠ ']' := by
  match items, hnonempty, hspells with
  | [item], _, hspells =>
      obtain ⟨inner, hinner, before, after, hbefore, -, rfl⟩ := hspells
      obtain ⟨char, tail, rfl, hspace, hbracket, -⟩ := exists_cons_of_spells hinner
      exact ⟨before, char, tail ++ after, hbefore, by simp, hspace, hbracket⟩
  | item :: other :: items, _, hspells =>
      obtain ⟨inner, padded, others, hinner, ⟨before, after, hbefore, -, rfl⟩, -, rfl⟩ := hspells
      obtain ⟨char, tail, rfl, hspace, hbracket, -⟩ := exists_cons_of_spells hinner
      exact ⟨before, char, _, hbefore, by simp; rfl, hspace, hbracket⟩

theorem exists_cons_of_spellsMembers {members : List (String × Json)} {body : List Char}
    (hnonempty : members ≠ []) (hspells : SpellsMembers members body) :
    ∃ before tail, AreSpaces before ∧ body = before ++ '\x22' :: tail := by
  match members, hnonempty, hspells with
  | [(key, value)], _, hspells =>
      obtain ⟨_, front, inner, back, ⟨quoted, -, rfl⟩, ⟨before, after, hbefore, -, rfl⟩, -, -,
        rfl⟩ := hspells
      exact ⟨before, _, hbefore, by simp; rfl⟩
  | (key, value) :: other :: members, _, hspells =>
      obtain ⟨_, front, inner, back, others, ⟨quoted, -, rfl⟩, ⟨before, after, hbefore, -, rfl⟩,
        -, -, -, rfl⟩ := hspells
      exact ⟨before, _, hbefore, by simp; rfl⟩

theorem value?_array {items : List Json} (hitems : ∀ item ∈ items, IsRead item) {body : List Char}
    (hspells : SpellsItems items body) {fuel depth : Nat} (hfuel : 2 * body.length < fuel)
    (hdepth : depth + itemsNesting items + 1 < depthLimit) (rest : List Char) :
    value? (fuel + 1) depth ('[' :: (body ++ ']' :: rest)) = some (.array items, rest) := by
  have hwithin : atDepth (depth + 1) (.array items) = .array items := by
    rw [atDepth, if_neg (by omega)]
  simp only [value?, skipSpaces_cons '[' (by decide), if_true]
  by_cases hempty : items = []
  · subst hempty
    rw [skipSpaces_append hspells, skipSpaces_cons ']' (by decide)]
    exact congrArg (fun value => some (value, rest)) hwithin
  · obtain ⟨before, char, tail, hbefore, hbody, hspace, hbracket⟩ :=
      exists_cons_of_spellsItems hempty hspells
    have hskip : skipSpaces (body ++ ']' :: rest) = char :: (tail ++ ']' :: rest) := by
      rw [hbody, List.append_assoc, skipSpaces_append hbefore, List.cons_append,
        skipSpaces_cons char hspace]
    have hread : items? fuel (depth + 1) (body ++ ']' :: rest) = some (items, rest) :=
      items?_of_spells hitems hempty hspells hfuel (by omega) rest
    rw [hskip]
    split
    next hclosed => exact absurd (List.cons.inj hclosed).1 hbracket
    next => rw [hread, Option.map_some, hwithin]

theorem value?_object {members : List (String × Json)}
    (hmembers : ∀ member ∈ members, IsRead member.2) {body : List Char}
    (hspells : SpellsMembers members body) {fuel depth : Nat} (hfuel : 2 * body.length < fuel)
    (hdepth : depth + membersNesting members + 1 < depthLimit) (rest : List Char) :
    value? (fuel + 1) depth ('\x7b' :: (body ++ '\x7d' :: rest)) =
      some (.object members, rest) := by
  have hwithin : atDepth (depth + 1) (.object members) = .object members := by
    rw [atDepth, if_neg (by omega)]
  simp only [value?, skipSpaces_cons '\x7b' (by decide), if_true]
  rw [if_neg (by decide)]
  by_cases hempty : members = []
  · subst hempty
    rw [skipSpaces_append hspells, skipSpaces_cons '\x7d' (by decide)]
    exact congrArg (fun value => some (value, rest)) hwithin
  · obtain ⟨before, tail, hbefore, hbody⟩ := exists_cons_of_spellsMembers hempty hspells
    have hskip : skipSpaces (body ++ '\x7d' :: rest) = '\x22' :: (tail ++ '\x7d' :: rest) := by
      rw [hbody, List.append_assoc, skipSpaces_append hbefore, List.cons_append,
        skipSpaces_cons '\x22' (by decide)]
    have hread : members? fuel (depth + 1) (body ++ '\x7d' :: rest) =
        some (members.map fun member => (some member.1, member.2), rest) :=
      members?_of_spells hmembers hempty hspells hfuel (by omega) rest
    rw [hskip]
    split
    next hclosed => exact absurd (List.cons.inj hclosed).1 (by decide)
    next => rw [hread, Option.map_some, objectOf_map_some, hwithin]

theorem value?_append {before : List Char} (hbefore : AreSpaces before) (fuel depth : Nat)
    (text : List Char) : value? fuel depth (before ++ text) = value? fuel depth text := by
  cases fuel with
  | zero => rfl
  | succ fuel => simp only [value?, skipSpaces_append hbefore]

/-- It is enough to read a spelling without blanks in front of it. -/
theorem isRead_of_start {value : Json}
    (hstart : ∀ (fuel depth : Nat) {text : List Char}, Spells value text →
      2 * text.length ≤ fuel + 1 → depth + value.nesting < depthLimit →
        ∀ rest, value? (fuel + 1) depth (text ++ rest) = some (value, rest)) : IsRead value := by
  intro fuel depth text before hspells hbefore hfuel hdepth rest
  obtain ⟨char, tail, rfl, -⟩ := exists_cons_of_spells hspells
  obtain ⟨fuel, rfl⟩ : ∃ less, fuel = less + 1 :=
    Nat.exists_eq_succ_of_ne_zero (by rw [List.length_cons] at hfuel; omega)
  rw [value?_append hbefore]
  exact hstart fuel depth hspells hfuel hdepth rest

theorem value?_word (value : Json) {word : List Char} (fuel depth : Nat) (rest : List Char)
    (hword : (word, value) ∈ [("null".toList, .null), ("true".toList, .bool true),
      ("false".toList, .bool false)]) :
    value? (fuel + 1) depth (word ++ rest) = some (value, rest) := by
  simp only [List.mem_cons, Prod.mk.injEq, List.not_mem_nil, or_false] at hword
  rcases hword with ⟨rfl, rfl⟩ | ⟨rfl, rfl⟩ | ⟨rfl, rfl⟩ <;>
    simp [value?, skipSpaces_cons, isSpace, word?]

/-- Every spelling is read, by induction on the value that it spells. -/
theorem isRead (value : Json) : IsRead value := by
  induction value with
  | null =>
      refine isRead_of_start fun fuel depth text hspells _ _ rest => ?_
      rw [Spells] at hspells
      exact value?_word _ fuel depth rest (by simp [hspells])
  | bool value =>
      refine isRead_of_start fun fuel depth text hspells _ _ rest => ?_
      cases value <;>
        · rw [Spells] at hspells
          exact value?_word _ fuel depth rest (by simp [hspells])
  | number literal => exact fun _ _ _ _ hspells => hspells.elim
  | string value =>
      refine isRead_of_start fun fuel depth text hspells _ _ rest => ?_
      obtain ⟨body, hbody, rfl⟩ := hspells
      simp [value?, skipSpaces_cons, isSpace, string?_of_quotes hbody]
  | array items ih =>
      refine isRead_of_start fun fuel depth text hspells hfuel hdepth rest => ?_
      obtain ⟨body, hbody, rfl⟩ := hspells
      simp only [List.length_append, List.length_cons, nesting] at hfuel hdepth
      rw [List.append_assoc]
      exact value?_array ih hbody (by omega) (by omega) rest
  | object members ih =>
      refine isRead_of_start fun fuel depth text hspells hfuel hdepth rest => ?_
      obtain ⟨body, hbody, rfl⟩ := hspells
      simp only [List.length_append, List.length_cons, nesting] at hfuel hdepth
      rw [List.append_assoc]
      exact value?_object ih hbody (by omega) (by omega) rest
  | unreadable => exact fun _ _ _ _ hspells => hspells.elim

/-- A spelled value is what its document denotes, if it is not nested too deeply. -/
theorem parse?_of_spells {value : Json} {inner : List Char} {text : String}
    (hspells : Spells value inner) (hpads : Pads inner text.toList)
    (hnesting : value.nesting < depthLimit) : parse? text = some value := by
  obtain ⟨before, after, hbefore, hafter, htext⟩ := hpads
  have hread := isRead value (2 * text.toList.length + 1) 0 hspells hbefore
    (by rw [htext]; simp only [List.length_append]; omega) (by omega) after
  rw [← List.append_assoc, ← htext] at hread
  have hend : skipSpaces after = [] := List.dropWhile_eq_nil_iff.mpr hafter
  simp only [parse?, hread, hend, List.isEmpty_nil, if_true]

/-! ## Printed values -/

mutual

/-- Whether a value holds neither numbers nor parts that denote nothing. -/
def isVerbal : Json → Bool
  | .number _ | .unreadable => false
  | .array items => areItemsVerbal items
  | .object members => areMembersVerbal members
  | _ => true

def areItemsVerbal : List Json → Bool
  | [] => true
  | item :: items => isVerbal item && areItemsVerbal items

def areMembersVerbal : List (String × Json) → Bool
  | [] => true
  | (_, value) :: members => isVerbal value && areMembersVerbal members

end

attribute [local simp] isVerbal areItemsVerbal areMembersVerbal chars itemChars memberChars

theorem areItemsVerbal_iff {items : List Json} :
    areItemsVerbal items = true ↔ ∀ item ∈ items, item.isVerbal = true := by
  induction items with
  | nil => simp
  | cons item items ih => rw [areItemsVerbal, List.forall_mem_cons, Bool.and_eq_true, ih]

theorem areMembersVerbal_iff {members : List (String × Json)} :
    areMembersVerbal members = true ↔ ∀ member ∈ members, member.2.isVerbal = true := by
  induction members with
  | nil => simp
  | cons member members ih => rw [areMembersVerbal, List.forall_mem_cons, Bool.and_eq_true, ih]

theorem pads_self (text : List Char) : Pads text text :=
  ⟨[], [], by simp [AreSpaces], by simp [AreSpaces], by simp⟩

theorem unit?_control {value : Nat} (hcontrol : value < 32) :
    unit? '0' '0' (controlDigit (value / 16)) (controlDigit (value % 16)) = some value := by
  have hdigits : ∀ value < 32,
      unit? '0' '0' (controlDigit (value / 16)) (controlDigit (value % 16)) = some value := by
    decide
  exact hdigits value hcontrol

/-- A character is written as itself or by one of its escapes. -/
theorem quotes_escaped (char : Char) {chars text : List Char} (hrest : Quotes chars text) :
    Quotes (char :: chars) (escaped char ++ text) := by
  unfold escaped
  split
  next hchar =>
    subst hchar
    exact .short rfl hrest
  next hquote =>
    split
    next hchar =>
      subst hchar
      exact .short rfl hrest
    next hslash =>
      iterate 5
        split
        next hchar =>
          subst hchar
          exact .short rfl hrest
      split
      next hcontrol =>
        have hwhole : isLeading char.toNat = false ∧ isTrailing char.toNat = false := by
          constructor <;> simp only [isLeading, isTrailing, Bool.and_eq_false_iff,
            decide_eq_false_iff_not] <;> omega
        have hunit := Quotes.unit (unit?_control hcontrol) hwhole hrest
        rwa [Char.ofNat_toNat] at hunit
      next hprinted => exact .plain hquote hslash (Nat.le_of_not_lt hprinted) hrest

theorem isQuoted_printString (text : String) : IsQuoted text (printString text) := by
  refine ⟨text.toList.flatMap escaped, ?_, rfl⟩
  induction text.toList with
  | nil => exact .nil
  | cons char chars ih => exact quotes_escaped char ih

theorem spellsItems_itemChars {items : List Json}
    (hitems : ∀ item ∈ items, Spells item item.chars) :
    SpellsItems items (itemChars items) := by
  match items, hitems with
  | [], _ => simp [AreSpaces]
  | [item], hitems => exact ⟨_, hitems item (by simp), pads_self _⟩
  | item :: other :: items, hitems =>
      obtain ⟨hitem, hothers⟩ := List.forall_mem_cons.mp hitems
      exact ⟨_, _, _, hitem, pads_self _, spellsItems_itemChars hothers, rfl⟩

theorem spellsMembers_memberChars {members : List (String × Json)}
    (hmembers : ∀ member ∈ members, Spells member.2 member.2.chars) :
    SpellsMembers members (memberChars members) := by
  match members, hmembers with
  | [], _ => simp [AreSpaces]
  | [(key, value)], hmembers =>
      exact ⟨_, _, _, _, isQuoted_printString key, pads_self _, hmembers (key, value) (by simp),
        pads_self _, rfl⟩
  | (key, value) :: other :: members, hmembers =>
      obtain ⟨hvalue, hothers⟩ := List.forall_mem_cons.mp hmembers
      exact ⟨_, _, _, _, _, isQuoted_printString key, pads_self _, hvalue, pads_self _,
        spellsMembers_memberChars hothers, by simp⟩

/-- What is printed of a value without numbers spells the value. -/
theorem spells_chars {value : Json} (hverbal : value.isVerbal = true) :
    Spells value value.chars := by
  induction value with
  | null => rfl
  | bool value => cases value <;> rfl
  | number literal => cases hverbal
  | string value => exact isQuoted_printString value
  | array items ih =>
      rw [isVerbal, areItemsVerbal_iff] at hverbal
      exact ⟨_, spellsItems_itemChars fun item hitem => ih item hitem (hverbal item hitem), rfl⟩
  | object members ih =>
      rw [isVerbal, areMembersVerbal_iff] at hverbal
      exact ⟨_, spellsMembers_memberChars fun member hmember =>
        ih member hmember (hverbal member hmember), rfl⟩
  | unreadable => cases hverbal

/-- What is printed of a value without numbers is read as the value. -/
theorem parse?_print {value : Json} (hverbal : value.isVerbal = true)
    (hnesting : value.nesting < depthLimit) : parse? value.print = some value := by
  refine parse?_of_spells (spells_chars hverbal) ?_ hnesting
  rw [print, String.toList_ofList]
  exact pads_self _

end ChainClient.Json
