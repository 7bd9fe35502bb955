/-!
# Blank characters

The characters that separate words without being seen, and the text between the
blanks at its two ends.
-/

namespace ChainClient.Text

/-- The blank code points as inclusive ranges in ascending order. -/
def blankRanges : List (Nat × Nat) := [
  (0x9, 0xd), (0x20, 0x20), (0x85, 0x85), (0xa0, 0xa0), (0x1680, 0x1680), (0x2000, 0x200a),
  (0x2028, 0x2029), (0x202f, 0x202f), (0x205f, 0x205f), (0x3000, 0x3000)]

def isBlank (char : Char) : Bool :=
  blankRanges.any fun range => range.1 ≤ char.toNat && char.toNat ≤ range.2

/-- A text without the blanks at its end. -/
def trimEnd : List Char → List Char
  | [] => []
  | char :: rest =>
      match trimEnd rest with
      | [] => if isBlank char then [] else [char]
      | kept => char :: kept

def trim (text : List Char) : List Char :=
  trimEnd (text.dropWhile isBlank)

/-- A text without blanks is left alone. -/
theorem trimEnd_of_all_visible {text : List Char} (hvisible : ∀ c ∈ text, isBlank c = false) :
    trimEnd text = text := by
  induction text with
  | nil => rfl
  | cons char rest ih =>
    have hrest := ih fun c hc => hvisible c (List.mem_cons_of_mem char hc)
    cases rest with
    | nil => simp [trimEnd, hvisible char (List.mem_singleton.mpr rfl)]
    | cons next rest => simp only [trimEnd] at hrest ⊢; rw [hrest]

/-- The core notion of white space is part of this one. -/
theorem isBlank_of_isWhitespace {char : Char} (hspace : char.isWhitespace = true) :
    isBlank char = true := by
  simp only [Char.isWhitespace, Bool.or_eq_true, decide_eq_true_eq] at hspace
  rcases hspace with ((rfl | rfl) | rfl) | rfl <;> rfl

end ChainClient.Text
