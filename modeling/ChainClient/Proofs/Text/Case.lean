/-!
# Letters in upper case

Only the letters of the basic range have a case. Lower case is 32 above upper case, and a text
of the basic range has as many bytes as characters.
-/

namespace ChainClient.Text

theorem isUpper_iff {char : Char} : char.isUpper = true ↔ 65 ≤ char.toNat ∧ char.toNat ≤ 90 := by
  have hrange : char.isUpper = decide (char.val ≥ 65 ∧ char.val ≤ 90) := rfl
  rw [hrange, decide_eq_true_eq, ge_iff_le, UInt32.le_iff_toNat_le, UInt32.le_iff_toNat_le]
  exact Iff.rfl

/-- Only letters in upper case are changed to lower case. -/
theorem toLower_cases (char : Char) :
    (65 ≤ char.toNat ∧ char.toNat ≤ 90 ∧ char.toLower.toNat = char.toNat + 32) ∨
      ((char.toNat < 65 ∨ 90 < char.toNat) ∧ char.toLower.toNat = char.toNat) := by
  have hrange : char.val ≥ 65 ∧ char.val ≤ 90 ↔ 65 ≤ char.toNat ∧ char.toNat ≤ 90 := by
    rw [ge_iff_le, UInt32.le_iff_toNat_le, UInt32.le_iff_toNat_le]
    exact Iff.rfl
  by_cases hupper : char.val ≥ 65 ∧ char.val ≤ 90
  · obtain ⟨hleft, hright⟩ := hrange.mp hupper
    have hlower : char.toLower = _ := dif_pos hupper
    have hsum : char.toLower.toNat = (char.toNat + 32) % 4294967296 := by
      rw [hlower]
      exact UInt32.toNat_add _ _
    exact .inl ⟨hleft, hright, by omega⟩
  · have hsame : char.toLower = char := dif_neg hupper
    rw [hrange] at hupper
    exact .inr ⟨by omega, by rw [hsame]⟩

/-- Characters of the basic range take one byte each. -/
theorem utf8ByteSize_ofList {text : List Char} (hbasic : ∀ char ∈ text, char.toNat < 128) :
    (String.ofList text).utf8ByteSize = text.length := by
  induction text with
  | nil => rfl
  | cons char text ih =>
      obtain ⟨hchar, hothers⟩ := List.forall_mem_cons.mp hbasic
      have hsize : char.utf8Size = 1 :=
        Char.utf8Size_eq_one_iff.mpr (UInt32.le_iff_toNat_le.mpr (Nat.le_of_lt_succ hchar))
      rw [String.ofList_cons, String.utf8ByteSize_append, String.utf8ByteSize_singleton, hsize,
        ih hothers, List.length_cons, Nat.add_comm]

end ChainClient.Text
