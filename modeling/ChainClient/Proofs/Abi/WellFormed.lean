import ChainClient.Proofs.Abi.Form

/-!
# Well-formed types

A well-formed type has only widths, lengths, and array sizes that the chain knows,
at every depth. Every type that a text denotes is well-formed.
-/

namespace ChainClient.Abi.AbiType

mutual

/-- Whether every number in a type is one the chain knows. -/
def isWellFormed : AbiType → Bool
  | .uint bits => isWidth bits
  | .int bits => isWidth bits
  | .fixedBytes length => 1 ≤ length && length ≤ 32
  | .fixedArray element length => length ≠ 0 && length < sizeCount && isWellFormed element
  | .array element => isWellFormed element
  | .tuple members => areWellFormed members
  | _ => true

def areWellFormed : List AbiType → Bool
  | [] => true
  | type :: types => isWellFormed type && areWellFormed types

end

theorem areWellFormed_iff {types : List AbiType} :
    areWellFormed types = true ↔ ∀ type ∈ types, type.isWellFormed = true := by
  induction types with
  | nil => simp [areWellFormed]
  | cons type types ih => rw [areWellFormed, List.forall_mem_cons, Bool.and_eq_true, ih]

theorem isWidth_of_width? {digits : List Char} {bits : Nat} (hwidth : width? digits = some bits) :
    isWidth bits = true := by
  cases digits with
  | nil =>
      simp only [width?, Option.some.injEq] at hwidth
      subst hwidth
      rfl
  | cons digit digits => exact (Option.filter_eq_some_iff.mp hwidth).2

theorem isWellFormed_of_names {name : List Char} {type : AbiType} (hname : Names name type) :
    type.isWellFormed = true := by
  cases hname with
  | uint hwidth => exact isWidth_of_width? hwidth
  | int hwidth => exact isWidth_of_width? hwidth
  | fixedBytes _ hlength => simpa [isWellFormed] using hlength
  | _ => rfl

theorem isWellFormed_of_withDimension? {element type : AbiType} {size : List Char}
    (helement : element.isWellFormed = true) (htype : withDimension? element size = some type) :
    type.isWellFormed = true := by
  cases size with
  | nil =>
      simp only [withDimension?, Option.some.injEq] at htype
      subst htype
      exact helement
  | cons digit digits =>
      simp only [withDimension?, Option.map_eq_some_iff] at htype
      obtain ⟨length, hlength, rfl⟩ := htype
      obtain ⟨hcount, hnonzero⟩ := Option.filter_eq_some_iff.mp hlength
      obtain ⟨-, hbound⟩ := Option.filter_eq_some_iff.mp hcount
      simp only [isWellFormed, helement, hnonzero, hbound, Bool.and_self]

theorem isWellFormed_of_parseChars {text : List Char} {type : AbiType}
    (hparse : parseChars text = .ok type) : type.isWellFormed = true := by
  refine parseChars_induction (motive := fun _ type => type.isWellFormed = true) ?_ ?_ ?_ hparse
  · exact fun _ hinner htype => isWellFormed_of_withDimension? hinner htype
  · rintro _ texts members - hmembers
    rw [isWellFormed]
    induction hmembers with
    | nil => rfl
    | cons hmember _ ih => rw [areWellFormed, hmember, ih, Bool.and_self]
  · exact fun _ hname => isWellFormed_of_names (names_of_named? hname)

/-- Every type that a text denotes is well-formed. -/
theorem isWellFormed_of_parse {text : String} {type : AbiType} (hparse : parse text = .ok type) :
    type.isWellFormed = true :=
  isWellFormed_of_parseChars hparse

end ChainClient.Abi.AbiType
