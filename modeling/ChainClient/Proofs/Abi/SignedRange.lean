import ChainClient.Proofs.Abi.Reading
import ChainClient.Proofs.Abi.Width

/-!
# The range of a signed width

A word is taken as an integer of so many bits if it lies in the range of these bits in two's
complement. The check of values and the decoder go by the same test, so that they take the
same integers of every width, and the low bits of an integer that they take say all of it:
extended by their sign they are the word again.
-/

namespace ChainClient.Abi

open Decoding

/-! ## The range -/

/-- The integers of so many bits in two's complement. -/
def IsSigned (bits : Nat) (integer : Int) : Prop :=
  -((2 ^ (bits - 1) : Nat) : Int) ≤ integer ∧ integer < ((2 ^ (bits - 1) : Nat) : Int)

namespace Value

variable {word : Word} {bits : Nat}

theorem fitsSigned_iff_isSigned (hpos : 1 ≤ bits) (hle : bits ≤ 256) :
    fitsSigned word bits = true ↔ IsSigned bits word.toInt := by
  have hhalf : (2 : Nat) ^ (bits - 1) ≤ 2 ^ 255 := Nat.pow_le_pow_right (by decide) (by omega)
  have hword : word.toNat < 2 ^ 256 := word.isLt
  rw [fitsSigned_iff hpos hle, IsSigned, BitVec.toInt_eq_toNat_cond]
  -- the words of the lower half are their own integers, the others are so far below zero
  split <;> omega

/-- The low bits of a word, extended by their sign, lie in the range of these bits. -/
theorem isSigned_signExtend (hpos : 1 ≤ bits) (hle : bits ≤ 256) :
    IsSigned bits ((word.setWidth bits).signExtend 256).toInt := by
  have hdouble : (2 : Nat) ^ bits = 2 * 2 ^ (bits - 1) := by
    rw [← pow_succ', Nat.sub_add_cancel hpos]
  have hlow : (word.setWidth bits).toNat < 2 ^ bits := (word.setWidth bits).isLt
  rw [BitVec.toInt_signExtend_of_le hle, IsSigned, BitVec.toInt_eq_toNat_cond]
  split <;> omega

/-- Integers in the range of so many bits are said by their low bits. -/
theorem signExtend_setWidth_of_isSigned (hpos : 1 ≤ bits) (hle : bits ≤ 256)
    (hsigned : IsSigned bits word.toInt) : (word.setWidth bits).signExtend 256 = word := by
  have hdouble : (2 : Nat) ^ bits = 2 * 2 ^ (bits - 1) := by
    rw [← pow_succ', Nat.sub_add_cancel hpos]
  have hdvd : (2 : Nat) ^ bits ∣ 2 ^ 256 := Nat.pow_dvd_pow 2 hle
  apply BitVec.toInt_inj.mp
  calc
    ((word.setWidth bits).signExtend 256).toInt
    _ = (word.setWidth bits).toInt := BitVec.toInt_signExtend_of_le hle
    _ = (word.toNat : Int).bmod (2 ^ bits) := BitVec.toInt_setWidth word
    _ = word.toInt.bmod (2 ^ bits) := by
      rw [BitVec.toInt_eq_toNat_bmod, Int.bmod_bmod_of_dvd hdvd]
    _ = word.toInt := by
      obtain ⟨hlower, hupper⟩ := hsigned
      apply Int.bmod_eq_of_le_mul_two <;> omega

theorem signExtend_setWidth_eq_iff (hpos : 1 ≤ bits) (hle : bits ≤ 256) :
    (word.setWidth bits).signExtend 256 = word ↔ IsSigned bits word.toInt := by
  refine ⟨fun hword => ?_, signExtend_setWidth_of_isSigned hpos hle⟩
  have hsigned : IsSigned bits ((word.setWidth bits).signExtend 256).toInt :=
    isSigned_signExtend hpos hle
  rwa [hword] at hsigned

end Value

/-! ## Reading integers -/

section Reading

variable {data : Bytes} {position : Nat} {word : Word} {bits : Nat}

/-- Where a word stands an integer is read if the word fits, and none if it does not. -/
theorem decodeValue_int_of_wordAt (hbits : bits ≠ 0)
    (hword : WordAt data position word.toBytes) (budget : Nat) :
    decodeValue data (.int bits) position (budget + 1) =
      if Value.fitsSigned word bits then .ok (.int word bits, budget)
      else .error (.malformed (.intTooWide bits)) := by
  have hread : (Decoding.word data position).Yields (budget + 1) word.toBytes budget :=
    yields_word.mpr ⟨hword, rfl⟩
  rw [decodeValue, hread.bind_eq, Word.ofBytes_toBytes]
  simp only [hbits, if_false]
  split <;> rfl

/-- A single value that is static is read from the beginning of the data. -/
theorem decode_of_isStatic {type : AbiType} {size : Nat} (hstatic : type.isDynamic = false)
    (hsize : type.headSize? = some size) (hbound : size < AbiType.sizeCount) :
    decode data [type] =
      (decodeValue data type 0 (data.length / Word.size)).map fun outcome => [outcome.1] := by
  have hread : (type.component data).read data 0 0 = decodeValue data type 0 := by
    simp only [Component.read, AbiType.component, hstatic, Bool.false_eq_true, if_false]
  have hnext (budget : Nat) : ((type.component data).next 0).Yields budget size budget := by
    refine yields_next.mpr ⟨?_, rfl⟩
    simp only [Component.Advances, AbiType.component, hstatic, Bool.false_eq_true, if_false]
    exact ⟨size, hsize, (Nat.zero_add size).symm, hbound⟩
  rw [decode, StateT.run', decodeMembers, mk_eq_component, hread]
  cases hvalue : decodeValue data type 0 (data.length / Word.size) with
  | error error => rw [bind_eq_error hvalue]; rfl
  | ok outcome =>
      obtain ⟨value, rest⟩ := outcome
      rw [Yields.bind_eq hvalue, (hnext rest).bind_eq]
      rfl

theorem decode_int_at_start (hbits : bits ≠ 0) (hword : word.toBytes <+: data) :
    decode data [.int bits] =
      if Value.fitsSigned word bits then .ok [.int word bits]
      else .error (.malformed (.intTooWide bits)) := by
  have hlength := hword.length_le
  rw [Word.length_toBytes] at hlength
  have hat : WordAt data 0 word.toBytes := ⟨Word.length_toBytes word, Nat.zero_le _, hword⟩
  obtain ⟨budget, hbudget⟩ : ∃ budget, data.length / Word.size = budget + 1 :=
    Nat.exists_eq_add_one.mpr (Nat.div_pos hlength (by decide))
  have hsize : (AbiType.int bits).headSize? = some Word.size := rfl
  rw [decode_of_isStatic rfl hsize (by decide), hbudget, decodeValue_int_of_wordAt hbits hat]
  split <;> rfl

end Reading

namespace Value

/-- What is read is the given result if the check takes the word as an integer of so many
bits, and an error if the check refuses it. -/
structure AgreesWithCheck {α : Type} (reading : Except DecodeError α) (result : α) (word : Word)
    (bits : Nat) : Prop where
  taken : reading = .ok result ↔ check (.int word bits) = .ok ()
  refused : reading = .error (.malformed (.intTooWide bits)) ↔
    check (.int word bits) = .error (.valueOutOfRange (.int bits))

theorem agreesWithCheck_of_eq {α : Type} {reading : Except DecodeError α} {result : α}
    {word : Word} {bits : Nat} (hwidth : AbiType.isWidth bits = true)
    (hreading : reading =
      if fitsSigned word bits then .ok result else .error (.malformed (.intTooWide bits))) :
    AgreesWithCheck reading result word bits := by
  have hcheck : check (.int word bits) =
      if fitsSigned word bits then .ok () else .error (.valueOutOfRange (.int bits)) := by
    rw [check, hwidth, Bool.true_and]
  constructor
  · rw [hreading, hcheck]
    split <;> simp
  · rw [hreading, hcheck]
    split <;> simp

/-- A word fits a width exactly if its integer lies in the range of the width. For the widths
of integer types, the decoder takes the word wherever it stands, alone or among other values,
if the check of values does, and refuses it if the check does. A word that fits is its low
bits, extended by their sign. -/
theorem fitsSigned_iff_range (word : Word) {bits : Nat} (hpos : 1 ≤ bits) (hle : bits ≤ 256) :
    (fitsSigned word bits = true ↔
      -((2 ^ (bits - 1) : Nat) : Int) ≤ word.toInt ∧ word.toInt < ((2 ^ (bits - 1) : Nat) : Int)) ∧
    (AbiType.isWidth bits = true →
      (∀ data, word.toBytes <+: data →
        AgreesWithCheck (decode data [.int bits]) [.int word bits] word bits) ∧
      ∀ data position budget, WordAt data position word.toBytes →
        AgreesWithCheck (decodeValue data (.int bits) position (budget + 1))
          (.int word bits, budget) word bits) ∧
    ((word.setWidth bits).signExtend 256 = word ↔ fitsSigned word bits = true) := by
  have hrange : fitsSigned word bits = true ↔ IsSigned bits word.toInt :=
    fitsSigned_iff_isSigned hpos hle
  refine ⟨hrange, fun hwidth => ⟨fun data hword => ?_, fun data position budget hword => ?_⟩, ?_⟩
  · exact agreesWithCheck_of_eq hwidth (decode_int_at_start (by omega) hword)
  · exact agreesWithCheck_of_eq hwidth (decodeValue_int_of_wordAt (by omega) hword budget)
  · rw [signExtend_setWidth_eq_iff hpos hle, hrange]

/-- The least integer of three bytes is taken, and the one below it is refused, with a byte
behind each of them. -/
theorem fitsSigned_iff_range_least :
    let least : Word := -8388608
    let below : Word := -8388609
    (1 ≤ 24 ∧ 24 ≤ 256 ∧ AbiType.isWidth 24 = true) ∧
      decode (least.toBytes ++ [7]) [.int 24] = .ok [.int least 24] ∧
      (least.setWidth 24).signExtend 256 = least ∧
      decode (below.toBytes ++ [7]) [.int 24] = .error (.malformed (.intTooWide 24)) ∧
      (below.setWidth 24).signExtend 256 ≠ below := by
  intro least below
  have hwidth : AbiType.isWidth 24 = true := by decide
  obtain ⟨-, hleast, hextend⟩ :=
    fitsSigned_iff_range least (show 1 ≤ 24 by decide) (show 24 ≤ 256 by decide)
  obtain ⟨-, hbelow, hother⟩ :=
    fitsSigned_iff_range below (show 1 ≤ 24 by decide) (show 24 ≤ 256 by decide)
  have hfits : fitsSigned least 24 = true := by decide +kernel
  have hwide : fitsSigned below 24 = false := by decide +kernel
  refine ⟨⟨by decide, by decide, hwidth⟩, ?_, hextend.mpr hfits, ?_, ?_⟩
  · exact ((hleast hwidth).1 _ (List.prefix_append _ _)).taken.mpr (by decide +kernel)
  · exact ((hbelow hwidth).1 _ (List.prefix_append _ _)).refused.mpr (by decide +kernel)
  · rw [Ne, hother, hwide]
    exact Bool.false_ne_true

end Value

end ChainClient.Abi
