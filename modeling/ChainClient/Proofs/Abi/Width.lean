import ChainClient.Abi.Value
import ChainClient.Proofs.Bytes

/-!
# Numbers that fit a width

A number fits a width if it is below a power of two, and an integer in two's
complement if its word lies at the lower or the upper end of all words. A word that
fits a width in whole bytes consists of these bytes behind copies of one byte.
-/

namespace ChainClient.Abi

theorem bitLength_le_iff {number bits : Nat} : bitLength number ≤ bits ↔ number < 2 ^ bits := by
  unfold bitLength
  split
  next hzero =>
    subst hzero
    exact iff_of_true (Nat.zero_le _) (Nat.pow_pos (by decide))
  next hnonzero => rw [Nat.succ_le_iff, Nat.log2_lt hnonzero]

/-- The quotient by a divisor of the bound is the largest one exactly at the upper end. -/
theorem div_eq_pred_iff {number divisor quotient : Nat} (hdivisor : 0 < divisor)
    (hquotient : 0 < quotient) (hbound : number < divisor * quotient) :
    number / divisor = quotient - 1 ↔ divisor * quotient - divisor ≤ number := by
  have hupper : number / divisor < quotient := Nat.div_lt_of_lt_mul hbound
  have hlower : quotient - 1 ≤ number / divisor ↔ (quotient - 1) * divisor ≤ number :=
    Nat.le_div_iff_mul_le hdivisor
  rw [Nat.sub_mul, Nat.one_mul, Nat.mul_comm quotient] at hlower
  rw [← hlower]
  omega

theorem two_pow_eq_of_isWidth {bits : Nat} (hwidth : AbiType.isWidth bits = true) :
    2 ^ bits = 256 ^ (bits / 8) ∧ 1 ≤ bits ∧ bits ≤ 256 := by
  simp only [AbiType.isWidth, Bool.and_eq_true, beq_iff_eq, decide_eq_true_eq] at hwidth
  obtain ⟨⟨hwhole, hlower⟩, hupper⟩ := hwidth
  have hbits : bits = 8 * (bits / 8) := by omega
  refine ⟨?_, by omega, hupper⟩
  calc
    2 ^ bits = 2 ^ (8 * (bits / 8)) := congrArg (2 ^ ·) hbits
    _ = (2 ^ 8) ^ (bits / 8) := pow_mul 2 8 _

namespace Value

/-- An integer fits a width if its word is below half of the width's words, or so far
from the end of all words. -/
theorem fitsSigned_iff {value : Word} {bits : Nat} (hpos : 1 ≤ bits) (hle : bits ≤ 256) :
    fitsSigned value bits = true ↔
      value.toNat < 2 ^ (bits - 1) ∨ 2 ^ 256 - 2 ^ (bits - 1) ≤ value.toNat := by
  have hshift : min (bits - 1) 256 = bits - 1 := Nat.min_eq_left (by omega)
  have hpower : 0 < 2 ^ (bits - 1) := Nat.pow_pos (by decide)
  have hothers : 0 < 2 ^ (256 - (bits - 1)) := Nat.pow_pos (by decide)
  have hsplit : (2 : Nat) ^ (bits - 1) * 2 ^ (256 - (bits - 1)) = 2 ^ 256 := by
    rw [← pow_add, Nat.add_sub_cancel' (by omega)]
  -- all bits above the sign bit are set exactly at the upper end of all words
  have hones : (2 ^ 256 - 1) / 2 ^ (bits - 1) = 2 ^ (256 - (bits - 1)) - 1 := by
    rw [div_eq_pred_iff hpower hothers (by omega), hsplit]
    omega
  simp only [fitsSigned, hshift, Bool.or_eq_true, beq_iff_eq, BitVec.toNat_eq,
    BitVec.toNat_ushiftRight, BitVec.toNat_allOnes, Nat.shiftRight_eq_div_pow]
  rw [hones, div_eq_pred_iff hpower hothers (hsplit ▸ value.isLt), hsplit]
  exact or_congr_left (Nat.div_eq_zero_iff_lt hpower)

/-- The bytes of a number that fits so many bytes follow zeros. -/
theorem toBytes_eq_zeros_append {value : Word} {width : Nat} (hwidth : width ≤ 32)
    (hfits : value.toNat < 256 ^ width) :
    value.toBytes = List.replicate (32 - width) 0 ++ Bytes.ofNat width value.toNat := by
  rw [Word.toBytes, Word.size, ← Nat.sub_add_cancel hwidth, Bytes.ofNat_add,
    Nat.div_eq_of_lt hfits, Bytes.ofNat_zero, Nat.sub_add_cancel hwidth, Bytes.zeros]

theorem toBytes_eq_ones_append {value : Word} {width : Nat} (hwidth : width ≤ 32)
    (hfits : 2 ^ 256 - 256 ^ width ≤ value.toNat) :
    value.toBytes = List.replicate (32 - width) 255 ++ Bytes.ofNat width value.toNat := by
  have hpower : 0 < 256 ^ width := Nat.pow_pos (by decide)
  have hothers : 0 < 256 ^ (32 - width) := Nat.pow_pos (by decide)
  have hsplit : 256 ^ width * 256 ^ (32 - width) = 2 ^ 256 := by
    rw [← pow_add, Nat.add_sub_cancel' hwidth]
    rfl
  have hquotient : value.toNat / 256 ^ width = 256 ^ (32 - width) - 1 := by
    rw [div_eq_pred_iff hpower hothers (hsplit ▸ value.isLt), hsplit]
    exact hfits
  rw [Word.toBytes, Word.size, ← Nat.sub_add_cancel hwidth, Bytes.ofNat_add, hquotient,
    Bytes.ofNat_pow_sub_one, Nat.sub_add_cancel hwidth]

end Value

end ChainClient.Abi
