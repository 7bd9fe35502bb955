import Mathlib.Data.List.Induction
import Mathlib.Algebra.Ring.Nat
import ChainClient.Address

/-!
# Laws of byte strings

Byte strings of one length are the same as numbers below a power of 256: writing
and reading are inverse, and a byte string splits where its number does. So words
and addresses are recovered from their bytes. The last part says what stands at a
position of a longer byte string.
-/

namespace ChainClient

namespace Bytes

/-! ## Numbers -/

/-- A number written in `width` bytes is kept up to multiples of `256 ^ width`. -/
theorem toNat_ofNat (width number : Nat) : toNat (ofNat width number) = number % 256 ^ width := by
  induction width generalizing number with
  | zero => simp [ofNat, toNat, Nat.mod_one]
  | succ width ih =>
      rw [ofNat, toNat_append_singleton, ih, Nat.pow_succ, Nat.mul_comm (256 ^ width) 256,
        Nat.mod_mul]
      simp only [UInt8.toNat_ofNat']
      omega

theorem toNat_lt (bytes : Bytes) : toNat bytes < 256 ^ bytes.length := by
  induction bytes using List.reverseRecOn with
  | nil => simp [toNat]
  | append_singleton bytes byte ih =>
      have hbyte := byte.toNat_lt
      rw [toNat_append_singleton, List.length_append, List.length_singleton, pow_succ]
      omega

theorem ofNat_toNat (bytes : Bytes) : ofNat bytes.length (toNat bytes) = bytes := by
  induction bytes using List.reverseRecOn with
  | nil => rfl
  | append_singleton bytes byte ih =>
      have hbyte := byte.toNat_lt
      have hquotient : (toNat bytes * 256 + byte.toNat) / 256 = toNat bytes := by omega
      have hlast : UInt8.ofNat (toNat bytes * 256 + byte.toNat) = byte := by
        apply UInt8.toNat_inj.mp
        rw [UInt8.toNat_ofNat']
        omega
      rw [toNat_append_singleton, List.length_append, List.length_singleton, ofNat, hquotient,
        hlast, ih]

theorem eq_of_toNat_eq {first second : Bytes} (hlength : first.length = second.length)
    (hnumber : toNat first = toNat second) : first = second := by
  rw [← ofNat_toNat first, ← ofNat_toNat second, hlength, hnumber]

theorem toNat_ofNat_of_lt {width number : Nat} (hfits : number < 256 ^ width) :
    toNat (ofNat width number) = number := by
  rw [toNat_ofNat, Nat.mod_eq_of_lt hfits]

theorem ofNat_mod (width number : Nat) :
    ofNat width (number % 256 ^ width) = ofNat width number := by
  apply eq_of_toNat_eq
  · rw [length_ofNat, length_ofNat]
  · rw [toNat_ofNat, toNat_ofNat, Nat.mod_mod]

/-- The bytes of a number are those of its quotient, then those of its last digits. -/
theorem ofNat_add (high low number : Nat) :
    ofNat (high + low) number = ofNat high (number / 256 ^ low) ++ ofNat low number := by
  induction low generalizing number with
  | zero => simp [ofNat]
  | succ low ih =>
      rw [← Nat.add_assoc, ofNat, ih, ofNat, Nat.div_div_eq_div_mul, pow_succ',
        List.append_assoc]

theorem ofNat_zero (width : Nat) : ofNat width 0 = zeros width := by
  induction width with
  | zero => rfl
  | succ width ih =>
      rw [ofNat, Nat.zero_div, ih, zeros, zeros, List.replicate_succ']
      rfl

/-- The largest number of a width has all bits set. -/
theorem ofNat_pow_sub_one (width : Nat) :
    ofNat width (256 ^ width - 1) = List.replicate width 255 := by
  induction width with
  | zero => rfl
  | succ width ih =>
      have hpos : 0 < 256 ^ width := Nat.pow_pos (by decide)
      have hquotient : (256 ^ (width + 1) - 1) / 256 = 256 ^ width - 1 := by
        rw [pow_succ]
        omega
      have hlast : UInt8.ofNat (256 ^ (width + 1) - 1) = 255 := by
        apply UInt8.toNat_inj.mp
        rw [UInt8.toNat_ofNat', pow_succ]
        change _ = 255
        omega
      rw [ofNat, hquotient, hlast, ih, List.replicate_succ']

theorem areZero_iff {bytes : Bytes} : areZero bytes = true ↔ bytes = zeros bytes.length := by
  simp [areZero, zeros, List.eq_replicate_iff]

@[simp] theorem length_zeros (count : Nat) : (zeros count).length = count :=
  List.length_replicate

/-! ## Texts -/

@[simp] theorem toText?_ofText (text : String) : toText? (ofText text) = some text := by
  have hvalid : text.toByteArray.IsValidUTF8 := text.isValidUTF8
  simp [toText?, ofText, String.fromUTF8?, hvalid, String.fromUTF8]

/-- A byte string that is read as a text is the UTF-8 form of the text. -/
theorem ofText_of_toText? {bytes : Bytes} {text : String} (htext : toText? bytes = some text) :
    ofText text = bytes := by
  simp only [toText?, String.fromUTF8?] at htext
  split at htext
  next hvalid =>
    simp only [Option.some.injEq] at htext
    subst htext
    simp [ofText, String.fromUTF8]
  next => simp at htext

/-! ## Positions -/

/-- The part stands at the position of the data. -/
def At (data : Bytes) (position : Nat) (part : Bytes) : Prop :=
  position ≤ data.length ∧ part <+: data.drop position

namespace At

variable {data first second part : Bytes} {position : Nat}

theorem start (data : Bytes) : At data 0 data :=
  ⟨Nat.zero_le _, by simp⟩

theorem end_le (hpart : At data position part) : position + part.length ≤ data.length := by
  obtain ⟨hposition, hprefix⟩ := hpart
  have hlength := hprefix.length_le
  rw [List.length_drop] at hlength
  omega

theorem left (hboth : At data position (first ++ second)) : At data position first :=
  ⟨hboth.1, (List.prefix_append first second).trans hboth.2⟩

theorem right (hboth : At data position (first ++ second)) :
    At data (position + first.length) second := by
  have hend := hboth.end_le
  rw [List.length_append] at hend
  refine ⟨by omega, ?_⟩
  obtain ⟨rest, hrest⟩ := hboth.2
  rw [← List.drop_drop, ← hrest, List.append_assoc, List.drop_left]
  exact List.prefix_append second rest

/-- What stands behind a part stands together with it at the part's position. -/
theorem join (hfirst : At data position first)
    (hsecond : At data (position + first.length) second) : At data position (first ++ second) := by
  obtain ⟨hposition, rest, hrest⟩ := hfirst
  refine ⟨hposition, ?_⟩
  have hprefix := hsecond.2
  rw [← List.drop_drop, ← hrest, List.drop_left] at hprefix
  rw [← hrest, List.prefix_append_right_inj]
  exact hprefix

theorem eq_take_drop (hpart : At data position part) :
    (data.drop position).take part.length = part :=
  (List.prefix_iff_eq_take.mp hpart.2).symm

/-- What stands in data stands in longer data at the same position. -/
theorem append (hpart : At data position part) (extra : Bytes) :
    At (data ++ extra) position part := by
  obtain ⟨hposition, hprefix⟩ := hpart
  refine ⟨by rw [List.length_append]; omega, ?_⟩
  rw [List.drop_append_of_le_length hposition]
  exact hprefix.trans (List.prefix_append _ extra)

end At

/-- What is cut out of the data stands where it was cut out. -/
theorem at_take_drop {data : Bytes} {position : Nat} (hposition : position ≤ data.length)
    (count : Nat) : At data position ((data.drop position).take count) :=
  ⟨hposition, List.take_prefix count _⟩

end Bytes

/-! ## Words and addresses -/

@[simp] theorem Word.ofBytes_toBytes (word : Word) : ofBytes word.toBytes = word := by
  apply BitVec.eq_of_toNat_eq
  rw [ofBytes, toBytes, BitVec.toNat_ofNat, Bytes.toNat_ofNat_of_lt word.isLt,
    Nat.mod_eq_of_lt word.isLt]

theorem Word.toBytes_ofBytes {bytes : Bytes} (hlength : bytes.length = size) :
    (ofBytes bytes).toBytes = bytes := by
  have hbound : Bytes.toNat bytes < 2 ^ 256 := by
    have hlt := Bytes.toNat_lt bytes
    rwa [hlength, show 256 ^ size = 2 ^ 256 from by decide] at hlt
  rw [ofBytes, toBytes, BitVec.toNat_ofNat, Nat.mod_eq_of_lt hbound, ← hlength,
    Bytes.ofNat_toNat]

@[simp] theorem Address.ofLastBytes_toBytes (address : Address) :
    ofLastBytes address.toBytes = address := by
  obtain ⟨value⟩ := address
  rw [ofLastBytes, toBytes, mk.injEq]
  apply BitVec.eq_of_toNat_eq
  rw [BitVec.toNat_ofNat, Bytes.toNat_ofNat_of_lt value.isLt, Nat.mod_eq_of_lt value.isLt]


theorem Address.toBytes_ofLastBytes {bytes : Bytes} (hlength : bytes.length = size) :
    (ofLastBytes bytes).toBytes = bytes := by
  have hbound : Bytes.toNat bytes < 2 ^ 160 := by
    have hlt := Bytes.toNat_lt bytes
    rwa [hlength, show 256 ^ size = 2 ^ 160 from by decide] at hlt
  rw [ofLastBytes, toBytes, BitVec.toNat_ofNat, Nat.mod_eq_of_lt hbound, ← hlength,
    Bytes.ofNat_toNat]

end ChainClient
