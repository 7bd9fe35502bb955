import ChainClient.Proofs.Signing
import ChainClient.Proofs.Text.Spelling

/-!
# The wire form of signatures

Signatures are read from 65 bytes, the last of which says which key signed, counted from 0 or
from 27, and they are written with a last byte that is counted from 27. So reading a signature
and writing it again keeps all bytes but perhaps the last, and two byte strings are read alike
only if they differ in nothing but the way in which the last byte counts.
-/

namespace ChainClient

open Text

namespace Signature

variable {signature : Signature} {bytes front : Bytes} {last : UInt8}

/-! ## The last byte -/

/-- A byte that says which key signed. -/
def IsRecoveryByte (byte : UInt8) : Prop :=
  byte ≤ 3 ∨ (27 ≤ byte ∧ byte ≤ 30)

/-- Which key such a byte says. -/
def choice (byte : UInt8) : UInt8 :=
  if byte ≤ 3 then byte else byte - 27

theorem recoveryIdOfByte?_eq_some_iff {byte recoveryId : UInt8} :
    recoveryIdOfByte? byte = some recoveryId ↔ IsRecoveryByte byte ∧ choice byte = recoveryId := by
  have hread : recoveryIdOfByte? byte =
      if byte ≤ 3 then some byte
      else if 27 ≤ byte ∧ byte ≤ 30 then some (byte - 27) else none := rfl
  rw [hread, IsRecoveryByte, choice]
  by_cases hsmall : byte ≤ 3
  · simp [hsmall]
  · by_cases hrange : 27 ≤ byte ∧ byte ≤ 30
    · simp [hsmall, hrange]
    · simp [hsmall, hrange]

theorem recoveryIdOfByte?_eq_none_iff {byte : UInt8} :
    recoveryIdOfByte? byte = none ↔ ¬ IsRecoveryByte byte := by
  simp [Option.eq_none_iff_forall_ne_some, recoveryIdOfByte?_eq_some_iff]

/-! ## The scalars -/

/-- The bytes of the two scalars. -/
def scalarBytes (signature : Signature) : Bytes :=
  signature.r.toBytes ++ signature.s.toBytes

theorem length_scalarBytes (signature : Signature) : signature.scalarBytes.length = 64 := by
  rw [scalarBytes, List.length_append, Word.length_toBytes, Word.length_toBytes]

theorem toBytes_eq_append (signature : Signature) :
    signature.toBytes = signature.scalarBytes ++ [27 + signature.recoveryId] := by
  rw [toBytes, scalarBytes, lastByte, recoveryOffset]

/-- The signature with the scalars that the bytes hold. -/
def ofScalarBytes (bytes : Bytes) (recoveryId : UInt8) : Signature :=
  ⟨Word.ofBytes (bytes.take 32), Word.ofBytes (bytes.drop 32), recoveryId⟩

theorem scalarBytes_ofScalarBytes (hfront : front.length = 64) (recoveryId : UInt8) :
    (ofScalarBytes front recoveryId).scalarBytes = front := by
  have hr : (front.take 32).length = Word.size := by
    rw [List.length_take, hfront]
    rfl
  have hs : (front.drop 32).length = Word.size := by
    rw [List.length_drop, hfront]
    rfl
  rw [scalarBytes, ofScalarBytes, Word.toBytes_ofBytes hr, Word.toBytes_ofBytes hs,
    List.take_append_drop]

theorem ofScalarBytes_scalarBytes (signature : Signature) :
    ofScalarBytes signature.scalarBytes signature.recoveryId = signature := by
  rw [scalarBytes, ofScalarBytes, List.take_left' (Word.length_toBytes _),
    List.drop_left' (Word.length_toBytes _), Word.ofBytes_toBytes, Word.ofBytes_toBytes]

/-! ## Reading -/

theorem ofBytes_of_length_ne (hlength : bytes.length ≠ 65) :
    ofBytes bytes = .error (.invalidLength bytes.length) :=
  if_pos hlength

theorem ofBytes_append (hfront : front.length = 64) (last : UInt8) :
    ofBytes (front ++ [last]) =
      (recoveryIdOfByte? last).elim (.error (.invalidRecoveryByte last)) fun recoveryId =>
        .ok (ofScalarBytes front recoveryId) := by
  have hlength : (front ++ [last]).length = 65 := by
    rw [List.length_append, hfront, List.length_singleton]
  have hr : (front ++ [last]).take 32 = front.take 32 :=
    List.take_append_of_le_length (by omega)
  have hs : ((front ++ [last]).drop 32).take 32 = front.drop 32 := by
    have hdrop : (front.drop 32).length = 32 := by rw [List.length_drop, hfront]
    rw [List.drop_append_of_le_length (by omega), List.take_left' hdrop]
  have hlast : (front ++ [last]).getLastD 0 = last := by simp
  simp only [ofBytes, hlength, hr, hs, hlast, ne_eq, not_true_eq_false, if_false]
  cases recoveryIdOfByte? last <;> rfl

theorem ofBytes_append_of_isRecoveryByte (hfront : front.length = 64)
    (hbyte : IsRecoveryByte last) :
    ofBytes (front ++ [last]) = .ok (ofScalarBytes front (choice last)) := by
  rw [ofBytes_append hfront, recoveryIdOfByte?_eq_some_iff.mpr ⟨hbyte, rfl⟩, Option.elim_some]

theorem ofBytes_append_of_not_isRecoveryByte (hfront : front.length = 64)
    (hbyte : ¬ IsRecoveryByte last) :
    ofBytes (front ++ [last]) = .error (.invalidRecoveryByte last) := by
  rw [ofBytes_append hfront, recoveryIdOfByte?_eq_none_iff.mpr hbyte, Option.elim_none]

theorem eq_append_of_length (hlength : bytes.length = 65) :
    ∃ front last, bytes = front ++ [last] ∧ front.length = 64 := by
  have hnonempty : bytes ≠ [] := List.ne_nil_of_length_pos (by omega)
  refine ⟨bytes.dropLast, bytes.getLast hnonempty, ?_, ?_⟩
  · exact (List.dropLast_concat_getLast hnonempty).symm
  · rw [List.length_dropLast, hlength]

/-- A signature is read from the bytes of its scalars and a byte that says its key. -/
theorem ofBytes_append_eq_ok_iff : ofBytes (front ++ [last]) = .ok signature ↔
    front = signature.scalarBytes ∧ IsRecoveryByte last ∧ choice last = signature.recoveryId := by
  constructor
  · intro hread
    by_cases hfront : front.length = 64
    · by_cases hbyte : IsRecoveryByte last
      · rw [ofBytes_append_of_isRecoveryByte hfront hbyte] at hread
        obtain rfl := Except.ok.inj hread
        exact ⟨(scalarBytes_ofScalarBytes hfront _).symm, hbyte, rfl⟩
      · rw [ofBytes_append_of_not_isRecoveryByte hfront hbyte] at hread
        exact absurd hread (by simp)
    · rw [ofBytes_of_length_ne (by simpa using hfront)] at hread
      exact absurd hread (by simp)
  · rintro ⟨hscalars, hbyte, hchoice⟩
    have hfront : front.length = 64 := by rw [hscalars, length_scalarBytes]
    rw [ofBytes_append_of_isRecoveryByte hfront hbyte, hscalars, hchoice,
      ofScalarBytes_scalarBytes]

theorem exists_ofBytes_iff : (∃ signature, ofBytes bytes = .ok signature) ↔
    ∃ front last, bytes = front ++ [last] ∧ front.length = 64 ∧ IsRecoveryByte last := by
  constructor
  · rintro ⟨signature, hread⟩
    by_cases hlength : bytes.length = 65
    · obtain ⟨front, last, rfl, hfront⟩ := eq_append_of_length hlength
      exact ⟨front, last, rfl, hfront, (ofBytes_append_eq_ok_iff.mp hread).2.1⟩
    · rw [ofBytes_of_length_ne hlength] at hread
      exact absurd hread (by simp)
  · rintro ⟨front, last, rfl, hfront, hbyte⟩
    exact ⟨_, ofBytes_append_of_isRecoveryByte hfront hbyte⟩

/-- Written again, a signature that was read ends with a byte that counts from 27. -/
theorem toBytes_of_ofBytes (hread : ofBytes (front ++ [last]) = .ok signature) :
    signature.toBytes = front ++ [27 + choice last] := by
  obtain ⟨hscalars, -, hchoice⟩ := ofBytes_append_eq_ok_iff.mp hread
  rw [toBytes_eq_append, hscalars, hchoice]

/-- Two byte strings are read alike exactly if they have the same scalars and say one key. -/
theorem eq_iff_of_ofBytes {other : Bytes} {byte : UInt8} {second : Signature}
    (hfirst : ofBytes (front ++ [last]) = .ok signature)
    (hsecond : ofBytes (other ++ [byte]) = .ok second) :
    signature = second ↔ front = other ∧ choice last = choice byte := by
  obtain ⟨hscalars, -, hchoice⟩ := ofBytes_append_eq_ok_iff.mp hfirst
  obtain ⟨hothers, -, hother⟩ := ofBytes_append_eq_ok_iff.mp hsecond
  constructor
  · rintro rfl
    exact ⟨hscalars.trans hothers.symm, hchoice.trans hother.symm⟩
  · rintro ⟨hsame, hkey⟩
    rw [← ofScalarBytes_scalarBytes signature, ← ofScalarBytes_scalarBytes second, ← hscalars,
      ← hothers, hsame, ← hchoice, ← hother, hkey]

/-! ## Texts -/

theorem ofHex_of_spells {text : String} (hspells : Hex.Spells text bytes) :
    ofHex text = ofBytes bytes := by
  rw [ofHex, Hex.decode_eq_ok_iff.mpr hspells]

/-- A signature is read from every text that spells its bytes. -/
theorem ofHex_of_spells_toBytes {text : String} (hid : signature.recoveryId ≤ 3)
    (hspells : Hex.Spells text signature.toBytes) : ofHex text = .ok signature :=
  (ofHex_of_spells hspells).trans (ofBytes_toBytes hid)

theorem toList_toUpper_toHex (signature : Signature) : signature.toHex.toUpper.toList =
    '0' :: 'X' :: (Hex.digitsOf signature.toBytes).map Char.toUpper := by
  change (signature.toHex.map Char.toUpper).toList = _
  rw [String.toList_map, toHex, Hex.toList_encodePrefixed]
  rfl

theorem toList_toUpper_encode (bytes : Bytes) :
    ("0x" ++ (Hex.encode bytes).toUpper).toList =
      '0' :: 'x' :: (Hex.digitsOf bytes).map Char.toUpper := by
  change ("0x" ++ (Hex.encode bytes).map Char.toUpper).toList = _
  rw [String.toList_append, String.toList_map, Hex.toList_encode]
  rfl

/-- Signatures are read from 65 bytes that end with a byte that says a key, and from no others.
Written again, they have the same bytes but for the last, which counts from 27. So what is
written is read back, from its bytes and from every text that spells them, and two byte
strings are read alike exactly if they have the same scalars and say the same key. -/
theorem ofBytes_wireForm :
    (∀ bytes, (∃ signature, ofBytes bytes = .ok signature) ↔
      ∃ front last, bytes = front ++ [last] ∧ front.length = 64 ∧
        (last ≤ 3 ∨ (27 ≤ last ∧ last ≤ 30))) ∧
    (∀ bytes, bytes.length ≠ 65 → ofBytes bytes = .error (.invalidLength bytes.length)) ∧
    (∀ front last, front.length = 64 → ¬ (last ≤ 3 ∨ (27 ≤ last ∧ last ≤ 30)) →
      ofBytes (front ++ [last]) = .error (.invalidRecoveryByte last)) ∧
    (∀ front last signature, ofBytes (front ++ [last]) = .ok signature →
      signature.toBytes = front ++ [27 + if last ≤ 3 then last else last - 27]) ∧
    (∀ signature : Signature, signature.recoveryId ≤ 3 →
      ofBytes signature.toBytes = .ok signature ∧
      ofHex signature.toHex = .ok signature ∧
      ofHex (Hex.encode signature.toBytes) = .ok signature ∧
      ofHex signature.toHex.toUpper = .ok signature ∧
      ofHex ("0x" ++ (Hex.encode signature.toBytes).toUpper) = .ok signature ∧
      ∀ text, Hex.Spells text signature.toBytes → ofHex text = .ok signature) ∧
    ∀ front last other byte first second, ofBytes (front ++ [last]) = .ok first →
      ofBytes (other ++ [byte]) = .ok second →
        (first = second ↔ front = other ∧ choice last = choice byte) := by
  refine ⟨fun bytes => exists_ofBytes_iff, fun bytes => ofBytes_of_length_ne,
    fun front last => ofBytes_append_of_not_isRecoveryByte,
    fun front last signature => toBytes_of_ofBytes, fun signature hid => ?_,
    fun front last other byte first second => eq_iff_of_ofBytes⟩
  have hspelled {text : String} (hspells : Hex.Spells text signature.toBytes) :
      ofHex text = .ok signature := ofHex_of_spells_toBytes hid hspells
  refine ⟨ofBytes_toBytes hid, ofHex_toHex hid, ?_, ?_, ?_, fun text => hspelled⟩
  · exact hspelled ⟨_, .inl (Hex.toList_encode _), Hex.isSpelling_digitsOf _⟩
  · exact hspelled ⟨_, .inr (.inr (toList_toUpper_toHex _)), Hex.isSpelling_map_toUpper _⟩
  · exact hspelled ⟨_, .inr (.inl (toList_toUpper_encode _)), Hex.isSpelling_map_toUpper _⟩

/-- A signature whose last byte counts from 0 is written with one that counts from 27, and is
read from both; the byte between the two counts is refused. -/
theorem ofBytes_wireForm_counted_twice :
    let front : Bytes := List.replicate 32 0xab ++ List.replicate 32 5
    let signature := ofScalarBytes front 1
    front.length = 64 ∧ ofBytes (front ++ [1]) = .ok signature ∧
      ofBytes (front ++ [28]) = .ok signature ∧ signature.toBytes = front ++ [28] ∧
      signature.recoveryId ≤ 3 ∧ ofHex signature.toHex.toUpper = .ok signature ∧
      choice 1 = choice 28 ∧ ofBytes (front ++ [26]) = .error (.invalidRecoveryByte 26) ∧
      ofBytes front = .error (.invalidLength 64) := by
  intro front signature
  obtain ⟨-, hlong, hrefused, hwritten, hspelled, halike⟩ := ofBytes_wireForm
  have hfront : front.length = 64 := by decide
  have hraw : ofBytes (front ++ [1]) = .ok signature :=
    ofBytes_append_of_isRecoveryByte hfront (.inl (by decide))
  have hcounted : ofBytes (front ++ [28]) = .ok signature :=
    ofBytes_append_of_isRecoveryByte hfront (.inr (by decide))
  have hid : signature.recoveryId ≤ 3 := by decide
  refine ⟨hfront, hraw, hcounted, hwritten front 1 signature hraw, hid,
    (hspelled signature hid).2.2.2.1, ?_, ?_, ?_⟩
  · exact ((halike front 1 front 28 signature signature hraw hcounted).mp rfl).2
  · exact hrefused front 26 hfront (by decide)
  · rw [hlong front (by rw [hfront]; decide), hfront]

end Signature

end ChainClient
