import ChainClient.Text.Hex

/-!
# Hexadecimal digits

Each byte is written as two digits, each of which is read as the half of the byte that
it stands for. So bytes are recovered from their digits, with a mark in front of them,
and different bytes have different digits.
-/

namespace ChainClient.Text.Hex

theorem digit?_digitChar {value : Nat} (hvalue : value < 16) :
    digit? (digitChar value) = some value := by
  have hall : ∀ value < 16, digit? (digitChar value) = some value := by decide
  exact hall value hvalue

theorem utf8Size_digitChar {value : Nat} (hvalue : value < 16) :
    (digitChar value).utf8Size = 1 := by
  have hall : ∀ value < 16, (digitChar value).utf8Size = 1 := by decide
  exact hall value hvalue

theorem exists_of_mem_digitsOf {char : Char} {bytes : Bytes} (hmem : char ∈ digitsOf bytes) :
    ∃ value < 16, char = digitChar value := by
  induction bytes with
  | nil => cases hmem
  | cons byte rest ih =>
      have hbyte := byte.toNat_lt
      rw [digitsOf, List.mem_cons, List.mem_cons] at hmem
      rcases hmem with hhigh | hlow | hrest
      · exact ⟨_, by omega, hhigh⟩
      · exact ⟨_, by omega, hlow⟩
      · exact ih hrest

/-- What is not a digit does not occur. -/
theorem not_mem_digitsOf {char : Char} (hchar : digit? char = none) (bytes : Bytes) :
    char ∉ digitsOf bytes := by
  intro hmem
  obtain ⟨value, hvalue, rfl⟩ := exists_of_mem_digitsOf hmem
  cases hchar.symm.trans (digit?_digitChar hvalue)

theorem length_digitsOf (bytes : Bytes) : (digitsOf bytes).length = 2 * bytes.length := by
  induction bytes with
  | nil => rfl
  | cons byte rest ih =>
      rw [digitsOf, List.length_cons, List.length_cons, ih, List.length_cons]
      omega

theorem pairs?_digitsOf (position : Nat) (bytes : Bytes) :
    pairs? position (digitsOf bytes) = .ok bytes := by
  induction bytes generalizing position with
  | nil => rfl
  | cons byte rest ih =>
      have hbyte := byte.toNat_lt
      have hhalves : byte.toNat / 16 * 16 + byte.toNat % 16 = byte.toNat := by omega
      rw [digitsOf, pairs?, digit?_digitChar (by omega), digit?_digitChar (by omega), ih]
      simp only [hhalves, UInt8.ofNat_toNat, Except.map]

theorem digitsOf_injective {first second : Bytes} (hdigits : digitsOf first = digitsOf second) :
    first = second := by
  have hbytes := pairs?_digitsOf 0 first
  rw [hdigits, pairs?_digitsOf] at hbytes
  exact (Except.ok.inj hbytes).symm

/-! ## Texts -/

@[simp] theorem toList_encode (bytes : Bytes) : (encode bytes).toList = digitsOf bytes :=
  String.toList_ofList

@[simp] theorem toList_encodePrefixed (bytes : Bytes) :
    (encodePrefixed bytes).toList = '0' :: 'x' :: digitsOf bytes := by
  simp [encodePrefixed]

theorem utf8ByteSize_encode (bytes : Bytes) : (encode bytes).utf8ByteSize = 2 * bytes.length := by
  induction bytes with
  | nil => rfl
  | cons byte rest ih =>
      have hbyte := byte.toNat_lt
      rw [encode] at ih
      rw [encode, digitsOf, String.ofList_cons, String.ofList_cons, String.utf8ByteSize_append,
        String.utf8ByteSize_append, String.utf8ByteSize_singleton, String.utf8ByteSize_singleton,
        utf8Size_digitChar (by omega), utf8Size_digitChar (by omega), ih, List.length_cons]
      omega

/-- Bytes that are written behind a mark are read back. -/
theorem decode_encodePrefixed (bytes : Bytes) : decode (encodePrefixed bytes) = .ok bytes := by
  have hstrip : stripPrefix (encodePrefixed bytes) = encode bytes := by
    rw [stripPrefix, toList_encodePrefixed]
    rfl
  rw [decode, hstrip, decodeDigits, utf8ByteSize_encode, if_neg (by omega), toList_encode,
    pairs?_digitsOf]

theorem encode_inj {first second : Bytes} : encode first = encode second ↔ first = second :=
  ⟨fun htexts => digitsOf_injective (String.ofList_injective htexts), congrArg encode⟩

end ChainClient.Text.Hex
