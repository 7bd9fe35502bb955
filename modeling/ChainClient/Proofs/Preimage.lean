import Mathlib.Data.List.Basic
import ChainClient.Transaction
import ChainClient.Proofs.Bytes
import ChainClient.Proofs.Text.Digits
import ChainClient.Proofs.Text.Hex

/-!
# The text that is signed

The digest of a transaction is taken over a text that joins its fields with dashes. No
field contains a dash, so the text falls apart into its fields again, and each field is
written differently for different values. So a signed text stands for one transaction,
up to the chains of its sender and recipient, and for one form in which a node receives it.
-/

namespace ChainClient

open Text

/-! ## Joined texts -/

namespace Text

theorem splitOn_toList_intercalate {parts : List String} (hnonempty : parts ≠ [])
    (hparts : ∀ part ∈ parts, '-' ∉ part.toList) :
    ("-".intercalate parts).toList.splitOn '-' = parts.map String.toList := by
  rw [String.toList_intercalate]
  apply List.splitOn_intercalate
  · simpa using hparts
  · simpa using hnonempty

/-- Texts without dashes are recovered from the text that joins them with dashes. -/
theorem eq_of_intercalate_eq {first second : List String}
    (hfirst : first ≠ []) (hfirstParts : ∀ part ∈ first, '-' ∉ part.toList)
    (hsecond : second ≠ []) (hsecondParts : ∀ part ∈ second, '-' ∉ part.toList)
    (htexts : "-".intercalate first = "-".intercalate second) : first = second := by
  have hparts : first.map String.toList = second.map String.toList := by
    rw [← splitOn_toList_intercalate hfirst hfirstParts,
      ← splitOn_toList_intercalate hsecond hsecondParts, htexts]
  exact List.map_injective_iff.mpr (fun _ _ => String.toList_inj.mp) hparts

theorem toString_nat_inj {first second : Nat} :
    toString first = toString second ↔ first = second := by
  constructor
  · intro htexts
    have hdigits : Nat.toDigits 10 first = Nat.toDigits 10 second := by
      rw [← Nat.toList_repr, ← Nat.toList_repr, ← Nat.toString_eq_repr, ← Nat.toString_eq_repr,
        htexts]
    rw [← Nat.ofDigitChars_ten_toDigits (n := first), hdigits, Nat.ofDigitChars_ten_toDigits]
  · exact congrArg toString

/-- A value that may be missing is told from one that is there by the empty text. -/
theorem elim_empty_inj {α : Type} {text : α → String} {first second : Option α}
    (hnonempty : ∀ value, text value ≠ "")
    (hinj : ∀ {first second}, text first = text second ↔ first = second) :
    first.elim "" text = second.elim "" text ↔ first = second := by
  cases first with
  | none =>
      cases second with
      | none => simp
      | some value => simpa using (hnonempty value).symm
  | some value =>
      cases second with
      | none => simpa using hnonempty value
      | some other => simpa using hinj

end Text

/-! ## Texts of fields -/

namespace Address

theorem toLowerHex_inj {first second : Address} :
    first.toLowerHex = second.toLowerHex ↔ first = second := by
  rw [toLowerHex, toLowerHex, Hex.encode_inj]
  constructor
  · intro hbytes
    rw [← ofLastBytes_toBytes first, hbytes, ofLastBytes_toBytes]
  · exact congrArg toBytes

theorem toLowerHex_ne_empty (address : Address) : address.toLowerHex ≠ "" := by
  intro hempty
  have hsize : address.toLowerHex.utf8ByteSize = 40 := by
    rw [toLowerHex, Hex.utf8ByteSize_encode, length_toBytes]
  rw [hempty] at hsize
  cases hsize

theorem not_mem_toLowerHex (address : Address) : '-' ∉ address.toLowerHex.toList := by
  rw [toLowerHex, Hex.toList_encode]
  exact Hex.not_mem_digitsOf (by decide) _

theorem toPrefixedHex_inj {first second : Address} :
    first.toPrefixedHex = second.toPrefixedHex ↔ first = second := by
  rw [toPrefixedHex, toPrefixedHex, String.append_right_inj, toLowerHex_inj]

theorem toPrefixedHex_ne_empty (address : Address) : address.toPrefixedHex ≠ "" := by
  simp [toPrefixedHex]

end Address

namespace Transaction

variable {first second : Transaction}

/-! ## The fields of a transaction -/

theorem not_mem_of_mem_preimageParts (transaction : Transaction) :
    ∀ part ∈ transaction.preimageParts, '-' ∉ part.toList := by
  have hnumber : ∀ number, '-' ∉ Nat.toDigits 10 number := not_mem_toDigits (by decide)
  have hbytes : ∀ bytes, '-' ∉ Hex.digitsOf bytes := Hex.not_mem_digitsOf (by decide)
  have hflag : ∀ flag : Bool, '-' ∉ (if flag then "1" else "0").toList := by decide
  have haddress : ∀ address : Option Address,
      '-' ∉ (address.elim "" Address.toLowerHex).toList := by
    intro address
    cases address with
    | none => simp
    | some address => exact address.not_mem_toLowerHex
  simp [preimageParts, hnumber, hbytes, haddress, hflag]

theorem flag_inj {first second : Bool} :
    (if first then "1" else "0") = (if second then "1" else "0") ↔ first = second := by
  revert first second
  decide

theorem input_inj {first second : Bytes} :
    (if first.isEmpty then "" else Hex.encodePrefixed first) =
      (if second.isEmpty then "" else Hex.encodePrefixed second) ↔ first = second := by
  cases first <;> cases second <;> simp [Hex.encodePrefixed, Hex.encode_inj]

/-- The signed text stands for all fields but the chains of sender and recipient. -/
theorem preimage_eq_iff : first.preimage = second.preimage ↔
    first = { second with fromChain := first.fromChain, toChain := first.toChain } := by
  constructor
  · intro htexts
    have hparts : first.preimageParts = second.preimageParts :=
      eq_of_intercalate_eq (List.cons_ne_nil _ _) first.not_mem_of_mem_preimageParts
        (List.cons_ne_nil _ _) second.not_mem_of_mem_preimageParts htexts
    simp only [preimageParts, List.cons.injEq, toString_nat_inj, UInt64.toNat_inj,
      BitVec.toNat_inj, Hex.encode_inj, flag_inj,
      elim_empty_inj Address.toLowerHex_ne_empty Address.toLowerHex_inj] at hparts
    obtain ⟨hchain, hsender, hrecipient, hnonce, hlocal, hvalue, hinput, hextra, -⟩ := hparts
    rw [← hchain, ← hsender, ← hrecipient, ← hnonce, ← hlocal, ← hvalue, ← hinput, ← hextra]
  · intro hfields
    rw [hfields]
    rfl

/-- What a node receives stands for all fields. -/
theorem unsignedWire_inj : first.unsignedWire = second.unsignedWire ↔ first = second := by
  constructor
  · intro hwire
    simp only [unsignedWire, toWire, WireTransaction.mk.injEq, toString_nat_inj,
      UInt64.toNat_inj, BitVec.toNat_inj, Hex.encode_inj, input_inj, true_and,
      elim_empty_inj Address.toPrefixedHex_ne_empty Address.toPrefixedHex_inj] at hwire
    obtain ⟨hchain, hfrom, hto, hsender, hrecipient, hnonce, hvalue, hinput, hlocal, hextra⟩ :=
      hwire
    obtain ⟨⟩ := first
    rw [Transaction.mk.injEq]
    exact ⟨hchain, hfrom, hto, hsender, hrecipient, hnonce, hvalue, hinput, hlocal, hextra⟩
  · exact congrArg unsignedWire

/-! ## Transactions on one chain -/

/-- Sender and recipient are on the chain of the transaction. -/
structure IsLocal (transaction : Transaction) : Prop where
  fromChain_eq : transaction.fromChain = transaction.chain
  toChain_eq : transaction.toChain = transaction.chain

theorem isLocal_create (chain nonce gasLimit : UInt64) (recipient : Option Address) (value : Word)
    (input : Bytes) : (create chain nonce gasLimit recipient value input).IsLocal :=
  ⟨rfl, rfl⟩

theorem isLocal_query (chain : UInt64) (sender recipient : Address) (input : Bytes) :
    (query chain sender recipient input).IsLocal :=
  ⟨rfl, rfl⟩

/-- On one chain the signed text stands for the transaction. -/
theorem IsLocal.preimage_inj (hfirst : first.IsLocal) (hsecond : second.IsLocal) :
    first.preimage = second.preimage ↔ first = second := by
  constructor
  · intro htexts
    have hfields := preimage_eq_iff.mp htexts
    have hchain : first.chain = second.chain := by rw [hfields]
    have hfrom : first.fromChain = second.fromChain := by
      rw [hfirst.fromChain_eq, hchain, hsecond.fromChain_eq]
    have hto : first.toChain = second.toChain := by
      rw [hfirst.toChain_eq, hchain, hsecond.toChain_eq]
    rw [hfields, hfrom, hto]
  · exact congrArg preimage

/-- The signed text determines what a node receives, and both determine the transaction. -/
theorem preimage_determines_wire (hfirst : first.IsLocal) (hsecond : second.IsLocal) :
    (first.preimage = second.preimage ↔ first.unsignedWire = second.unsignedWire) ∧
      (first.unsignedWire = second.unsignedWire ↔ first = second) :=
  ⟨(hfirst.preimage_inj hsecond).trans unsignedWire_inj.symm, unsignedWire_inj⟩

/-- A transaction without a recipient is told from one to the account zero. -/
theorem preimage_determines_wire_recipient :
    (create 1 0 21000 none 0 []).IsLocal ∧ (create 1 0 21000 (some .zero) 0 []).IsLocal ∧
      (create 1 0 21000 none 0 []).preimage ≠ (create 1 0 21000 (some .zero) 0 []).preimage ∧
      (create 1 0 21000 none 0 []).unsignedWire ≠
        (create 1 0 21000 (some .zero) 0 []).unsignedWire := by
  have hfirst := isLocal_create 1 0 21000 none 0 []
  have hsecond := isLocal_create 1 0 21000 (some .zero) 0 []
  obtain ⟨hpreimage, hwire⟩ := preimage_determines_wire hfirst hsecond
  have hne : create 1 0 21000 none 0 [] ≠ create 1 0 21000 (some .zero) 0 [] := by decide
  have hwireNe := mt hwire.mp hne
  exact ⟨hfirst, hsecond, mt hpreimage.mp hwireNe, hwireNe⟩

end Transaction

end ChainClient
