import ChainClient.Transaction
import ChainClient.Proofs.Bytes
import ChainClient.Proofs.Text.Hex

/-!
# Signed transactions

A signature is read back from its wire form, and one that was made by a key pair
recovers the public key of the pair. So everything that a signed transaction carries
goes together: the sender, the digest, the signature, and the public key all belong to
the one who signed.
-/

namespace ChainClient

open Text

/-! ## The wire forms -/

namespace Signature

variable {signature : Signature}

theorem recoveryIdOfByte?_lastByte (hid : signature.recoveryId ≤ 3) :
    recoveryIdOfByte? signature.lastByte = some signature.recoveryId := by
  have hall : ∀ id < 4, recoveryIdOfByte? (recoveryOffset + UInt8.ofNat id) =
      some (UInt8.ofNat id) := by
    decide
  have hchoice := hall signature.recoveryId.toNat (Nat.lt_succ_of_le (UInt8.le_iff_toNat_le.mp hid))
  rwa [UInt8.ofNat_toNat] at hchoice

theorem length_toBytes (signature : Signature) : signature.toBytes.length = 65 := by
  simp [toBytes]

/-- A signature is read back from its bytes. -/
theorem ofBytes_toBytes (hid : signature.recoveryId ≤ 3) :
    ofBytes signature.toBytes = .ok signature := by
  have hlast : signature.toBytes.getLastD 0 = signature.lastByte := by simp [toBytes]
  have hr : signature.toBytes.take 32 = signature.r.toBytes := by
    rw [toBytes, List.append_assoc, List.take_left' (Word.length_toBytes _)]
  have hs : (signature.toBytes.drop 32).take 32 = signature.s.toBytes := by
    rw [toBytes, List.append_assoc, List.drop_left' (Word.length_toBytes _),
      List.take_left' (Word.length_toBytes _)]
  simp only [ofBytes, length_toBytes, hlast, recoveryIdOfByte?_lastByte hid, hr, hs,
    Word.ofBytes_toBytes, ne_eq, not_true_eq_false, if_false]

theorem ofHex_toHex (hid : signature.recoveryId ≤ 3) :
    ofHex signature.toHex = .ok signature := by
  rw [ofHex, toHex, Hex.decode_encodePrefixed]
  exact ofBytes_toBytes hid

end Signature

theorem PublicKey.toWire_eq (key : PublicKey) :
    key.toWire = "0x04" ++ Hex.encode key.toBytes := by
  have htag : Hex.digitsOf (4 :: key.toBytes) = '0' :: '4' :: Hex.digitsOf key.toBytes := rfl
  rw [← String.toList_inj, toWire, Hex.toList_encodePrefixed, htag, String.toList_append,
    Hex.toList_encode]
  simp

/-! ## Signing -/

theorem PublicKey.recover_of_recoveryId? {key : PublicKey} {r s digest : Word}
    {recoveryId : UInt8} (hfound : key.recoveryId? r s digest = some recoveryId) :
    recoveryId ≤ 3 ∧ recoverPublicKey recoveryId r s digest = some key := by
  -- What is found is one of the choices, and one that recovers the key.
  have hall : ∀ id ∈ [(0 : UInt8), 1, 2, 3], id ≤ 3 := by simp
  exact ⟨hall recoveryId (List.mem_of_find?_eq_some hfound),
    beq_iff_eq.mp (List.find?_some hfound :)⟩

theorem KeyPair.recover_of_recoverable {pair : KeyPair} {digest : Word}
    {scalars : Curve.Scalars} {signature : Signature}
    (hsign : pair.recoverable digest scalars = .ok signature) :
    signature.recoveryId ≤ 3 ∧ signature.recover digest = some pair.publicKey := by
  rw [recoverable] at hsign
  cases hfound : pair.publicKey.recoveryId? (.ofNat 256 scalars.r) (.ofNat 256 scalars.s)
      digest with
  | none =>
      rw [hfound] at hsign
      cases hsign
  | some recoveryId =>
      rw [hfound] at hsign
      cases hsign
      exact PublicKey.recover_of_recoveryId? hfound

/-- A signature recovers the public key of its signer. -/
theorem KeyPair.recover_of_sign {pair : KeyPair} {digest : Word} {signature : Signature}
    (hsign : pair.sign digest = .ok signature) :
    signature.recoveryId ≤ 3 ∧ signature.recover digest = some pair.publicKey := by
  rw [sign] at hsign
  cases hscalars : Curve.signScalars? pair.secret digest with
  | none =>
      rw [hscalars] at hsign
      cases hsign
  | some scalars =>
      rw [hscalars] at hsign
      exact recover_of_recoverable hsign

theorem KeyPair.sign_of_scalars {pair : KeyPair} {digest : Word} {scalars : Curve.Scalars}
    {recoveryId : UInt8} (hscalars : Curve.signScalars? pair.secret digest = some scalars)
    (hfound : pair.publicKey.recoveryId? (.ofNat 256 scalars.r) (.ofNat 256 scalars.s) digest =
      some recoveryId) :
    pair.sign digest = .ok ⟨.ofNat 256 scalars.r, .ofNat 256 scalars.s, recoveryId⟩ := by
  rw [sign, hscalars, Option.elim, recoverable, hfound]
  rfl

/-! ## Signed transactions -/

/-- Everything that a transaction signed with a key pair carries belongs together: the
signature is one of the carried digest, and it recovers the carried key and sender. -/
structure SignedTransaction.IsEnvelope (signed : SignedTransaction)
    (transaction : Transaction) (keys : KeyPair) (signature : Signature) : Prop where
  /-- Signing changes nothing but the sender. -/
  transaction_eq : signed.transaction = { transaction with sender := some keys.address }
  digest_eq : signed.digest = Hash.keccak256Text signed.transaction.preimage
  signature_eq : signed.signature = signature.toHex
  ofHex_signature : Signature.ofHex signed.signature = .ok signature
  recoveryId_le : signature.recoveryId ≤ 3
  /-- The last byte of the wire form counts the choices of the key from 27. -/
  getLast?_toBytes : signature.toBytes.getLast? = some (27 + signature.recoveryId)
  recover_digest : signature.recover signed.digest = some keys.publicKey
  recoverAddress_digest : signature.recoverAddress signed.digest = signed.transaction.sender
  publicKey_eq : signed.publicKey = "0x04" ++ Hex.encode keys.publicKey.toBytes
  /-- The node receives this signature, this key and this sender beside the fields of
  the transaction. -/
  toWire_eq : signed.toWire = { signed.transaction.unsignedWire with
    signature := signed.signature
    publicKey := signed.publicKey
    sender := keys.address.toPrefixedHex }

namespace Transaction

/-- A transaction whose digest has a given signature by its sender. -/
def withSignature (transaction : Transaction) (keys : KeyPair) (signature : Signature) :
    SignedTransaction :=
  let sent := { transaction with sender := some keys.address }
  ⟨sent, signature.toHex, keys.publicKey.toWire, sent.digest⟩

variable {transaction : Transaction} {keys : KeyPair} {signed : SignedTransaction}

theorem sign_eq_ok_iff : transaction.sign keys = .ok signed ↔
    ∃ signature, keys.sign { transaction with sender := some keys.address }.digest =
      .ok signature ∧ signed = transaction.withSignature keys signature := by
  rw [sign]
  cases hsignature : keys.sign { transaction with sender := some keys.address }.digest with
  | error error => exact ⟨nofun, nofun⟩
  | ok signature =>
      constructor
      · rintro ⟨⟩
        exact ⟨signature, rfl, rfl⟩
      · rintro ⟨_, ⟨⟩, rfl⟩
        rfl

/-- A signature changes nothing in a transaction but its sender. -/
theorem eq_of_sign (hsigned : transaction.sign keys = .ok signed) :
    signed.transaction = { transaction with sender := some keys.address } ∧
      signed.digest = signed.transaction.digest := by
  obtain ⟨signature, -, rfl⟩ := sign_eq_ok_iff.mp hsigned
  exact ⟨rfl, rfl⟩

/-- A sender named before the signature is forgotten. -/
theorem sign_withSender (transaction : Transaction) (sender : Option Address) (keys : KeyPair) :
    { transaction with sender := sender }.sign keys = transaction.sign keys :=
  rfl

/-- What is signed is consistent: the sender was bound before the digest was taken, and
the signature reads back from the wire as one that recovers the signer. -/
theorem isEnvelope_of_sign (hsigned : transaction.sign keys = .ok signed) :
    ∃ signature, signed.IsEnvelope transaction keys signature := by
  obtain ⟨signature, hsignature, rfl⟩ := sign_eq_ok_iff.mp hsigned
  obtain ⟨hid, hsigner⟩ := KeyPair.recover_of_sign hsignature
  exact ⟨signature, {
    transaction_eq := rfl
    digest_eq := rfl
    signature_eq := rfl
    ofHex_signature := Signature.ofHex_toHex hid
    recoveryId_le := hid
    getLast?_toBytes := List.getLast?_concat
    recover_digest := hsigner
    recoverAddress_digest := congrArg (Option.map PublicKey.address) hsigner
    publicKey_eq := PublicKey.toWire_eq _
    toWire_eq := rfl }⟩

end Transaction

/-! ## Signed payments -/

namespace Curve

/-- The scalars of a signature, once the scalar for it is drawn. -/
def scalarsFrom? (drawn : Nat) (secret digest : Word) : Option Scalars := do
  let point ← (baseMultiple drawn).toPoint?
  let r := point.x % groupOrder
  let s := inverseScalar drawn * (digest.toNat + r * secret.toNat) % groupOrder
  if r = 0 ∨ s = 0 then none else some ⟨r, lowScalar s⟩

theorem signScalars?_eq_bind (secret digest : Word) :
    signScalars? secret digest = ((Draw.seeded secret digest).scalar? drawLimit).bind fun drawn =>
      scalarsFrom? drawn secret digest := rfl

end Curve

namespace KeyPair

/-- The key pair of the scalar one. -/
def one : KeyPair :=
  (ofSecret? 1).get (by decide +kernel)

theorem secret_one : one.secret = 1 := by
  decide +kernel

theorem publicKey_one : one.publicKey = .ofPoint Curve.generator := by
  decide +kernel

theorem address_one : one.address = ⟨0x7e5f4552091a69125d5dfcb7b8c2659029395bdf⟩ := by
  rw [address, publicKey_one]
  decide +kernel

end KeyPair

namespace Transaction

/-- A payment to the account zero. -/
def payment (nonce : UInt64) : Transaction :=
  .create 1 nonce 21000 (some .zero) 5 []

/-- A payment is signed step by step: its digest, the scalar drawn for it, the two scalars of
the signature, the choice of the key. -/
theorem sign_payment_of_steps {nonce : UInt64} {digest : Word} {drawn : Nat} {signature : Signature}
    (hdigest : { payment nonce with
      sender := some ⟨0x7e5f4552091a69125d5dfcb7b8c2659029395bdf⟩ }.digest = digest)
    (hdrawn : (Curve.Draw.seeded 1 digest).scalar? Curve.drawLimit = some drawn)
    (hscalars : Curve.scalarsFrom? drawn 1 digest =
      some ⟨signature.r.toNat, signature.s.toNat⟩)
    (hfound : (PublicKey.ofPoint Curve.generator).recoveryId? signature.r signature.s digest =
      some signature.recoveryId) :
    (payment nonce).sign KeyPair.one =
      .ok ((payment nonce).withSignature KeyPair.one signature) := by
  refine sign_eq_ok_iff.mpr ⟨signature, ?_, rfl⟩
  have hsigned : Curve.signScalars? 1 digest = some ⟨signature.r.toNat, signature.s.toNat⟩ := by
    rw [Curve.signScalars?_eq_bind, hdrawn, Option.bind_some, hscalars]
  rw [KeyPair.address_one, hdigest]
  rw [← KeyPair.secret_one] at hsigned
  rw [← KeyPair.publicKey_one] at hfound
  simpa using KeyPair.sign_of_scalars hsigned (by simpa using hfound)

def paymentSignature : Signature where
  r := 0x62832afaf6d74cc87407014eb9774828184ac49ae01a2e14cc8cba4360f71f43
  s := 0x0dccd98d579e8bb2e6bf9b855a5e0910a6709fd0f202bd3343832855e3769935
  recoveryId := 0

def nextPaymentSignature : Signature where
  r := 0xcc809118b718fc30c6de6c61cb212ece15d71d638b9c7d103b2c4740afee10d0
  s := 0x0334205e99cd6528f182e1f832e1cf125f5a3a6c6045c5eeb957215980cb699d
  recoveryId := 1

def lastPaymentSignature : Signature where
  r := 0x212bf8e3974cbaa3c03b75f2259623dc5316d32ea0bb12c07ba08a12c9aa53e4
  s := 0x79ca4c552798ed6f309477e356b862e48de926f793e2ccba1d41f308ad549f51
  recoveryId := 1

theorem digest_payment : { payment 7 with
    sender := some ⟨0x7e5f4552091a69125d5dfcb7b8c2659029395bdf⟩ }.digest =
      0x4e0b275d7429a7527c259662a8fccbf4bb6206829fa2412efcd5edc0af66f3ea := by
  decide +kernel

theorem sign_payment : (payment 7).sign KeyPair.one =
    .ok ((payment 7).withSignature KeyPair.one paymentSignature) :=
  @sign_payment_of_steps 7 _ 0xed3a72b6319d771808921d2f7a39f1bcb46aebd5af2c2fd3557861fcf36f5fc6
    paymentSignature digest_payment (by decide +kernel) (by decide +kernel) (by decide +kernel)

theorem sign_nextPayment : (payment 8).sign KeyPair.one =
    .ok ((payment 8).withSignature KeyPair.one nextPaymentSignature) :=
  @sign_payment_of_steps 8 0x04281835ce00514c0bb1bb89ceda2f32cc23f704127a4bb8ab162d99c5c401af
    0x6c2a43d45359288d83e59dbb00540eb4630c0e26f7626bff4c25c40a42bf7574 nextPaymentSignature
    (by decide +kernel) (by decide +kernel) (by decide +kernel) (by decide +kernel)

theorem sign_lastPayment : (payment 9).sign KeyPair.one =
    .ok ((payment 9).withSignature KeyPair.one lastPaymentSignature) :=
  @sign_payment_of_steps 9 0x20781528379280434675350c41d39c9f2222073a72fe863117bb2b291a5afc22
    0xe6f2e4f9e5359f1db05c759de1c9c6ff1226a90f39f9481e06694d7b5ac375b5 lastPaymentSignature
    (by decide +kernel) (by decide +kernel) (by decide +kernel) (by decide +kernel)

/-- The payments of the nonces 7, 8 and 9, signed with the key one. -/
def firstPayment : SignedTransaction :=
  (payment 7).withSignature KeyPair.one paymentSignature

def secondPayment : SignedTransaction :=
  (payment 8).withSignature KeyPair.one nextPaymentSignature

def thirdPayment : SignedTransaction :=
  (payment 9).withSignature KeyPair.one lastPaymentSignature

theorem isEnvelope_of_sign_payment :
    { payment 7 with sender := some .zero }.sign KeyPair.one =
        .ok ((payment 7).withSignature KeyPair.one paymentSignature) ∧
      ∃ signature, ((payment 7).withSignature KeyPair.one paymentSignature).IsEnvelope
        { payment 7 with sender := some .zero } KeyPair.one signature :=
  have hsigned := (sign_withSender (payment 7) (some .zero) KeyPair.one).trans sign_payment
  ⟨hsigned, isEnvelope_of_sign hsigned⟩

end Transaction

end ChainClient
