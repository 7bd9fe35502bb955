import ChainClient.KeyPair

/-!
# Recoverable signatures

A signature travels as 65 bytes: two scalars and a last byte that says which
key signed, counted from 27. Signing tries the possible last bytes until the
signer's own key is recovered, so every signature made here recovers it.
-/

namespace ChainClient

open Text

/-- A signature together with the choice of the key that made it. -/
structure Signature where
  r : Word
  s : Word
  /-- Which of the possible keys signed. -/
  recoveryId : UInt8
  deriving DecidableEq, Repr

/-- Why there is no signature. -/
inductive SigningError where
  | recoveryFailed
  | noScalars
  | invalidLength (length : Nat)
  | invalidRecoveryByte (byte : UInt8)
  | hex (error : HexError)
  deriving DecidableEq, Repr

/-- The message shown for an error. -/
def SigningError.message : SigningError → String
  | recoveryFailed => "could not construct a recoverable key, are the credentials valid?"
  | noScalars => "ecdsa signing failed"
  | invalidLength length => s!"invalid signature length {length}"
  | invalidRecoveryByte byte => s!"invalid recovery byte {Hex.encodePrefixed [byte]}"
  | hex error => error.message

/-- The public key that signed a digest with the given scalars. -/
def recoverPublicKey (recoveryId : UInt8) (r s digest : Word) : Option PublicKey :=
  (Curve.recoverPoint? recoveryId.toNat digest ⟨r.toNat, s.toNat⟩).map PublicKey.ofPoint

/-- The choice of a key that signed a digest with the given scalars. The choices are
tried in order until the key is recovered. -/
def PublicKey.recoveryId? (key : PublicKey) (r s digest : Word) : Option UInt8 :=
  [0, 1, 2, 3].find? fun recoveryId => recoverPublicKey recoveryId r s digest == some key

namespace Signature

def recoveryOffset : UInt8 := 27

def lastByte (signature : Signature) : UInt8 :=
  recoveryOffset + signature.recoveryId

def toBytes (signature : Signature) : Bytes :=
  signature.r.toBytes ++ signature.s.toBytes ++ [signature.lastByte]

/-- The wire form of a signature, which is also how it is displayed. -/
def toHex (signature : Signature) : String :=
  Hex.encodePrefixed signature.toBytes

instance : ToString Signature := ⟨toHex⟩

def debug (signature : Signature) : String :=
  s!"Signature({signature.toHex})"

/-- The choice of the key that a last byte denotes, counted from 0 or from 27. -/
def recoveryIdOfByte? (byte : UInt8) : Option UInt8 :=
  if byte ≤ 3 then some byte
  else if recoveryOffset ≤ byte ∧ byte ≤ recoveryOffset + 3 then some (byte - recoveryOffset)
  else none

/-- The signature that 65 bytes hold. -/
def ofBytes (bytes : Bytes) : Except SigningError Signature :=
  if bytes.length ≠ 65 then .error (.invalidLength bytes.length)
  else
    let last := bytes.getLastD 0
    match recoveryIdOfByte? last with
    | none => .error (.invalidRecoveryByte last)
    | some recoveryId =>
        .ok ⟨Word.ofBytes (bytes.take 32), Word.ofBytes ((bytes.drop 32).take 32), recoveryId⟩

/-- The signature a hexadecimal text holds. -/
def ofHex (text : String) : Except SigningError Signature :=
  match Hex.decode text with
  | .error error => .error (.hex error)
  | .ok bytes => ofBytes bytes

def recover (signature : Signature) (digest : Word) : Option PublicKey :=
  recoverPublicKey signature.recoveryId signature.r signature.s digest

def recoverAddress (signature : Signature) (digest : Word) : Option Address :=
  (signature.recover digest).map PublicKey.address

end Signature

namespace KeyPair

/-- The signature with the given scalars, if it recovers the signer's own public key. -/
def recoverable (pair : KeyPair) (digest : Word) (scalars : Curve.Scalars) :
    Except SigningError Signature :=
  let r : Word := BitVec.ofNat 256 scalars.r
  let s : Word := BitVec.ofNat 256 scalars.s
  (pair.publicKey.recoveryId? r s digest).elim (.error .recoveryFailed) fun recoveryId =>
    .ok ⟨r, s, recoveryId⟩

/-- The signature of a digest. It always recovers the signer. -/
def sign (pair : KeyPair) (digest : Word) : Except SigningError Signature :=
  (Curve.signScalars? pair.secret digest).elim (.error .noScalars) (pair.recoverable digest)

def signText (pair : KeyPair) (text : String) : Except SigningError Signature :=
  pair.sign (Hash.keccak256Text text)

end KeyPair

end ChainClient
