import ChainClient.Address
import ChainClient.Curve.Ecdsa

/-!
# Keys

A secret key is a scalar of the signature curve and determines a public key,
whose digest names an account. A key pair carries both and the proof that they
belong together.
-/

namespace ChainClient

open Text

/-- A public key, given by the coordinates of a point. Nothing promises that the
point lies on the curve. -/
structure PublicKey where
  x : Word
  y : Word
  deriving DecidableEq, Repr

namespace PublicKey

def toBytes (key : PublicKey) : Bytes :=
  key.x.toBytes ++ key.y.toBytes

def ofBytes (bytes : Bytes) : PublicKey :=
  ⟨Word.ofBytes (bytes.take 32), Word.ofBytes (bytes.drop 32)⟩

def ofPoint (point : Curve.Point) : PublicKey :=
  ⟨BitVec.ofNat 256 point.x, BitVec.ofNat 256 point.y⟩

/-- The uncompressed wire form of a public key: its bytes behind the tag 4. -/
def toWire (key : PublicKey) : String :=
  Hex.encodePrefixed (4 :: key.toBytes)

/-- The address of the account a public key controls: the end of its digest. -/
def address (key : PublicKey) : Address :=
  Address.ofLastBytes (Hash.keccak256 key.toBytes).toBytes

def debug (key : PublicKey) : String :=
  s!"PublicKey({Hex.encodePrefixed key.toBytes})"

def ofSecret? (secret : Word) : Option PublicKey :=
  (Curve.baseMultiple secret.toNat).toPoint?.map ofPoint

end PublicKey

/-- Why a text or byte string is not a secret key. -/
inductive KeyError where
  | hex (error : HexError)
  | invalidPrivateKey
  deriving DecidableEq, Repr

def KeyError.message : KeyError → String
  | hex error => error.message
  | invalidPrivateKey => "invalid private key"

/-- A secret key together with its public key. -/
structure KeyPair where
  secret : Word
  publicKey : PublicKey
  /-- The two keys belong together. -/
  ofSecret_secret : PublicKey.ofSecret? secret = some publicKey

namespace KeyPair

/-- The key pair of a secret scalar. -/
def ofSecret? (secret : Word) : Option KeyPair :=
  if Curve.isScalar secret.toNat then
    match hkey : PublicKey.ofSecret? secret with
    | some key => some ⟨secret, key, hkey⟩
    | none => none
  else none

def ofBytes (bytes : Bytes) : Except KeyError KeyPair :=
  if bytes.length < 24 ∨ 32 < bytes.length then .error .invalidPrivateKey
  else (ofSecret? (Word.ofBytes bytes)).elim (.error .invalidPrivateKey) .ok

/-- The key pair whose secret key is given by at most 32 bytes in hexadecimal. -/
def ofHex (text : String) : Except KeyError KeyPair :=
  match Hex.decode text with
  | .error error => .error (.hex error)
  | .ok bytes =>
      if 32 < bytes.length then .error .invalidPrivateKey
      else ofBytes (Bytes.zeros (32 - bytes.length) ++ bytes)

def address (pair : KeyPair) : Address :=
  pair.publicKey.address

/-- How a key pair is shown to a programmer: the secret key is left out. -/
def debug (pair : KeyPair) : String :=
  "KeyPair \x7b public_key: " ++ pair.publicKey.debug ++ ", .. \x7d"

/-- Key pairs are compared by their public keys. -/
instance : BEq KeyPair := ⟨fun first second => first.publicKey == second.publicKey⟩

end KeyPair

end ChainClient
