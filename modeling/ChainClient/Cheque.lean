import ChainClient.Address

/-!
# Cheques between chains

Value moves from one chain to another by a cheque that is withdrawn on the first
and deposited, or after it has expired cancelled, on the second. Three system
contracts do this; a cheque is their call data.
-/

namespace ChainClient

/-- The address of a system contract: its number is the third byte from the end. -/
def systemContract (number : UInt8) : Address :=
  Address.ofLastBytes [number, 0, 0]

def withdrawContract : Address := systemContract 2

def depositContract : Address := systemContract 3

def cancelContract : Address := systemContract 4

/-- A cheque between chains. -/
structure Cheque where
  fromChain : UInt32
  sender : Address
  nonce : UInt64
  toChain : UInt32
  recipient : Address
  expireHeight : UInt64
  amount : Word
  deriving DecidableEq, Repr

namespace Cheque

/-- The fields of a cheque one behind the other, the amount behind its length. -/
def toBytes (cheque : Cheque) : Bytes :=
  Bytes.ofNat 4 cheque.fromChain.toNat ++ cheque.sender.toBytes ++
    Bytes.ofNat 8 cheque.nonce.toNat ++
    Bytes.ofNat 4 cheque.toChain.toNat ++ cheque.recipient.toBytes ++
    Bytes.ofNat 8 cheque.expireHeight.toNat ++ 32 :: cheque.amount.toBytes

def toHex (cheque : Cheque) : String :=
  Text.Hex.encodePrefixed cheque.toBytes

end Cheque

end ChainClient
