import ChainClient.Config
import ChainClient.Manager.Access

/-!
# Submission

A manager sends the transactions of one account on one chain. Under the lock on
the next nonce it takes a nonce, signs, and hands the transaction to the node,
so that transactions reach the node in the order of their nonces. When the
client counts nonces itself, a nonce is used up once it is taken, whatever
becomes of its transaction.
-/

namespace ChainClient

/-- How a manager learns what has become of a transaction. -/
inductive Confirmation where
  /-- It does not wait and takes success for granted. -/
  | assume
  | poll (interval attempts : Nat)
  deriving DecidableEq, Repr

/-- What sends the transactions of one account on one chain. -/
structure Manager where
  keys : KeyPair
  chain : UInt64
  strategy : NonceStrategy
  confirmation : Confirmation

/-- What a caller asks a manager to send. -/
structure Request where
  /-- The recipient; a deployment has none. -/
  recipient : Option Address
  value : Word
  input : Bytes
  gasLimit : UInt64
  deriving DecidableEq, Repr

namespace Request

def transferGas : UInt64 := 21000

def transfer (recipient : Address) (value : Word) : Request :=
  ⟨some recipient, value, [], transferGas⟩

def call (contract : Address) (input : Bytes) (gasLimit : UInt64) : Request :=
  ⟨some contract, 0, input, gasLimit⟩

def deploy (bytecode : Bytes) (gasLimit : UInt64) : Request :=
  ⟨none, 0, bytecode, gasLimit⟩

end Request

namespace Manager

open Operation

def address (manager : Manager) : Address :=
  manager.keys.address

/-- How a manager is shown to a programmer: the keys are left out. -/
def debug (manager : Manager) : String :=
  "RawTransactionManager \x7b address: Address(" ++ manager.address.toChecksum ++
    "), chain_id: " ++ toString manager.chain.toNat ++
    ", nonce_strategy: " ++ manager.strategy.debug ++ ", .. \x7d"

/-- The nonce behind a nonce. Behind the last one there is none, and the program stops. -/
def following (nonce : UInt64) : Except ClientError UInt64 :=
  if nonce.toNat + 1 < UInt64.size then .ok (nonce + 1) else .error .overflow

/-- The nonce for the next transaction, and the nonce to keep after it. The node
is asked unless a nonce is kept; only the counting strategy keeps one. -/
def takeNonce (manager : Manager) (kept : Option UInt64) : Operation (UInt64 × Option UInt64) :=
  match manager.strategy, kept with
  | .network, kept => do
      let nonce ← nonce manager.chain manager.address
      pure (nonce, kept)
  | .batch, some nonce => do
      let next ← settle (following nonce)
      pure (nonce, some next)
  | .batch, none => do
      let nonce ← nonce manager.chain manager.address
      let next ← settle (following nonce)
      pure (nonce, some next)

/-- Do something with the next nonce under the lock. If no nonce can be had, the
lock is released with what was kept there, also where the program stops. -/
def withNonce {α : Type} (manager : Manager) (action : UInt64 → Operation α) : Operation α := do
  let kept ← acquire
  match ← attempt (manager.takeNonce kept) with
  | .error error =>
      release kept
      fail error
  | .ok (nonce, next) =>
      let result ← attempt (action nonce)
      release next
      settle result

def nextNonce (manager : Manager) : Operation UInt64 :=
  manager.withNonce pure

def resetNonce : Operation Unit := do
  let _ ← acquire
  release none

def sign (manager : Manager) (transaction : Transaction) : Operation SignedTransaction :=
  settle ((transaction.sign manager.keys).mapError .signing)

/-- Sign a transaction and hand it to the node. If no answer comes back, the
transaction may have been taken all the same, and the error says its digest. -/
def signAndSend (manager : Manager) (transaction : Transaction) : Operation String := do
  let signed ← manager.sign transaction
  match ← attempt (submit signed) with
  | .ok hash => pure hash
  | .error (.transport source) => fail (.submission signed.digestHex source)
  | .error error => fail error

def build (manager : Manager) (request : Request) (nonce : UInt64) : Transaction :=
  Transaction.create manager.chain nonce request.gasLimit request.recipient request.value
    request.input

def send (manager : Manager) (request : Request) : Operation String :=
  manager.withNonce fun nonce => manager.signAndSend (manager.build request nonce)

end Manager

end ChainClient
