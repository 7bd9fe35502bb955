import ChainClient.Abi.Function
import ChainClient.Manager.Confirmation

/-!
# Contracts

Calling, executing, and deploying contracts through a manager, and finding the
events of a contract in a receipt.
-/

namespace ChainClient

open Operation Node

/-- The most gas that executing a contract may use unless the caller says otherwise. -/
def defaultGas : UInt64 := 4300000

namespace Manager

/-- Ask a contract for a result; a call that has reverted is an error. -/
def sendCall (manager : Manager) (contract : Address) (input : Bytes) : Operation String := do
  let result ← callResult (Transaction.query manager.chain manager.address contract input)
  if result.isReverted then fail (.callReverted result.reason)
  else pure (result.out.getD "")

/-- Call a function that changes nothing and read its results. -/
def callFunction (manager : Manager) (contract : Address) (function : Abi.Function)
    (arguments : List Abi.Value) : Operation (List Abi.Value) := do
  let data ← settle ((function.encodeCall arguments).mapError .encode)
  let out ← manager.sendCall contract data
  settle ((function.decodeOutputHex out).mapError .decode)

/-- Call a function that changes nothing and read its first result. -/
def callSingle (manager : Manager) (contract : Address) (function : Abi.Function)
    (arguments : List Abi.Value) : Operation Abi.Value := do
  match ← manager.callFunction contract function arguments with
  | value :: _ => pure value
  | [] => fail .emptyCallResult

/-- Execute a function and wait until it has succeeded. -/
def executeFunction (manager : Manager) (contract : Address) (gasLimit : UInt64)
    (function : Abi.Function) (arguments : List Abi.Value) (value : Word) :
    Operation Receipt := do
  let data ← settle ((function.encodeCall arguments).mapError .encode)
  manager.execute { Request.call contract data gasLimit with value := value }

/-- Deploy a contract and wait until it exists. -/
def deploy (manager : Manager) (bytecode : Bytes) (arguments : List Abi.Value) (value : Word) :
    Operation (Address × Receipt) := do
  let data ← settle ((Abi.encode arguments).mapError .encode)
  let receipt ← manager.execute
    { Request.deploy (bytecode ++ data) defaultGas with value := value }
  match receipt.contract? with
  | some address => pure (address, receipt)
  | none => fail (.missingContractAddress receipt.transactionHash)

def transfer (manager : Manager) (recipient : Address) (value : Word) (gasLimit : UInt64) :
    Operation Receipt :=
  manager.execute { Request.transfer recipient value with gasLimit := gasLimit }

end Manager

def Node.Log.mayComeFrom (contract : Address) (log : Log) : Bool :=
  log.address.all (· == contract)

def contractEvents (contract : Address) (event : Abi.Event) (receipt : Receipt) :
    Except ClientError (List Abi.EventValues) :=
  Log.decodeAll event (receipt.logs.filter (Log.mayComeFrom contract))

/-- The manager that settings describe. -/
def Manager.ofConfig (config : Config) : Except ClientError Manager :=
  match config.privateKey with
  | none => .error (.configuration "private key is not set")
  | some key => do
      let keys ← (KeyPair.ofHex key).mapError .key
      .ok ⟨keys, config.chain, config.strategy,
        .poll config.pollInterval.toNat config.pollAttempts.toNat⟩

end ChainClient
