import ChainClient.Manager.Submission

/-!
# Confirmation

After a transaction has been sent, the manager looks for its receipt until there
is one, until the budget of looks is used up, or until the wait is cancelled. A
receipt that reports a failure is an error.
-/

namespace ChainClient

open Operation Node

/-- Look for a receipt at most `attempts` times more, with pauses in between.
Before each look, and during each pause, the wait may be cancelled. -/
def pollReceipt (chain : UInt64) (hash : String) (interval budget : Nat) :
    (attempts : Nat) → Operation Receipt
  | 0 => fail (.confirmationTimeout hash (interval * budget))
  | attempts + 1 => do
      if ← isCancelled then fail (.cancelled hash)
      else
        match ← look chain hash with
        | .ready receipt => pure receipt
        | .fatal error => fail error
        | .pending =>
            if attempts = 0 then pollReceipt chain hash interval budget attempts
            else if ← pause interval then fail (.cancelled hash)
            else pollReceipt chain hash interval budget attempts

/-- Wait for the receipt of a transaction. -/
def Confirmation.receipt (confirmation : Confirmation) (chain : UInt64) (hash : String) :
    Operation Receipt :=
  match confirmation with
  | assume => pure (Receipt.assumed hash)
  | poll interval attempts => pollReceipt chain hash interval attempts attempts

namespace Manager

/-- Wait for the receipt of a transaction on the manager's chain. -/
def waitForReceipt (manager : Manager) (hash : String) : Operation Receipt :=
  manager.confirmation.receipt manager.chain hash

/-- The receipt of a success; that of a failure becomes an error. -/
def confirm (hash : String) (receipt : Receipt) : Operation Receipt :=
  if receipt.isSuccess then pure receipt
  else fail (.reverted hash receipt.status receipt.gasUsed receipt.reason)

/-- Send a transaction and wait until it has succeeded. -/
def execute (manager : Manager) (request : Request) : Operation Receipt := do
  let hash ← manager.send request
  let receipt ← manager.waitForReceipt hash
  confirm hash receipt

end Manager

end ChainClient
