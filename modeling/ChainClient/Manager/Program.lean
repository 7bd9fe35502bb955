import ChainClient.Node.Query

/-!
# Programs of the client

What the client does is a program: it ends with a value, or performs an effect
and goes on with the answer. The effects are requests to the node, the lock that
guards the next nonce, and the passing of time under a cancellation flag. A
program says nothing of who answers; that is left to the world it runs in.
-/

namespace ChainClient

/-- What a program asks of the world around it. -/
inductive Effect where
  | request (query : Node.Query)
  /-- Wait for the lock on the next nonce, and see the nonce kept there. -/
  | acquire
  /-- Keep a nonce, or none, and release the lock. -/
  | release (next : Option UInt64)
  | isCancelled
  /-- Wait so many milliseconds, or until a cancellation; see whether there was one. -/
  | pause (milliseconds : Nat)

/-- What the world answers to an effect. -/
def Effect.Answer : Effect → Type
  | request _ => Node.Reply
  | acquire => Option UInt64
  | release _ => Unit
  | isCancelled => Bool
  | pause _ => Bool

/-- A program that ends with a value. -/
inductive Program (α : Type) where
  | done (value : α)
  | perform (effect : Effect) (resume : effect.Answer → Program α)

namespace Program

def bind {α β : Type} : Program α → (α → Program β) → Program β
  | done value, next => next value
  | perform effect resume, next => perform effect fun answer => (resume answer).bind next

instance : Monad Program where
  pure := done
  bind := bind

/-- A program that performs one effect and ends with the answer. -/
def ask (effect : Effect) : Program effect.Answer :=
  perform effect done

@[simp] theorem pure_eq_done {α : Type} (value : α) : (pure value : Program α) = done value := rfl

@[simp] theorem done_bind {α β : Type} (value : α) (next : α → Program β) :
    (done value >>= next) = next value := rfl

@[simp] theorem perform_bind {α β : Type} (effect : Effect)
    (resume : effect.Answer → Program α) (next : α → Program β) :
    (perform effect resume >>= next) = perform effect fun answer => resume answer >>= next := rfl

/-- A program that goes on with nothing is that program. -/
theorem bind_done {α : Type} (program : Program α) : (program >>= done) = program := by
  induction program with
  | done value => rfl
  | perform effect resume ih => simp [ih]

/-- It does not matter how three programs in a row are put together. -/
theorem bind_assoc {α β γ : Type} (program : Program α) (next : α → Program β)
    (last : β → Program γ) :
    (program >>= next) >>= last = program >>= fun value => next value >>= last := by
  induction program with
  | done value => rfl
  | perform effect resume ih => simp [ih]

instance : LawfulMonad Program :=
  LawfulMonad.mk' Program (fun program => bind_done program) (fun _ _ => rfl) bind_assoc

end Program

abbrev Operation (α : Type) := ExceptT ClientError Program α

namespace Operation

def ask (effect : Effect) : Operation effect.Answer :=
  ExceptT.lift (Program.ask effect)

def request (query : Node.Query) : Operation Node.Reply :=
  ask (.request query)

/-- Wait for the lock on the next nonce, and see the nonce kept there. -/
def acquire : Operation (Option UInt64) :=
  ask .acquire

def release (next : Option UInt64) : Operation Unit :=
  ask (.release next)

def isCancelled : Operation Bool :=
  ask .isCancelled

/-- Wait so many milliseconds; see whether a cancellation ended the wait. -/
def pause (milliseconds : Nat) : Operation Bool :=
  ask (.pause milliseconds)

def fail {α : Type} (error : ClientError) : Operation α :=
  ExceptT.mk (Program.done (.error error))

def settle {α : Type} (result : Except ClientError α) : Operation α :=
  ExceptT.mk (Program.done result)

def attempt {α : Type} (operation : Operation α) : Operation (Except ClientError α) :=
  ExceptT.lift operation.run

end Operation

end ChainClient
