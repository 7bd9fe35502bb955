import ChainClient.Proofs.Manager.Counting
import Mathlib.Logic.Function.Basic

/-!
# Tasks that share a manager

Tasks run their programs in steps, in whatever order. They share the lock, the nonce that
is kept under it, and the node. A request is sent, then it may be delivered to the node,
then something comes back for it: what the node has answered, or a failure. Nothing is
delivered twice, and nothing once something has come back.
-/

namespace ChainClient

open Node Operation Scenario

/-- A task goes on with a program, or awaits what comes back for a request; if the request
has been delivered, the node has answered it. -/
inductive Task (α : Type) where
  | running (program : Program α)
  | awaiting (query : Query) (resume : Reply → Program α) (answer : Option Json)

/-- What a task does, or what happens to a request of it. -/
inductive Action where
  | acquire (kept : Option UInt64)
  | release (next : Option UInt64)
  | send (query : Query)
  | deliver (query : Query) (answer : Json)
  | receive (query : Query) (reply : Reply)
  | check (cancelled : Bool)
  | pause (milliseconds : Nat) (cancelled : Bool)

inductive Task.Step {α : Type} : Task α → Action → Task α → Prop where
  | acquire (resume : Option UInt64 → Program α) (kept : Option UInt64) :
      Step (.running (.perform .acquire resume)) (.acquire kept) (.running (resume kept))
  | release (resume : Unit → Program α) (next : Option UInt64) :
      Step (.running (.perform (.release next) resume)) (.release next) (.running (resume ()))
  | send (query : Query) (resume : Reply → Program α) :
      Step (.running (.perform (.request query) resume)) (.send query)
        (.awaiting query resume none)
  | deliver (query : Query) (resume : Reply → Program α) (answer : Json) :
      Step (.awaiting query resume none) (.deliver query answer)
        (.awaiting query resume (some answer))
  | receive (query : Query) (resume : Reply → Program α) (answer : Json) :
      Step (.awaiting query resume (some answer)) (.receive query (.ok answer))
        (.running (resume (.ok answer)))
  | lose (query : Query) (resume : Reply → Program α) (answer : Option Json)
      (error : TransportError) :
      Step (.awaiting query resume answer) (.receive query (.error error))
        (.running (resume (.error error)))
  | check (resume : Bool → Program α) (cancelled : Bool) :
      Step (.running (.perform .isCancelled resume)) (.check cancelled)
        (.running (resume cancelled))
  | pause (milliseconds : Nat) (resume : Bool → Program α) (cancelled : Bool) :
      Step (.running (.perform (.pause milliseconds) resume)) (.pause milliseconds cancelled)
        (.running (resume cancelled))

/-- What tasks share. -/
structure Shared (ι ν : Type) where
  /-- The task that has the lock. -/
  holder : Option ι
  kept : Option UInt64
  node : ν

/-- What an action of a task does to what it shares with the others. The lock is granted
while nobody has it; a delivered request is handled by the node, which answers it. -/
inductive Shared.Step {ι ν : Type} (handle : ν → Query → Json → ν → Prop) (i : ι) :
    Shared ι ν → Action → Shared ι ν → Prop where
  | acquire {shared : Shared ι ν} (hfree : shared.holder = none) :
      Step handle i shared (.acquire shared.kept) { shared with holder := some i }
  | release {shared : Shared ι ν} (next : Option UInt64) :
      Step handle i shared (.release next) { shared with holder := none, kept := next }
  | deliver {shared : Shared ι ν} {query : Query} {answer : Json} {node : ν}
      (hhandle : handle shared.node query answer node) :
      Step handle i shared (.deliver query answer) { shared with node := node }
  | send {shared : Shared ι ν} (query : Query) : Step handle i shared (.send query) shared
  | receive {shared : Shared ι ν} (query : Query) (reply : Reply) :
      Step handle i shared (.receive query reply) shared
  | check {shared : Shared ι ν} (cancelled : Bool) : Step handle i shared (.check cancelled) shared
  | pause {shared : Shared ι ν} (milliseconds : Nat) (cancelled : Bool) :
      Step handle i shared (.pause milliseconds cancelled) shared

structure System (ι : Type) (α : ι → Type) (ν : Type) where
  tasks : (i : ι) → Task (α i)
  shared : Shared ι ν

section Execution

variable {ι ν : Type} {α : ι → Type} [DecidableEq ι]

inductive System.Step (handle : ν → Query → Json → ν → Prop) :
    System ι α ν → ι × Action → System ι α ν → Prop where
  | intro {system : System ι α ν} {i : ι} {action : Action} {task : Task (α i)}
      {shared : Shared ι ν} (htask : (system.tasks i).Step action task)
      (hshared : system.shared.Step handle i action shared) :
      Step handle system (i, action) ⟨Function.update system.tasks i task, shared⟩

/-- Steps of a system, one after the other, and what they have done. -/
inductive Execution (handle : ν → Query → Json → ν → Prop) (start : System ι α ν) :
    List (ι × Action) → System ι α ν → Prop where
  | start : Execution handle start [] start
  | step {trace : List (ι × Action)} {move : ι × Action} {system next : System ι α ν}
      (hexecution : Execution handle start trace system) (hstep : system.Step handle move next) :
      Execution handle start (trace ++ [move]) next

end Execution

/-! ## The phases of a submission -/

inductive Phase where
  | waiting
  | asking (kept : Option UInt64)
  /-- The question is on its way; it may have been answered by the node. -/
  | asked (kept : Option UInt64) (answer : Option Json)
  | holding (nonce : UInt64) (next : Option UInt64)
  /-- The transaction is on its way; the node may have got it. -/
  | submitting (nonce : UInt64) (next : Option UInt64) (delivered : Bool)
  | leaving (next : Option UInt64)
  | watching

namespace Phase

/-- The task has the lock. -/
def Inside : Phase → Prop
  | waiting => False
  | watching => False
  | _ => True

/-- The task has got a nonce, and hands over a transaction with it if it can sign one. -/
inductive Takes (nonce : UInt64) (next : Option UInt64) : Phase → Prop where
  | signed : Takes nonce next (holding nonce next)
  | unsigned : Takes nonce next (leaving next)

end Phase

inductive Action.IsLook : Action → Prop where
  | send (chain : UInt64) (hash : String) : IsLook (.send (.receipt chain hash))
  | deliver (chain : UInt64) (hash : String) (answer : Json) :
      IsLook (.deliver (.receipt chain hash) answer)
  | receive (chain : UInt64) (hash : String) (reply : Reply) :
      IsLook (.receive (.receipt chain hash) reply)
  | check (cancelled : Bool) : IsLook (.check cancelled)
  | pause (milliseconds : Nat) (cancelled : Bool) : IsLook (.pause milliseconds cancelled)

/-- How an action takes a task from one phase to another. -/
inductive Phase.Advance (manager : Manager) : Phase → Action → Phase → Prop where
  | ask {kept : Option UInt64} (hasked : manager.counted? kept = none) :
      Advance manager .waiting (.acquire kept) (.asking kept)
  | count {kept next : Option UInt64} {nonce : UInt64} {phase : Phase}
      (hcounted : manager.counted? kept = some nonce)
      (hhanded : manager.handOut kept nonce = .ok (nonce, next))
      (htakes : phase.Takes nonce next) : Advance manager .waiting (.acquire kept) phase
  | exceed {kept : Option UInt64} {nonce : UInt64} {error : ClientError}
      (hcounted : manager.counted? kept = some nonce)
      (hlast : manager.handOut kept nonce = .error error) :
      Advance manager .waiting (.acquire kept) (.leaving kept)
  | question {kept : Option UInt64} :
      Advance manager (.asking kept) (.send manager.question) (.asked kept none)
  | answer {kept : Option UInt64} {answer : Json} :
      Advance manager (.asked kept none) (.deliver manager.question answer)
        (.asked kept (some answer))
  | learn {kept next : Option UInt64} {answer : Json} {nonce : UInt64} {phase : Phase}
      (hreported : nonceOf (.ok answer) = .ok nonce)
      (hhanded : manager.handOut kept nonce = .ok (nonce, next))
      (htakes : phase.Takes nonce next) :
      Advance manager (.asked kept (some answer)) (.receive manager.question (.ok answer)) phase
  | refuse {kept : Option UInt64} {answer : Option Json} {reply : Reply} {error : ClientError}
      (hrefused : (nonceOf reply).bind (manager.handOut kept) = .error error) :
      Advance manager (.asked kept answer) (.receive manager.question reply) (.leaving kept)
  | submit {next : Option UInt64} (signed : SignedTransaction) :
      Advance manager (.holding signed.transaction.nonce next) (.send (.submit signed))
        (.submitting signed.transaction.nonce next false)
  | arrive {next : Option UInt64} (signed : SignedTransaction) (answer : Json) :
      Advance manager (.submitting signed.transaction.nonce next false)
        (.deliver (.submit signed) answer) (.submitting signed.transaction.nonce next true)
  | close {next : Option UInt64} {delivered : Bool} (signed : SignedTransaction) (reply : Reply) :
      Advance manager (.submitting signed.transaction.nonce next delivered)
        (.receive (.submit signed) reply) (.leaving next)
  | release {next : Option UInt64} : Advance manager (.leaving next) (.release next) .watching
  | watch {action : Action} (hlook : action.IsLook) : Advance manager .watching action .watching

namespace Manager

variable {α : Type}

/-- The program only looks for receipts. -/
def Watches (manager : Manager) (program : Program α) : Prop :=
  program.Uses fun effect => ∃ hash, watches manager.chain hash effect

/-- The program releases the lock and then only looks for receipts. -/
inductive Leaves (manager : Manager) (next : Option UInt64) : Program α → Prop where
  | intro {resume : Unit → Program α} (hrest : manager.Watches (resume ())) :
      Leaves manager next (.perform (.release next) resume)

/-- The program has a nonce: it hands over a transaction with it, or leaves. -/
inductive Submits (manager : Manager) (nonce : UInt64) (next : Option UInt64) :
    Program α → Prop where
  | signed {signed : SignedTransaction} {resume : Reply → Program α}
      (hnonce : signed.transaction.nonce = nonce)
      (hleaves : ∀ reply, manager.Leaves next (resume reply)) :
      Submits manager nonce next (.perform (.request (.submit signed)) resume)
  | unsigned {program : Program α} (hleaves : manager.Leaves next program) :
      Submits manager nonce next program

/-- How the program goes on from a reservation: without a nonce it leaves. -/
inductive Proceeds (manager : Manager) (kept : Option UInt64) :
    Except ClientError (UInt64 × Option UInt64) → Program α → Prop where
  | submits {nonce : UInt64} {next : Option UInt64} {program : Program α}
      (hsubmits : manager.Submits nonce next program) :
      Proceeds manager kept (.ok (nonce, next)) program
  | leaves {error : ClientError} {program : Program α} (hleaves : manager.Leaves kept program) :
      Proceeds manager kept (.error error) program

/-- How the program goes on with an answer about the nonce. -/
def Learns (manager : Manager) (kept : Option UInt64) (resume : Reply → Program α) : Prop :=
  ∀ reply, manager.Proceeds kept ((nonceOf reply).bind (manager.handOut kept)) (resume reply)

inductive Asks (manager : Manager) (kept : Option UInt64) : Program α → Prop where
  | intro {resume : Reply → Program α} (hlearns : manager.Learns kept resume) :
      Asks manager kept (.perform (.request manager.question) resume)

inductive Starts (manager : Manager) : Program α → Prop where
  | intro {resume : Option UInt64 → Program α}
      (hresume : ∀ kept, match manager.counted? kept with
        | some nonce => manager.Proceeds kept (manager.handOut kept nonce) (resume kept)
        | none => manager.Asks kept (resume kept)) :
      Starts manager (.perform .acquire resume)

end Manager

inductive Phase.Follows {α : Type} (manager : Manager) : Phase → Task α → Prop where
  | waiting {program : Program α} (hstarts : manager.Starts program) :
      Follows manager .waiting (.running program)
  | asking {kept : Option UInt64} {program : Program α} (hasks : manager.Asks kept program) :
      Follows manager (.asking kept) (.running program)
  | asked {kept : Option UInt64} {answer : Option Json} {resume : Reply → Program α}
      (hlearns : manager.Learns kept resume) :
      Follows manager (.asked kept answer) (.awaiting manager.question resume answer)
  | holding {next : Option UInt64} {signed : SignedTransaction} {resume : Reply → Program α}
      (hleaves : ∀ reply, manager.Leaves next (resume reply)) :
      Follows manager (.holding signed.transaction.nonce next)
        (.running (.perform (.request (.submit signed)) resume))
  | submitting {next : Option UInt64} {signed : SignedTransaction} {resume : Reply → Program α}
      {answer : Option Json} (hleaves : ∀ reply, manager.Leaves next (resume reply)) :
      Follows manager (.submitting signed.transaction.nonce next answer.isSome)
        (.awaiting (.submit signed) resume answer)
  | leaving {next : Option UInt64} {program : Program α} (hleaves : manager.Leaves next program) :
      Follows manager (.leaving next) (.running program)
  | watching {program : Program α} (hwatches : manager.Watches program) :
      Follows manager .watching (.running program)
  | looking {chain : UInt64} {hash : String} {resume : Reply → Program α} {answer : Option Json}
      (hwatches : ∀ reply, manager.Watches (resume reply)) :
      Follows manager .watching (.awaiting (.receipt chain hash) resume answer)

namespace Phase

variable {α : Type} {manager : Manager}

theorem exists_takes {nonce : UInt64} {next : Option UInt64} {program : Program α}
    (hsubmits : manager.Submits nonce next program) :
    ∃ phase : Phase, phase.Takes nonce next ∧ phase.Follows manager (.running program) := by
  cases hsubmits with
  | signed hnonce hleaves =>
      subst hnonce
      exact ⟨_, .signed, .holding hleaves⟩
  | unsigned hleaves => exact ⟨_, .unsigned, .leaving hleaves⟩

/-- Whatever a task does, it keeps to the phases. -/
theorem Follows.step {phase : Phase} {task next : Task α} {action : Action}
    (hfollows : phase.Follows manager task) (hstep : task.Step action next) :
    ∃ later : Phase, phase.Advance manager action later ∧ later.Follows manager next := by
  cases hfollows with
  | waiting hstarts =>
      cases hstarts with
      | intro hresume =>
          cases hstep with
          | acquire resume kept =>
              have hkept := hresume kept
              cases hcounted : manager.counted? kept with
              | none =>
                  rw [hcounted] at hkept
                  exact ⟨_, .ask hcounted, .asking hkept⟩
              | some nonce =>
                  rw [hcounted] at hkept
                  dsimp only at hkept
                  cases hhanded : manager.handOut kept nonce with
                  | ok reserved =>
                      rw [hhanded] at hkept
                      obtain rfl := Manager.nonce_of_handOut hhanded
                      cases hkept with
                      | submits hsubmits =>
                          obtain ⟨later, htakes, hlater⟩ := exists_takes hsubmits
                          exact ⟨later, .count hcounted hhanded htakes, hlater⟩
                  | error error =>
                      rw [hhanded] at hkept
                      cases hkept with
                      | leaves hleaves => exact ⟨_, .exceed hcounted hhanded, .leaving hleaves⟩
  | asking hasks =>
      cases hasks with
      | intro hlearns =>
          cases hstep with
          | send query resume => exact ⟨_, .question, .asked hlearns⟩
  | asked hlearns =>
      cases hstep with
      | deliver query resume answer => exact ⟨_, .answer, .asked hlearns⟩
      | receive query resume answer =>
          have hreply := hlearns (.ok answer)
          cases hresult : (nonceOf (.ok answer)).bind (manager.handOut _) with
          | ok reserved =>
              rw [hresult] at hreply
              obtain ⟨nonce, hreported, hhanded⟩ := Manager.exists_of_bind_handOut hresult
              obtain rfl := Manager.nonce_of_handOut hhanded
              cases hreply with
              | submits hsubmits =>
                  obtain ⟨later, htakes, hlater⟩ := exists_takes hsubmits
                  exact ⟨later, .learn hreported hhanded htakes, hlater⟩
          | error error =>
              rw [hresult] at hreply
              cases hreply with
              | leaves hleaves => exact ⟨_, .refuse hresult, .leaving hleaves⟩
      | lose query resume answer error =>
          cases hlearns (.error error) with
          | leaves hleaves => exact ⟨_, .refuse rfl, .leaving hleaves⟩
  | holding hleaves =>
      cases hstep with
      | send query resume => exact ⟨_, .submit _, @Follows.submitting _ _ _ _ _ none hleaves⟩
  | submitting hleaves =>
      cases hstep with
      | deliver query resume answer =>
          exact ⟨_, .arrive _ answer, @Follows.submitting _ _ _ _ _ (some answer) hleaves⟩
      | receive query resume answer => exact ⟨_, .close _ _, .leaving (hleaves (.ok answer))⟩
      | lose query resume answer error => exact ⟨_, .close _ _, .leaving (hleaves (.error error))⟩
  | leaving hleaves =>
      cases hleaves with
      | intro hrest =>
          cases hstep with
          | release resume next => exact ⟨_, .release, .watching hrest⟩
  | watching hwatches =>
      cases hstep with
      -- Whoever watches has no use for the lock any more.
      | acquire resume kept =>
          obtain ⟨⟨hash, hfalse⟩, -⟩ := hwatches
          exact hfalse.elim
      | release resume next =>
          obtain ⟨⟨hash, hfalse⟩, -⟩ := hwatches
          exact hfalse.elim
      | send query resume =>
          obtain ⟨⟨hash, rfl⟩, hrest⟩ := hwatches
          exact ⟨_, .watch (.send _ _), .looking hrest⟩
      | check resume cancelled => exact ⟨_, .watch (.check _), .watching (hwatches.2 cancelled)⟩
      | pause milliseconds resume cancelled =>
          exact ⟨_, .watch (.pause _ _), .watching (hwatches.2 cancelled)⟩
  | looking hwatches =>
      cases hstep with
      | deliver query resume answer => exact ⟨_, .watch (.deliver _ _ _), .looking hwatches⟩
      | receive query resume answer =>
          exact ⟨_, .watch (.receive _ _ _), .watching (hwatches (.ok answer))⟩
      | lose query resume answer error =>
          exact ⟨_, .watch (.receive _ _ _), .watching (hwatches (.error error))⟩

end Phase

/-! ## Submissions keep to the phases -/

def Call.Submits : Call → Prop
  | send _ | execute _ => True
  | nextNonce | resetNonce => False

section Start

variable {α : Type} {manager : Manager}

theorem proceeds_proceed {next : UInt64 × Option UInt64 → Operation α}
    (hnext : ∀ nonce kept, manager.Submits nonce kept (next (nonce, kept)).run)
    (kept : Option UInt64) (result : Except ClientError (UInt64 × Option UInt64)) :
    manager.Proceeds kept result (Manager.proceed kept next result) := by
  cases result with
  | ok reserved => exact .submits (hnext _ _)
  | error error => exact .leaves (.intro trivial)

theorem starts_reserve_bind {next : UInt64 × Option UInt64 → Operation α}
    (hnext : ∀ nonce kept, manager.Submits nonce kept (next (nonce, kept)).run) :
    manager.Starts (manager.reserve >>= next).run := by
  rw [Manager.run_reserve_bind]
  refine .intro fun kept => ?_
  cases manager.counted? kept with
  | some nonce => exact proceeds_proceed hnext kept _
  | none => exact .intro fun reply => proceeds_proceed hnext kept _

theorem submits_signAndSend (request : Request) (nonce : UInt64) (kept : Option UInt64)
    {rest : Except ClientError String → Operation α}
    (hrest : ∀ result, manager.Watches (rest result).run) :
    manager.Submits nonce kept (do
      let result ← attempt (manager.signAndSend (manager.build request nonce))
      release kept
      rest result).run := by
  rw [run_attempt_bind, Manager.run_signAndSend]
  simp only [run_release_bind]
  cases hsigned : (manager.build request nonce).sign manager.keys with
  | error error => exact .unsigned (.intro (hrest _))
  | ok signed =>
      refine .signed ?_ fun reply => .intro (hrest _)
      rw [(Transaction.eq_of_sign hsigned).1]
      rfl

theorem starts_call {call : Call} (hsubmits : call.Submits) :
    manager.Starts (call.operation manager).run := by
  cases call with
  | nextNonce => exact hsubmits.elim
  | resetNonce => exact hsubmits.elim
  | send request =>
      change manager.Starts (manager.withNonce _).run
      rw [Manager.withNonce_eq_reserve]
      exact starts_reserve_bind fun nonce kept =>
        submits_signAndSend request nonce kept fun _ => trivial
  | execute request =>
      change manager.Starts (manager.withNonce _ >>= fun hash =>
        manager.waitForReceipt hash >>= Manager.confirm hash).run
      rw [Manager.withNonce_eq_reserve, bind_assoc]
      refine starts_reserve_bind fun nonce kept => ?_
      simp only [bind_assoc]
      refine submits_signAndSend request nonce kept fun result => ?_
      cases result with
      | error error => exact trivial
      | ok hash => exact (Manager.uses_waitForReceipt_bind hash).mono fun _ h => ⟨hash, h⟩

end Start

section Execution

variable {ι ν : Type} [DecidableEq ι]

/-- Before the first step of calls of one manager. -/
def System.start (manager : Manager) (calls : ι → Call) (kept : Option UInt64) (node : ν) :
    System ι (fun i => Except ClientError (calls i).Answer) ν :=
  ⟨fun i => .running ((calls i).operation manager).run, ⟨none, kept, node⟩⟩

/-- What holds at the start and is kept by every step holds in every execution. -/
theorem Execution.invariant {manager : Manager} {calls : ι → Call} {kept : Option UInt64}
    {node : ν} {handle : ν → Query → Json → ν → Prop} {trace : List (ι × Action)}
    {system : System ι (fun i => Except ClientError (calls i).Answer) ν}
    (Invariant : (ι → Phase) → Shared ι ν → List (ι × Action) → Prop)
    (hsubmits : ∀ i, (calls i).Submits)
    (hexecution : Execution handle (System.start manager calls kept node) trace system)
    (hstart : Invariant (fun _ => .waiting) ⟨none, kept, node⟩ [])
    (hstep : ∀ {phases shared trace i action later next}, Invariant phases shared trace →
      (phases i).Advance manager action later → shared.Step handle i action next →
        Invariant (Function.update phases i later) next (trace ++ [(i, action)])) :
    ∃ phases : ι → Phase, (∀ i, (phases i).Follows manager (system.tasks i)) ∧
      Invariant phases system.shared trace := by
  induction hexecution with
  | start => exact ⟨_, fun i => .waiting (starts_call (hsubmits i)), hstart⟩
  | step hexecution hmove ih =>
      obtain ⟨phases, hfollows, hinvariant⟩ := ih
      cases hmove with
      | @intro i action task shared htask hshared =>
          obtain ⟨later, hadvance, hlater⟩ := (hfollows i).step htask
          refine ⟨Function.update phases i later, fun j => ?_, hstep hinvariant hadvance hshared⟩
          by_cases hj : j = i
          · subst hj
            simpa only [Function.update_self] using hlater
          · simpa only [Function.update_of_ne hj] using hfollows j

end Execution

/-! ## A task that is left alone -/

/-- A node that answers every request, as a relation. -/
def Scenario.Responder.Handles {ν : Type} (respond : Responder ν) (node : ν) (query : Query)
    (answer : Json) (next : ν) : Prop :=
  (respond node query).reply = .ok answer ∧ (respond node query).node = next

namespace Program

variable {α : Type}

/-- The program takes the lock only while it does not have it, and releases it before it
ends. -/
def Brackets : (held : Bool) → Program α → Prop
  | held, done _ => held = false
  | held, perform .acquire resume => held = false ∧ ∀ kept, (resume kept).Brackets true
  | held, perform (.release _) resume => held = true ∧ (resume ()).Brackets false
  | held, perform (.request _) resume => ∀ reply, (resume reply).Brackets held
  | held, perform .isCancelled resume => ∀ cancelled, (resume cancelled).Brackets held
  | held, perform (.pause _) resume => ∀ cancelled, (resume cancelled).Brackets held

theorem brackets_of_uses {chain : UInt64} {program : Program α}
    (hwatches : program.Uses fun effect => ∃ hash, watches chain hash effect) :
    program.Brackets false := by
  induction program with
  | done value => rfl
  | perform effect resume ih =>
      obtain ⟨⟨hash, heffect⟩, hrest⟩ := hwatches
      cases effect with
      | acquire | release => exact heffect.elim
      | request query => exact fun reply => ih reply (hrest reply)
      | isCancelled => exact fun cancelled => ih cancelled (hrest cancelled)
      | pause milliseconds => exact fun cancelled => ih cancelled (hrest cancelled)

end Program

namespace Manager

variable {α : Type} {manager : Manager} {program : Program α}

theorem Leaves.brackets {next : Option UInt64} (hleaves : manager.Leaves next program) :
    program.Brackets true := by
  cases hleaves with
  | intro hrest => exact ⟨rfl, Program.brackets_of_uses hrest⟩

theorem Submits.brackets {nonce : UInt64} {next : Option UInt64}
    (hsubmits : manager.Submits nonce next program) : program.Brackets true := by
  cases hsubmits with
  | signed hnonce hleaves => exact fun reply => (hleaves reply).brackets
  | unsigned hleaves => exact hleaves.brackets

theorem Proceeds.brackets {kept : Option UInt64}
    {result : Except ClientError (UInt64 × Option UInt64)}
    (hproceeds : manager.Proceeds kept result program) : program.Brackets true := by
  cases hproceeds with
  | submits hsubmits => exact hsubmits.brackets
  | leaves hleaves => exact hleaves.brackets

theorem Starts.brackets (hstarts : manager.Starts program) : program.Brackets false := by
  cases hstarts with
  | @intro resume hresume =>
      refine ⟨rfl, fun kept => ?_⟩
      have hkept := hresume kept
      cases hcounted : manager.counted? kept with
      | some nonce =>
          rw [hcounted] at hkept
          exact Proceeds.brackets hkept
      | none =>
          rw [hcounted] at hkept
          generalize resume kept = program at hkept
          cases hkept with
          | intro hlearns => exact fun reply => (hlearns reply).brackets

end Manager

section Alone

variable {ι ν : Type} {α : ι → Type} [DecidableEq ι] {handle : ν → Query → Json → ν → Prop}
  {start system : System ι α ν} {trace : List (ι × Action)} {i : ι}

/-- The execution can go on so that one task does all the steps, and ends up there. -/
def CanReach (handle : ν → Query → Json → ν → Prop) (start system : System ι α ν)
    (trace : List (ι × Action)) (i : ι) (reached : Task (α i) → Shared ι ν → Prop) : Prop :=
  ∃ actions later, Execution handle start (trace ++ List.map (Prod.mk i) actions) later ∧
    reached (later.tasks i) later.shared ∧ ∀ j ≠ i, later.tasks j = system.tasks j

theorem CanReach.of_reached {reached : Task (α i) → Shared ι ν → Prop}
    (hexecution : Execution handle start trace system)
    (hreached : reached (system.tasks i) system.shared) :
    CanReach handle start system trace i reached :=
  ⟨[], system, by simpa using hexecution, hreached, fun _ _ => rfl⟩

theorem CanReach.step {action : Action} {task next : Task (α i)} {shared : Shared ι ν}
    {reached : Task (α i) → Shared ι ν → Prop} (hexecution : Execution handle start trace system)
    (htask : system.tasks i = task) (hstep : task.Step action next)
    (hshared : system.shared.Step handle i action shared)
    (hrest : ∀ later : System ι α ν, later.tasks i = next → later.shared = shared →
      Execution handle start (trace ++ [(i, action)]) later →
        CanReach handle start later (trace ++ [(i, action)]) i reached) :
    CanReach handle start system trace i reached := by
  subst htask
  obtain ⟨actions, later, hlater, hreached, hothers⟩ :=
    hrest ⟨Function.update system.tasks i next, shared⟩ (Function.update_self _ _ _) rfl
      (.step hexecution (.intro hstep hshared))
  exact ⟨action :: actions, later, by simpa using hlater, hreached, fun j hj =>
    (hothers j hj).trans (Function.update_of_ne hj _ _)⟩

/-- The task has done what its program does in the scenario, and has left the lock. -/
def HasRun (respond : Responder ν) {β : Type} (program : Program β) (scenario : Scenario ν)
    (task : Task β) (shared : Shared ι ν) : Prop :=
  let run := run respond program scenario
  task = .running (.done run.value) ∧ shared = ⟨none, run.scenario.kept, run.scenario.node⟩

/-- A task that is left alone with a node that answers every request does what its program
does in a run. -/
theorem canReach_hasRun {respond : Responder ν} {program : Program (α i)} {held : Bool}
    (hanswers : ∀ node query, ∃ answer, (respond node query).reply = .ok answer)
    (hexecution : Execution respond.Handles start trace system)
    (htask : system.tasks i = .running program) (hbrackets : program.Brackets held)
    (scenario : Scenario ν)
    (hshared : system.shared = ⟨if held then some i else none, scenario.kept, scenario.node⟩) :
    CanReach respond.Handles start system trace i (HasRun respond program scenario) := by
  -- by induction on the program: the task holds the lock where the brackets say so
  induction program generalizing held system trace scenario with
  | done value =>
      obtain rfl : held = false := hbrackets
      exact .of_reached hexecution ⟨htask, hshared⟩
  | perform effect resume ih =>
      cases effect with
      | request query =>
          -- three steps: the request, its delivery to the node, and the answer
          obtain ⟨answer, hanswer⟩ := hanswers scenario.node query
          refine .step hexecution htask (.send query resume) (.send query) ?_
          intro sent htask hsent hexecution
          have hhandles : respond.Handles sent.shared.node query answer
              (respond scenario.node query).node := by
            rw [hsent, hshared]
            exact ⟨hanswer, rfl⟩
          refine .step hexecution htask (.deliver query resume answer) (.deliver hhandles) ?_
          intro delivered htask hdelivered hexecution
          refine .step hexecution htask (.receive query resume answer)
            (.receive query (.ok answer)) ?_
          intro received htask hreceived hexecution
          change CanReach _ _ _ _ _ (HasRun respond (resume (respond scenario.node query).reply)
            (scenario.asked respond query))
          rw [hanswer]
          refine ih (.ok answer) hexecution htask (hbrackets _) _ ?_
          rw [hreceived, hdelivered, hsent, hshared]
          rfl
      | acquire =>
          obtain ⟨rfl, hrest⟩ := hbrackets
          have hkept : system.shared.kept = scenario.kept := by rw [hshared]
          refine .step hexecution htask (.acquire resume system.shared.kept)
            (.acquire (by rw [hshared]; rfl)) ?_
          intro later htask hlater hexecution
          rw [hkept] at htask
          refine ih scenario.kept hexecution htask (hrest _) scenario ?_
          rw [hlater, hshared]
          rfl
      | release next =>
          obtain ⟨rfl, hrest⟩ := hbrackets
          refine .step hexecution htask (.release resume next) (.release next) ?_
          intro later htask hlater hexecution
          refine ih () hexecution htask hrest { scenario with kept := next } ?_
          rw [hlater, hshared]
          rfl
      | isCancelled =>
          refine .step hexecution htask (.check resume scenario.switch.cancelled) (.check _) ?_
          intro later htask hlater hexecution
          exact ih _ hexecution htask (hbrackets _) scenario (hlater.trans hshared)
      | pause milliseconds =>
          refine .step hexecution htask (.pause milliseconds resume
            (scenario.paused respond milliseconds).switch.cancelled) (.pause _ _) ?_
          intro later htask hlater hexecution
          exact ih _ hexecution htask (hbrackets _) (scenario.paused respond milliseconds)
            (hlater.trans hshared)

end Alone

end ChainClient
