import ChainClient.Manager.Program
import ChainClient.Scenario.Run
import Mathlib.Algebra.Ring.Nat

/-!
# Programs effect by effect

An operation that starts with an effect performs it and goes on with the answer, so
that an operation can be unfolded into the effects it performs one after the other.
What no effect of a program may do, no run of it does, and where a program cannot end, no
run of it ends.
-/

namespace ChainClient

open Node

variable {σ α β : Type}

namespace Operation

theorem run_ask_bind (effect : Effect) (next : effect.Answer → Operation α) :
    (ask effect >>= next).run = .perform effect fun answer => (next answer).run := by
  rw [ask, ExceptT.run_bind_lift]
  rfl

theorem run_request_bind (query : Query) (next : Reply → Operation α) :
    (request query >>= next).run = .perform (.request query) fun reply => (next reply).run :=
  run_ask_bind (.request query) next

theorem run_acquire_bind (next : Option UInt64 → Operation α) :
    (acquire >>= next).run = .perform .acquire fun kept => (next kept).run :=
  run_ask_bind .acquire next

theorem run_release_bind (kept : Option UInt64) (next : Unit → Operation α) :
    (release kept >>= next).run = .perform (.release kept) fun _ => (next ()).run :=
  run_ask_bind (.release kept) next

theorem run_isCancelled_bind (next : Bool → Operation α) :
    (isCancelled >>= next).run = .perform .isCancelled fun cancelled => (next cancelled).run :=
  run_ask_bind .isCancelled next

theorem run_pause_bind (milliseconds : Nat) (next : Bool → Operation α) :
    (pause milliseconds >>= next).run =
      .perform (.pause milliseconds) fun cancelled => (next cancelled).run :=
  run_ask_bind (.pause milliseconds) next

theorem run_attempt_bind (operation : Operation α) (next : Except ClientError α → Operation β) :
    (attempt operation >>= next).run = operation.run >>= fun result => (next result).run := by
  rw [attempt, ExceptT.run_bind_lift]

/-- At this end of an operation the program stops; nothing is reported to the caller. -/
def stops : Except ClientError α → Bool
  | .ok _ => false
  | .error error => error.stops

end Operation

namespace Program

/-- Every effect that the program may come to perform is allowed. -/
def Uses (allowed : Effect → Prop) : Program α → Prop
  | done _ => True
  | perform effect resume => allowed effect ∧ ∀ answer, (resume answer).Uses allowed

theorem Uses.bind {allowed : Effect → Prop} {program : Program α} {next : α → Program β}
    (hprogram : program.Uses allowed) (hnext : ∀ value, (next value).Uses allowed) :
    (program >>= next).Uses allowed := by
  induction program with
  | done value => exact hnext value
  | perform effect resume ih => exact ⟨hprogram.1, fun answer => ih answer (hprogram.2 answer)⟩

theorem Uses.mono {allowed permitted : Effect → Prop} {program : Program α}
    (hprogram : program.Uses allowed) (hallowed : ∀ effect, allowed effect → permitted effect) :
    program.Uses permitted := by
  induction program with
  | done value => trivial
  | perform effect resume ih =>
      exact ⟨hallowed effect hprogram.1, fun answer => ih answer (hprogram.2 answer)⟩

/-- Every value that the program may come to end with is allowed. -/
def Ends (allowed : α → Prop) : Program α → Prop
  | done value => allowed value
  | perform _ resume => ∀ answer, (resume answer).Ends allowed

theorem Ends.bind {allowed : α → Prop} {permitted : β → Prop} {program : Program α}
    {next : α → Program β} (hprogram : program.Ends allowed)
    (hnext : ∀ value, allowed value → (next value).Ends permitted) :
    (program >>= next).Ends permitted := by
  induction program with
  | done value => exact hnext value hprogram
  | perform effect resume ih => exact fun answer => ih answer (hprogram answer)

end Program

namespace Scenario

variable {respond : Responder σ}

/-- A request and what came back for it, if the event is one. -/
def Event.exchange? (event : Event) : Option (Query × Reply) :=
  match event with
  | ⟨_, .request query, reply⟩ => some (query, reply)
  | _ => none

/-- The length of a pause, if the event is one. -/
def Event.pause? (event : Event) : Option Nat :=
  match event.effect with
  | .pause milliseconds => some milliseconds
  | _ => none

def Run.pauses (run : Run σ α) : List Nat :=
  run.history.filterMap Event.pause?

@[simp] theorem Run.value_after (history : List Event) (run : Run σ α) :
    (run.after history).value = run.value := rfl

@[simp] theorem Run.history_after (history : List Event) (run : Run σ α) :
    (run.after history).history = history ++ run.history := rfl

@[simp] theorem Run.scenario_after (history : List Event) (run : Run σ α) :
    (run.after history).scenario = run.scenario := rfl

@[simp] theorem Run.queries_after (history : List Event) (run : Run σ α) :
    (run.after history).queries = history.filterMap Event.query? ++ run.queries :=
  List.filterMap_append

@[simp] theorem Run.pauses_after (history : List Event) (run : Run σ α) :
    (run.after history).pauses = history.filterMap Event.pause? ++ run.pauses :=
  List.filterMap_append

/-! ## Runs, one effect at a time -/

/-- The scenario after a request. -/
def asked (respond : Responder σ) (query : Query) (scenario : Scenario σ) : Scenario σ :=
  (scenario.perform respond (.request query)).2

/-- The scenario after a pause. -/
def paused (respond : Responder σ) (milliseconds : Nat) (scenario : Scenario σ) : Scenario σ :=
  (scenario.perform respond (.pause milliseconds)).2

theorem run_request (query : Query) (resume : Reply → Program α) (scenario : Scenario σ) :
    run respond (.perform (.request query) resume) scenario =
      (run respond (resume (respond scenario.node query).reply)
        (scenario.asked respond query)).after
          [⟨scenario.clock, .request query, (respond scenario.node query).reply⟩] := rfl

theorem run_acquire (resume : Option UInt64 → Program α) (scenario : Scenario σ) :
    run respond (.perform .acquire resume) scenario =
      (run respond (resume scenario.kept) scenario).after
        [⟨scenario.clock, .acquire, scenario.kept⟩] := rfl

theorem run_isCancelled (resume : Bool → Program α) (scenario : Scenario σ) :
    run respond (.perform .isCancelled resume) scenario =
      (run respond (resume scenario.switch.cancelled) scenario).after
        [⟨scenario.clock, .isCancelled, scenario.switch.cancelled⟩] := rfl

theorem run_pause (milliseconds : Nat) (resume : Bool → Program α) (scenario : Scenario σ) :
    run respond (.perform (.pause milliseconds) resume) scenario =
      (run respond (resume (scenario.paused respond milliseconds).switch.cancelled)
        (scenario.paused respond milliseconds)).after
          [⟨scenario.clock, .pause milliseconds,
            (scenario.paused respond milliseconds).switch.cancelled⟩] := rfl

/-- Running two operations in a row is running the second where the first has
succeeded. -/
theorem run_operation_bind (operation : Operation α) (next : α → Operation β)
    (scenario : Scenario σ) :
    run respond (operation >>= next).run scenario =
      (match (run respond operation.run scenario).value with
        | .ok value => run respond (next value).run (run respond operation.run scenario).scenario
        | .error error => ⟨.error error, [], (run respond operation.run scenario).scenario⟩).after
        (run respond operation.run scenario).history := by
  rw [ExceptT.run_bind, run_bind]
  congr 1
  cases (run respond operation.run scenario).value <;> rfl

theorem allowed_of_mem_history {allowed : Effect → Prop} {program : Program α}
    (hprogram : program.Uses allowed) (scenario : Scenario σ) :
    ∀ event ∈ (run respond program scenario).history, allowed event.effect := by
  induction program generalizing scenario with
  | done value => simp
  | perform effect resume ih =>
      intro event hevent
      rw [run_perform, Run.history_after, List.singleton_append, List.mem_cons] at hevent
      rcases hevent with rfl | hevent
      · exact hprogram.1
      · exact ih _ (hprogram.2 _) _ event hevent

theorem value_run_of_ends {allowed : α → Prop} {program : Program α}
    (hprogram : program.Ends allowed) (scenario : Scenario σ) :
    allowed (run respond program scenario).value := by
  induction program generalizing scenario with
  | done value => exact hprogram
  | perform effect resume ih =>
      rw [run_perform, Run.value_after]
      exact ih _ (hprogram _) _

/-- A node that answers its requests from a list without end, whatever they are, each
after a delay of its own. It is in the state of having answered so many. -/
def recite (answers : Nat → Reply) (delays : Nat → Nat) : Responder Nat :=
  fun position _ => ⟨answers position, delays position, position + 1⟩

/-- The answer at a position is the answer to the request at this position. -/
theorem exchanges_run_recite (answers : Nat → Reply) (delays : Nat → Nat) (program : Program α)
    (scenario : Scenario Nat) :
    (run (recite answers delays) program scenario).history.filterMap Event.exchange? =
      (run (recite answers delays) program scenario).queries.mapIdx fun position query =>
        (query, answers (scenario.node + position)) := by
  induction program generalizing scenario with
  | done value => rfl
  | perform effect resume ih =>
      rw [run_perform, Run.queries_after, Run.history_after, List.filterMap_append, ih]
      cases effect with
      | request query =>
          change (query, answers scenario.node) :: _ = List.mapIdx _ (query :: _)
          rw [List.mapIdx_cons, Nat.add_zero]
          refine congrArg (List.cons _) (congrArg (List.mapIdx · _) (funext fun position => ?_))
          funext other
          rw [← Nat.add_assoc, Nat.add_right_comm]
          rfl
      | _ => rfl

/-- What no effect of a program changes, a run of it does not change. -/
theorem measure_run_of_uses (measure : Scenario σ → β) {allowed : Effect → Prop}
    {program : Program α} (hprogram : program.Uses allowed)
    (hallowed : ∀ effect, allowed effect →
      ∀ scenario, measure (perform respond scenario effect).2 = measure scenario)
    (scenario : Scenario σ) :
    measure (run respond program scenario).scenario = measure scenario := by
  induction program generalizing scenario with
  | done value => rfl
  | perform effect resume ih =>
      rw [run_perform, Run.scenario_after, ih _ (hprogram.2 _), hallowed effect hprogram.1]

/-- The kept nonce stays as it is until something is released. -/
theorem kept_run_of_uses {allowed : Effect → Prop} {program : Program α}
    (hprogram : program.Uses allowed) (hallowed : ∀ next, ¬ allowed (.release next))
    (scenario : Scenario σ) :
    (run respond program scenario).scenario.kept = scenario.kept := by
  apply measure_run_of_uses Scenario.kept hprogram
  intro effect heffect scenario
  cases effect with
  | release next => exact absurd heffect (hallowed next)
  | _ => rfl

end Scenario

end ChainClient
