import ChainClient.Manager.Program
import ChainClient.Scenario.Switch

/-!
# Runs

A scenario is what surrounds a program: a node in some state, a clock, the nonce
that is kept, and the cancellation switch. In a scenario a program has exactly
one run, which ends with a value and leaves a history of everything the program
did and was answered.
-/

namespace ChainClient

open Node

namespace Scenario

/-- How a node responds to a request. -/
structure Response (σ : Type) where
  reply : Reply
  duration : Nat
  node : σ

abbrev Responder (σ : Type) := σ → Query → Response σ

end Scenario

/-- What surrounds a program. -/
structure Scenario (σ : Type) where
  node : σ
  clock : Nat
  kept : Option UInt64
  switch : Scenario.Switch

namespace Scenario

variable {σ α β : Type}

/-- A scenario at the beginning of time, in which no nonce is kept. -/
def start (node : σ) (switch : Switch) : Scenario σ :=
  ⟨node, 0, none, switch⟩

/-- The answer to an effect, and the scenario afterwards. -/
def perform (respond : Responder σ) (scenario : Scenario σ) :
    (effect : Effect) → effect.Answer × Scenario σ
  | .request query =>
      let response := respond scenario.node query
      let finish := scenario.clock + response.duration
      (response.reply,
        { scenario with
          node := response.node
          clock := finish
          switch := scenario.switch.pass scenario.clock finish })
  | .acquire => (scenario.kept, scenario)
  | .release next => ((), { scenario with kept := next })
  | .isCancelled => (scenario.switch.cancelled, scenario)
  | .pause milliseconds =>
      let (finish, switch) :=
        scenario.switch.watch scenario.clock (scenario.clock + milliseconds)
      (switch.cancelled, { scenario with clock := finish, switch := switch })

/-- One effect of a program, when it was performed, and the answer to it. -/
structure Event where
  time : Nat
  effect : Effect
  answer : effect.Answer

/-- The request of an event, if it is one. -/
def Event.query? (event : Event) : Option Query :=
  match event.effect with
  | .request query => some query
  | _ => none

/-- What comes of a program in a scenario. -/
structure Run (σ α : Type) where
  value : α
  history : List Event
  scenario : Scenario σ

def Run.queries (run : Run σ α) : List Query :=
  run.history.filterMap Event.query?

def Run.after (history : List Event) (run : Run σ α) : Run σ α :=
  { run with history := history ++ run.history }

/-- The run of a program. -/
def run (respond : Responder σ) : Program α → Scenario σ → Run σ α
  | .done value, scenario => ⟨value, [], scenario⟩
  | .perform effect resume, scenario =>
      let (answer, next) := scenario.perform respond effect
      (run respond (resume answer) next).after [⟨scenario.clock, effect, answer⟩]

@[simp] theorem run_done (respond : Responder σ) (value : α) (scenario : Scenario σ) :
    run respond (.done value) scenario = ⟨value, [], scenario⟩ := rfl

@[simp] theorem run_perform (respond : Responder σ) (effect : Effect)
    (resume : effect.Answer → Program α) (scenario : Scenario σ) :
    run respond (.perform effect resume) scenario =
      (run respond (resume (scenario.perform respond effect).1)
        (scenario.perform respond effect).2).after
          [⟨scenario.clock, effect, (scenario.perform respond effect).1⟩] := rfl

/-- Running two programs in a row is running the second where the first has ended. -/
theorem run_bind (respond : Responder σ) (program : Program α) (next : α → Program β)
    (scenario : Scenario σ) :
    run respond (program >>= next) scenario =
      (run respond (next (run respond program scenario).value)
        (run respond program scenario).scenario).after (run respond program scenario).history := by
  induction program generalizing scenario with
  | done value => simp [Run.after]
  | perform effect resume ih => simp [ih, Run.after]

end Scenario

end ChainClient
