import ChainClient.Proofs.Manager.Reservation
import ChainClient.Scenario.Script

/-!
# Counting nonces

A manager of the counting strategy asks the node for a nonce only while it knows none,
and counts from the nonce that the node reports until the count is reset. What becomes of
a nonce once it is taken makes no difference to the count. The last nonce is not handed
out, as there is none to keep behind it: the program stops there.
-/

namespace ChainClient

open Node Operation Scenario

variable {σ : Type}

/-- What a caller asks of a manager that touches its nonces. -/
inductive Call where
  | nextNonce
  | send (request : Request)
  | execute (request : Request)
  | resetNonce

namespace Call

abbrev Answer : Call → Type
  | nextNonce => UInt64
  | send _ => String
  | execute _ => Receipt
  | resetNonce => Unit

def operation (manager : Manager) : (call : Call) → Operation call.Answer
  | nextNonce => manager.nextNonce
  | send request => manager.send request
  | execute request => manager.execute request
  | resetNonce => Manager.resetNonce

def isReset : Call → Bool
  | resetNonce => true
  | _ => false

/-- The beginning of a call, in which it takes a nonce if it needs one. -/
def opening (manager : Manager) : Call → Operation (Option UInt64)
  | resetNonce => pure none
  | _ => manager.reserve >>= fun reserved => pure (some reserved.1)

/-- What a call makes of its nonce: it returns it, or gives it to a transaction that it
hands over if it can sign it. -/
def Spends (manager : Manager) (nonce : UInt64) :
    (call : Call) → Except ClientError call.Answer → List SignedTransaction → Prop
  | nextNonce, answer, submissions => answer = .ok nonce ∧ submissions = []
  | send request, _, submissions | execute request, _, submissions =>
      submissions = ((manager.build request nonce).sign manager.keys).toOption.toList
  | resetNonce, _, _ => False

end Call

/-- A call, and what has come of it. -/
structure Turn where
  call : Call
  answer : Except ClientError call.Answer
  history : List Event
  /-- The nonce that the call has taken. -/
  nonce? : Option UInt64
  /-- After how many effects it had a nonce, or had none to be had. -/
  delay : Nat
  /-- The nonce that is kept after the call. -/
  kept : Option UInt64

/-- What is seen of a session: effects, and nonces that are handed out. -/
inductive Moment where
  | seen (event : Event)
  | handOut (nonce : UInt64)

namespace Moment

def report? : Moment → Option (Except ClientError UInt64)
  | seen event => event.report?
  | handOut _ => none

def nonce? : Moment → Option UInt64
  | seen _ => none
  | handOut nonce => some nonce

end Moment

namespace Turn

def isReset (turn : Turn) : Bool :=
  turn.call.isReset

def opening (turn : Turn) : List Event :=
  turn.history.take turn.delay

def closing (turn : Turn) : List Event :=
  turn.history.drop turn.delay

def moments (turn : Turn) : List Moment :=
  turn.opening.map .seen ++ (turn.nonce?.toList.map .handOut ++ turn.closing.map .seen)

/-- What the node has reported of the account's nonce. -/
def reports (turn : Turn) : List (Except ClientError UInt64) :=
  turn.history.filterMap Event.report?

def submissions (turn : Turn) : List SignedTransaction :=
  turn.history.filterMap Event.submission?

/-- The program stops at the call. -/
def stops (turn : Turn) : Bool :=
  Operation.stops turn.answer

/-- The node was asked for a nonce and reported none. -/
def IsRefused (turn : Turn) : Prop :=
  ∃ error, .error error ∈ turn.reports

end Turn

namespace Manager

/-- A call in a scenario. -/
def turn (manager : Manager) (respond : Responder σ) (scenario : Scenario σ) (call : Call) : Turn :=
  let run := run respond (call.operation manager).run scenario
  let opening := Scenario.run respond (call.opening manager).run scenario
  { call := call
    answer := run.value
    history := run.history
    nonce? := opening.value.toOption.join
    delay := opening.history.length
    kept := run.scenario.kept }

/-- Calls one after the other, until the program stops. -/
def turns (manager : Manager) (respond : Responder σ) : List Call → Scenario σ → List Turn
  | [], _ => []
  | call :: calls, scenario =>
      let turn := manager.turn respond scenario call
      turn :: if turn.stops then [] else
        turns manager respond calls (run respond (call.operation manager).run scenario).scenario

variable {manager : Manager} {respond : Responder σ} {call : Call} {scenario : Scenario σ}

theorem stops_turn : (manager.turn respond scenario call).stops =
    Operation.stops (run respond (call.operation manager).run scenario).value := rfl

theorem history_turn : (manager.turn respond scenario call).history =
    (run respond (call.operation manager).run scenario).history := rfl

theorem turns_cons (hlasts : (manager.turn respond scenario call).stops = false)
    (calls : List Call) :
    manager.turns respond (call :: calls) scenario = manager.turn respond scenario call ::
      manager.turns respond calls (run respond (call.operation manager).run scenario).scenario := by
  rw [turns, hlasts]
  rfl

theorem turns_cons_of_run {value : Except ClientError call.Answer} {events : List Event}
    {after : Scenario σ}
    (hrun : run respond (call.operation manager).run scenario = ⟨value, events, after⟩)
    (hlasts : Operation.stops value = false) (calls : List Call) :
    manager.turns respond (call :: calls) scenario =
      manager.turn respond scenario call :: manager.turns respond calls after := by
  have hturn : (manager.turn respond scenario call).stops = false := by
    rw [stops_turn, hrun]
    exact hlasts
  rw [turns_cons hturn, hrun]

theorem turns_cons_of_stops (hstops : (manager.turn respond scenario call).stops = true)
    (calls : List Call) :
    manager.turns respond (call :: calls) scenario = [manager.turn respond scenario call] := by
  rw [turns, hstops]
  rfl

end Manager

/-- How calls without a reset between them come by their nonces. -/
structure IsCounted (manager : Manager) (turns : List Turn) : Prop where
  reported_once : ((turns.flatMap Turn.reports).filterMap Except.toOption).length ≤ 1
  asked_first : (turns.flatMap Turn.moments).Pairwise fun earlier later =>
    earlier.nonce?.isSome → later.report? = none
  refused : ∀ turn ∈ turns, turn.IsRefused →
    turn.nonce? = none ∧ turn.submissions = [] ∧ turn.kept = none
  asked_again : ∀ before turn next after, turns = before ++ turn :: next :: after →
    turn.IsRefused → next.reports ≠ []
  counted : ∀ index nonce, (turns.filterMap Turn.nonce?)[index]? = some nonce →
    ∃ first, (turns.flatMap Turn.reports).filterMap Except.toOption = [first] ∧
      nonce.toNat = first.toNat + index
  spent : ∀ turn ∈ turns, ∀ nonce, turn.nonce? = some nonce →
    turn.call.Spends manager nonce turn.answer turn.submissions
  unspent : ∀ turn ∈ turns, turn.nonce? = none →
    (turn.IsRefused ∨ turn.stops = true) ∧ ∃ error, turn.answer = .error error
  /-- The program stops only where the last nonce would be handed out. -/
  stopped : ∀ before turn after, turns = before ++ turn :: after → turn.stops = true →
    after = [] ∧ ∃ first, (turns.flatMap Turn.reports).filterMap Except.toOption = [first] ∧
      first.toNat + (before.filterMap Turn.nonce?).length = 2 ^ 64 - 1
  carried : ∀ turn ∈ turns, ∀ signed ∈ turn.submissions,
    turn.nonce? = some signed.transaction.nonce

/-! ## One call -/

section Call

variable {respond : Responder σ} {manager : Manager} {scenario : Scenario σ} {call : Call}

theorem Call.opening_eq (hneeds : call.isReset = false) :
    call.opening manager = manager.reserve >>= fun reserved => pure (some reserved.1) := by
  cases call with
  | resetNonce => cases hneeds
  | _ => rfl

theorem run_opening_of_error {error : ClientError} (hneeds : call.isReset = false)
    (hreserved : (run respond manager.reserve.run scenario).value = .error error) :
    run respond (call.opening manager).run scenario =
      ⟨.error error, (run respond manager.reserve.run scenario).history,
        (run respond manager.reserve.run scenario).scenario⟩ := by
  rw [Call.opening_eq hneeds, run_operation_bind, hreserved]
  simp only [Run.after, List.append_nil]

theorem run_opening_of_ok {nonce : UInt64} {next : Option UInt64} (hneeds : call.isReset = false)
    (hreserved : (run respond manager.reserve.run scenario).value = .ok (nonce, next)) :
    run respond (call.opening manager).run scenario =
      ⟨.ok (some nonce), (run respond manager.reserve.run scenario).history,
        (run respond manager.reserve.run scenario).scenario⟩ := by
  rw [Call.opening_eq hneeds, run_operation_bind, hreserved]
  change Run.after _ ⟨_, [], _⟩ = _
  simp only [Run.after, List.append_nil]

theorem run_call_of_error {error : ClientError} (hneeds : call.isReset = false)
    (hreserved : (run respond manager.reserve.run scenario).value = .error error) :
    run respond (call.operation manager).run scenario =
      ⟨.error error, (run respond manager.reserve.run scenario).history,
        (run respond manager.reserve.run scenario).scenario⟩ := by
  cases call with
  | nextNonce => exact Manager.run_withNonce_of_error hreserved
  | send request => exact Manager.run_withNonce_of_error hreserved
  | execute request =>
      have hsend : run respond (manager.send request).run scenario = ⟨.error error, _, _⟩ :=
        Manager.run_withNonce_of_error hreserved
      have hexecute := Manager.run_execute_of_error (congrArg Run.value hsend)
      rw [hsend] at hexecute
      exact hexecute
  | resetNonce => cases hneeds

/-- A submission after its reservation: it hands over its transaction if it can sign it. -/
theorem run_send_of_ok {nonce : UInt64} {next : Option UInt64} (request : Request)
    (hreserved : (run respond manager.reserve.run scenario).value = .ok (nonce, next)) :
    ∃ closing, (run respond (manager.send request).run scenario).history =
        (run respond manager.reserve.run scenario).history ++ closing ∧
      (run respond (manager.send request).run scenario).scenario.kept = next ∧
      closing.filterMap Event.report? = [] ∧
      closing.filterMap Event.submission? =
        ((manager.build request nonce).sign manager.keys).toOption.toList ∧
      stops (run respond (manager.send request).run scenario).value = false := by
  cases hsigned : (manager.build request nonce).sign manager.keys with
  | error error =>
      rw [Manager.send, Manager.run_withNonce_of_ok hreserved,
        Manager.run_signAndSend_of_error hsigned]
      exact ⟨_, rfl, rfl, rfl, rfl, rfl⟩
  | ok signed =>
      rw [Manager.run_send_of_signed hreserved hsigned]
      exact ⟨_, rfl, rfl, rfl, rfl, signed.stops_outcome _⟩

/-- An execution after its reservation: what comes behind its submission, if anything, neither
asks for a nonce nor hands over anything. -/
theorem run_execute_of_reserved {nonce : UInt64} {next : Option UInt64} (request : Request)
    (hreserved : (run respond manager.reserve.run scenario).value = .ok (nonce, next)) :
    ∃ closing, (run respond (manager.execute request).run scenario).history =
        (run respond manager.reserve.run scenario).history ++ closing ∧
      (run respond (manager.execute request).run scenario).scenario.kept = next ∧
      closing.filterMap Event.report? = [] ∧
      closing.filterMap Event.submission? =
        ((manager.build request nonce).sign manager.keys).toOption.toList ∧
      stops (run respond (manager.execute request).run scenario).value = false := by
  obtain ⟨closing, hhistory, hkept, hreports, hsubmissions, hsends⟩ :=
    run_send_of_ok request hreserved
  cases hsent : (run respond (manager.send request).run scenario).value with
  | error error =>
      have hrun := Manager.run_execute_of_error hsent
      refine ⟨closing, (congrArg Run.history hrun).trans hhistory,
        (congrArg (·.scenario.kept) hrun).trans hkept, hreports, hsubmissions, ?_⟩
      rw [hsent] at hsends
      exact (congrArg (fun run => stops run.value) hrun).trans hsends
  | ok hash =>
      have hrun := Manager.run_execute_of_ok hsent
      let sent := run respond (manager.send request).run scenario
      let waited := run respond (manager.waitForReceipt hash >>= Manager.confirm hash).run
        sent.scenario
      -- the wait looks at receipts and at the switch, and at nothing else
      have huses : (manager.waitForReceipt hash >>= Manager.confirm hash).run.Uses
          (watches manager.chain hash) := Manager.uses_waitForReceipt_bind hash
      have hwatches : ∀ event ∈ waited.history, watches manager.chain hash event.effect :=
        allowed_of_mem_history huses sent.scenario
      refine ⟨closing ++ waited.history, ?_, ?_, ?_, ?_, ?_⟩
      · rw [← List.append_assoc, ← hhistory]
        exact congrArg Run.history hrun
      · refine (congrArg (·.scenario.kept) hrun).trans (.trans ?_ hkept)
        exact kept_run_of_uses huses (fun _ => id) _
      · rw [List.filterMap_append, hreports, List.nil_append, List.filterMap_eq_nil_iff]
        exact fun event hevent => Event.report?_of_watches (hwatches event hevent)
      · rw [List.filterMap_append, hsubmissions, List.filterMap_eq_nil_iff.mpr, List.append_nil]
        exact fun event hevent => Event.submission?_of_watches (hwatches event hevent)
      · refine (congrArg (fun run => stops run.value) hrun).trans ?_
        exact value_run_of_ends (Manager.ends_waitForReceipt_bind hash) sent.scenario

theorem run_call_of_ok {nonce : UInt64} {next : Option UInt64} (hneeds : call.isReset = false)
    (hreserved : (run respond manager.reserve.run scenario).value = .ok (nonce, next)) :
    ∃ closing, (run respond (call.operation manager).run scenario).history =
        (run respond manager.reserve.run scenario).history ++ closing ∧
      (run respond (call.operation manager).run scenario).scenario.kept = next ∧
      closing.filterMap Event.report? = [] ∧
      call.Spends manager nonce (run respond (call.operation manager).run scenario).value
        (closing.filterMap Event.submission?) ∧
      stops (run respond (call.operation manager).run scenario).value = false := by
  cases call with
  | nextNonce =>
      have hrun : run respond manager.nextNonce.run scenario = _ :=
        Manager.run_withNonce_of_ok hreserved
      have hvalue : (run respond manager.nextNonce.run scenario).value = .ok nonce :=
        congrArg Run.value hrun
      refine ⟨_, congrArg Run.history hrun, congrArg (·.scenario.kept) hrun, rfl, ⟨hvalue, rfl⟩, ?_⟩
      exact congrArg stops hvalue
  | send request => exact run_send_of_ok request hreserved
  | execute request => exact run_execute_of_reserved request hreserved
  | resetNonce => cases hneeds

end Call

/-! ## Calls in a row -/

/-- A call that has got no nonce has done nothing else. -/
structure Turn.Fails (error : ClientError) (turn : Turn) : Prop where
  unsubmitted : turn.opening.filterMap Event.submission? = []
  unspent : turn.nonce? = none
  failed : turn.answer = .error error
  closed : turn.closing = []

/-- A call that has a nonce asks the node for no other. -/
structure Turn.Takes (manager : Manager) (nonce : UInt64) (turn : Turn) : Prop where
  unsubmitted : turn.opening.filterMap Event.submission? = []
  taken : turn.nonce? = some nonce
  unasked : turn.closing.filterMap Event.report? = []
  spends : turn.call.Spends manager nonce turn.answer (turn.closing.filterMap Event.submission?)
  lasts : turn.stops = false

/-- Calls without a reset between them, from a kept nonce on. -/
inductive Counts (manager : Manager) : Option UInt64 → List Turn → Prop where
  | nil (kept : Option UInt64) : Counts manager kept []
  | refused {turn : Turn} {turns : List Turn} {error : ClientError}
      (hrefused : turn.opening.filterMap Event.report? = [.error error])
      (hturn : turn.Fails error) (hlasts : error.stops = false) (hforgotten : turn.kept = none)
      (hrest : Counts manager none turns) : Counts manager none (turn :: turns)
  | reported {turn : Turn} {turns : List Turn} {nonce next : UInt64}
      (hreported : turn.opening.filterMap Event.report? = [.ok nonce])
      (hturn : turn.Takes manager nonce) (hnext : Manager.following nonce = .ok next)
      (hrest : Counts manager (some next) turns) : Counts manager none (turn :: turns)
  | counted {turn : Turn} {turns : List Turn} {nonce next : UInt64}
      (hunasked : turn.opening.filterMap Event.report? = [])
      (hturn : turn.Takes manager nonce) (hnext : Manager.following nonce = .ok next)
      (hrest : Counts manager (some next) turns) : Counts manager (some nonce) (turn :: turns)
  | reportedLast {turn : Turn} {nonce : UInt64}
      (hreported : turn.opening.filterMap Event.report? = [.ok nonce])
      (hlast : nonce.toNat = 2 ^ 64 - 1) (hturn : turn.Fails .overflow) :
      Counts manager none [turn]
  | countedLast {turn : Turn} {nonce : UInt64}
      (hunasked : turn.opening.filterMap Event.report? = [])
      (hlast : nonce.toNat = 2 ^ 64 - 1) (hturn : turn.Fails .overflow) :
      Counts manager (some nonce) [turn]

section Batch

variable {respond : Responder σ} {manager : Manager} {call : Call}

theorem turn_fails {scenario : Scenario σ} {error : ClientError} (hneeds : call.isReset = false)
    (hreserved : (run respond manager.reserve.run scenario).value = .error error)
    (hunsubmitted : (run respond manager.reserve.run scenario).history.filterMap
      Event.submission? = []) :
    (manager.turn respond scenario call).Fails error ∧
      (manager.turn respond scenario call).opening =
        (run respond manager.reserve.run scenario).history := by
  have hhistory : (manager.turn respond scenario call).opening =
      (run respond manager.reserve.run scenario).history := by
    simp only [Turn.opening, Manager.turn, run_opening_of_error hneeds hreserved,
      run_call_of_error hneeds hreserved, List.take_length]
  refine ⟨⟨hhistory ▸ hunsubmitted, ?_, ?_, ?_⟩, hhistory⟩
  · simp only [Manager.turn, run_opening_of_error hneeds hreserved]
    rfl
  · exact congrArg Run.value (run_call_of_error hneeds hreserved)
  · simp only [Turn.closing, Manager.turn, run_opening_of_error hneeds hreserved,
      run_call_of_error hneeds hreserved, List.drop_length]

theorem turn_opening {scenario : Scenario σ} {nonce : UInt64} {next : Option UInt64}
    (hneeds : call.isReset = false)
    (hreserved : (run respond manager.reserve.run scenario).value = .ok (nonce, next)) :
    (manager.turn respond scenario call).opening =
      (run respond manager.reserve.run scenario).history := by
  obtain ⟨closing, hhistory, -⟩ := run_call_of_ok hneeds hreserved
  simp only [Turn.opening, Manager.turn, run_opening_of_ok hneeds hreserved, hhistory,
    List.take_left]

theorem turn_takes {scenario : Scenario σ} {nonce : UInt64} {next : Option UInt64}
    (hneeds : call.isReset = false)
    (hreserved : (run respond manager.reserve.run scenario).value = .ok (nonce, next))
    (hunsubmitted : (run respond manager.reserve.run scenario).history.filterMap
      Event.submission? = []) :
    (manager.turn respond scenario call).Takes manager nonce := by
  have hopening := run_opening_of_ok hneeds hreserved
  obtain ⟨closing, hhistory, -, hreports, hspends, hlasts⟩ := run_call_of_ok hneeds hreserved
  have hclosing : (manager.turn respond scenario call).closing = closing := by
    simp only [Turn.closing, Manager.turn, hopening, hhistory, List.drop_left]
  refine ⟨?_, ?_, ?_, ?_, hlasts⟩
  · rw [turn_opening hneeds hreserved, hunsubmitted]
  · simp only [Manager.turn, hopening]
    rfl
  · rw [hclosing, hreports]
  · rw [hclosing]
    exact hspends

/-- A call that is handed a nonce takes it, and keeps the one behind it. -/
theorem turn_of_handOut {scenario : Scenario σ} {nonce : UInt64}
    {reserved : UInt64 × Option UInt64} (hbatch : manager.strategy = .batch)
    (hneeds : call.isReset = false) (hhanded : manager.handOut scenario.kept nonce = .ok reserved)
    (hreserved : (run respond manager.reserve.run scenario).value = .ok reserved)
    (hunsubmitted : (run respond manager.reserve.run scenario).history.filterMap
      Event.submission? = []) :
    ∃ next, Manager.following nonce = .ok next ∧
      (manager.turn respond scenario call).Takes manager nonce ∧
      (run respond (call.operation manager).run scenario).scenario.kept = some next := by
  obtain rfl := Manager.nonce_of_handOut hhanded
  obtain ⟨next, hkept, hnext⟩ := Manager.next_of_handOut hbatch hhanded
  obtain ⟨_, -, hafter, -⟩ := run_call_of_ok hneeds hreserved
  exact ⟨next, hnext, turn_takes hneeds hreserved hunsubmitted, hafter.trans hkept⟩

/-- A call that has a nonce to count from, in front of calls that count from what it keeps.
Behind a call that stops the program there are none. -/
theorem counts_cons_of_kept {scenario : Scenario σ} {turns : List Turn} {nonce : UInt64}
    (hbatch : manager.strategy = .batch) (hneeds : call.isReset = false)
    (hkept : scenario.kept = some nonce)
    (hrest : (manager.turn respond scenario call).stops = false →
      Counts manager (run respond (call.operation manager).run scenario).scenario.kept turns)
    (hend : (manager.turn respond scenario call).stops = true → turns = []) :
    Counts manager (some nonce) (manager.turn respond scenario call :: turns) := by
  have hcounted : manager.counted? scenario.kept = some nonce := by
    simp only [Manager.counted?, hbatch, hkept]
  cases hhanded : manager.handOut scenario.kept nonce with
  | ok reserved =>
      have hrun : run respond manager.reserve.run scenario = _ :=
        Manager.run_reserve_of_counted hcounted hhanded
      have hvalue := congrArg Run.value hrun
      obtain ⟨next, hnext, htakes, hafter⟩ :=
        turn_of_handOut hbatch hneeds hhanded hvalue (by rw [hrun]; rfl)
      refine .counted ?_ htakes hnext (hafter ▸ hrest htakes.lasts)
      rw [turn_opening hneeds hvalue, hrun]
      rfl
  | error error =>
      obtain ⟨-, hlast, rfl⟩ := Manager.handOut_eq_error_iff.mp hhanded
      have hrun : run respond manager.reserve.run scenario = _ :=
        Manager.run_reserve_of_counted_last hcounted hhanded
      obtain ⟨hfails, hopening⟩ :=
        turn_fails hneeds (congrArg Run.value hrun) (by rw [hrun]; rfl)
      obtain rfl := hend (congrArg stops hfails.failed)
      refine .countedLast ?_ hlast hfails
      rw [hopening, hrun]
      rfl

/-- The same of a call that has to ask: it is up to the node whether there is a nonce. -/
theorem counts_cons_of_asked {scenario : Scenario σ} {turns : List Turn}
    (hbatch : manager.strategy = .batch) (hneeds : call.isReset = false)
    (hkept : scenario.kept = none)
    (hrest : (manager.turn respond scenario call).stops = false →
      Counts manager (run respond (call.operation manager).run scenario).scenario.kept turns)
    (hend : (manager.turn respond scenario call).stops = true → turns = []) :
    Counts manager none (manager.turn respond scenario call :: turns) := by
  have hasked : manager.counted? scenario.kept = none := by
    simp only [Manager.counted?, hbatch, hkept]
  cases hreport : nonceOf (respond scenario.node manager.question).reply with
  | error error =>
      have hlasts := stops_of_resultOf (error_of_nonceOf hreport)
      have hrun : run respond manager.reserve.run scenario = _ :=
        Manager.run_reserve_of_refused hasked (by rw [hreport]; rfl)
      have hvalue := congrArg Run.value hrun
      obtain ⟨hfails, hopening⟩ := turn_fails hneeds hvalue (by rw [hrun]; rfl)
      have hafter : (run respond (call.operation manager).run scenario).scenario.kept = none := by
        rw [run_call_of_error hneeds hvalue, hrun]
        exact hkept
      have hrest := hrest ((congrArg stops hfails.failed).trans hlasts)
      refine .refused ?_ hfails hlasts hafter (hafter ▸ hrest)
      rw [hopening, hrun]
      exact congrArg (fun report => [report]) hreport
  | ok nonce =>
      cases hhanded : manager.handOut scenario.kept nonce with
      | ok reserved =>
          have hrun : run respond manager.reserve.run scenario = _ :=
            Manager.run_reserve_of_reported hasked hreport hhanded
          have hvalue := congrArg Run.value hrun
          obtain ⟨next, hnext, htakes, hafter⟩ :=
            turn_of_handOut hbatch hneeds hhanded hvalue (by rw [hrun]; rfl)
          refine .reported ?_ htakes hnext (hafter ▸ hrest htakes.lasts)
          rw [turn_opening hneeds hvalue, hrun]
          exact congrArg (fun report => [report]) hreport
      | error error =>
          obtain ⟨-, hlast, rfl⟩ := Manager.handOut_eq_error_iff.mp hhanded
          have hrun : run respond manager.reserve.run scenario = _ :=
            Manager.run_reserve_of_refused hasked (by rw [hreport]; exact hhanded)
          obtain ⟨hfails, hopening⟩ :=
            turn_fails hneeds (congrArg Run.value hrun) (by rw [hrun]; rfl)
          obtain rfl := hend (congrArg stops hfails.failed)
          refine .reportedLast ?_ hlast hfails
          rw [hopening, hrun]
          exact congrArg (fun report => [report]) hreport

theorem counts_cons {scenario : Scenario σ} {turns : List Turn} (hbatch : manager.strategy = .batch)
    (hneeds : call.isReset = false)
    (hrest : (manager.turn respond scenario call).stops = false →
      Counts manager (run respond (call.operation manager).run scenario).scenario.kept turns)
    (hend : (manager.turn respond scenario call).stops = true → turns = []) :
    Counts manager scenario.kept (manager.turn respond scenario call :: turns) := by
  cases hkept : scenario.kept with
  | some nonce => exact counts_cons_of_kept hbatch hneeds hkept hrest hend
  | none => exact counts_cons_of_asked hbatch hneeds hkept hrest hend

/-- A session splits at its resets into stretches, each of which counts; all but the first
begin with no kept nonce. -/
theorem counts_splitOnP (hbatch : manager.strategy = .batch) (respond : Responder σ)
    (calls : List Call) (scenario : Scenario σ) :
    ∃ first rest, (manager.turns respond calls scenario).splitOnP Turn.isReset = first :: rest ∧
      Counts manager scenario.kept first ∧ ∀ segment ∈ rest, Counts manager none segment := by
  induction calls generalizing scenario with
  | nil => exact ⟨[], [], List.splitOnP_nil, .nil _, by simp⟩
  | cons call calls ih =>
      obtain ⟨first, rest, hsplit, hfirst, hrest, hend⟩ : ∃ first rest,
          (if (manager.turn respond scenario call).stops then [] else manager.turns respond calls
            (run respond (call.operation manager).run scenario).scenario).splitOnP Turn.isReset =
              first :: rest ∧
          ((manager.turn respond scenario call).stops = false →
            Counts manager (run respond (call.operation manager).run scenario).scenario.kept
              first) ∧
          (∀ segment ∈ rest, Counts manager none segment) ∧
          ((manager.turn respond scenario call).stops = true → first = []) := by
        cases hstops : (manager.turn respond scenario call).stops with
        | true => exact ⟨[], [], List.splitOnP_nil, nofun, by simp, fun _ => rfl⟩
        | false =>
            obtain ⟨first, rest, hsplit, hfirst, hrest⟩ :=
              ih (run respond (call.operation manager).run scenario).scenario
            exact ⟨first, rest, hsplit, fun _ => hfirst, hrest, nofun⟩
      rw [Manager.turns, List.splitOnP_cons_eq_if_modifyHead, hsplit]
      cases hreset : call.isReset with
      -- A reset ends the stretch in front of it, and no nonce is kept behind it.
      | true =>
          obtain rfl : call = .resetNonce := by
            cases call <;> first | rfl | cases hreset
          refine ⟨[], first :: rest, if_pos rfl, .nil _, ?_⟩
          intro segment hsegment
          rcases List.mem_cons.mp hsegment with rfl | hsegment
          · exact hfirst rfl
          · exact hrest segment hsegment
      | false =>
          have hturn : (manager.turn respond scenario call).isReset = false := hreset
          rw [hturn]
          exact ⟨_, rest, rfl, counts_cons hbatch hreset hfirst hend, hrest⟩

end Batch

theorem Turn.opening_append_closing (turn : Turn) :
    turn.opening ++ turn.closing = turn.history :=
  List.take_append_drop turn.delay turn.history

theorem Turn.reports_eq (turn : Turn) : turn.reports =
    turn.opening.filterMap Event.report? ++ turn.closing.filterMap Event.report? := by
  rw [reports, ← turn.opening_append_closing, List.filterMap_append]

theorem Turn.submissions_eq (turn : Turn) : turn.submissions =
    turn.opening.filterMap Event.submission? ++ turn.closing.filterMap Event.submission? := by
  rw [submissions, ← turn.opening_append_closing, List.filterMap_append]

/-- Effects that come before everything else come before all that is handed out. -/
theorem Moment.pairwise_seen_append (events : List Event) {moments : List Moment}
    (hmoments : moments.Pairwise fun earlier later =>
      earlier.nonce?.isSome → later.report? = none) :
    (events.map seen ++ moments).Pairwise fun earlier later =>
      earlier.nonce?.isSome → later.report? = none := by
  have hseen : ∀ moment ∈ events.map seen, ¬ moment.nonce?.isSome := by
    intro moment hmoment
    obtain ⟨event, -, rfl⟩ := List.mem_map.mp hmoment
    exact Bool.false_ne_true
  refine List.pairwise_append.mpr ⟨?_, hmoments, ?_⟩
  · exact List.pairwise_of_forall_mem_list fun earlier hearlier _ _ hhanded =>
      absurd hhanded (hseen earlier hearlier)
  · intro earlier hearlier later _ hhanded
    exact absurd hhanded (hseen earlier hearlier)

theorem Turn.filterMap_moments (turn : Turn) :
    turn.moments.filterMap Moment.report? = turn.reports := by
  have hseen : Moment.report? ∘ Moment.seen = Event.report? := rfl
  have hhanded : turn.nonce?.toList.filterMap (Moment.report? ∘ Moment.handOut) = [] :=
    List.filterMap_eq_nil_iff.mpr fun _ _ => rfl
  simp only [moments, reports_eq, List.filterMap_append, List.filterMap_map, hseen, hhanded,
    List.nil_append]

namespace Turn.Fails

variable {error : ClientError} {turn : Turn}

theorem reports_opening (hturn : turn.Fails error) :
    turn.reports = turn.opening.filterMap Event.report? := by
  rw [turn.reports_eq, hturn.closed, List.filterMap_nil, List.append_nil]

theorem submissions_eq_nil (hturn : turn.Fails error) : turn.submissions = [] := by
  rw [turn.submissions_eq, hturn.closed, hturn.unsubmitted]
  rfl

theorem moments_eq (hturn : turn.Fails error) : turn.moments = turn.opening.map .seen := by
  simp [Turn.moments, hturn.unspent, hturn.closed]

theorem stops_eq (hturn : turn.Fails error) : turn.stops = error.stops :=
  congrArg Operation.stops hturn.failed

end Turn.Fails

namespace Turn.Takes

variable {manager : Manager} {nonce : UInt64} {turn : Turn}

theorem reports_opening (hturn : turn.Takes manager nonce) :
    turn.reports = turn.opening.filterMap Event.report? := by
  rw [turn.reports_eq, hturn.unasked, List.append_nil]

theorem spends_submissions (hturn : turn.Takes manager nonce) :
    turn.call.Spends manager nonce turn.answer turn.submissions := by
  rw [turn.submissions_eq, hturn.unsubmitted, List.nil_append]
  exact hturn.spends

end Turn.Takes

/-- What a call hands over carries the nonce that it spends. -/
theorem Call.Spends.nonce_eq {manager : Manager} {nonce : UInt64} {call : Call}
    {answer : Except ClientError call.Answer} {submissions : List SignedTransaction}
    (hspends : call.Spends manager nonce answer submissions) :
    ∀ signed ∈ submissions, signed.transaction.nonce = nonce := by
  have hsigned : ∀ request, submissions =
      ((manager.build request nonce).sign manager.keys).toOption.toList →
      ∀ signed ∈ submissions, signed.transaction.nonce = nonce := by
    rintro request rfl signed hmem
    cases hsign : (manager.build request nonce).sign manager.keys with
    | error error =>
        rw [hsign] at hmem
        cases hmem
    | ok other =>
        rw [hsign] at hmem
        obtain rfl := List.mem_singleton.mp hmem
        rw [(Transaction.eq_of_sign hsign).1]
        rfl
  cases call with
  | nextNonce => simp [hspends.2]
  | send request => exact hsigned request hspends
  | execute request => exact hsigned request hspends
  | resetNonce => exact hspends.elim

namespace Counts

variable {manager : Manager} {kept : Option UInt64} {turns : List Turn}

theorem reports_eq_nil {nonce : UInt64} (hcounts : Counts manager (some nonce) turns) :
    turns.flatMap Turn.reports = [] := by
  generalize hkept : some nonce = kept at hcounts
  induction hcounts generalizing nonce with
  | nil => rfl
  | refused | reported | reportedLast => cases hkept
  | counted hunasked hturn hnext hrest ih =>
      rw [List.flatMap_cons, hturn.reports_opening, hunasked, ih rfl, List.nil_append]
  | countedLast hunasked hlast hturn =>
      rw [List.flatMap_singleton, hturn.reports_opening, hunasked]

theorem nonces_cons {turn : Turn} {nonce next : UInt64} (hturn : turn.nonce? = some nonce)
    (hnext : Manager.following nonce = .ok next)
    (hlater : ∀ index taken, (turns.filterMap Turn.nonce?)[index]? = some taken →
      taken.toNat = next.toNat + index) :
    ∀ index taken, ((turn :: turns).filterMap Turn.nonce?)[index]? = some taken →
      taken.toNat = nonce.toNat + index := by
  intro index taken htaken
  rw [List.filterMap_cons_some hturn] at htaken
  cases index with
  | zero =>
      cases htaken
      rfl
  | succ index =>
      rw [hlater index taken htaken, Manager.following_eq_ok_iff.mp hnext]
      omega

theorem nonces_eq {nonce : UInt64} (hcounts : Counts manager (some nonce) turns) :
    ∀ index taken, (turns.filterMap Turn.nonce?)[index]? = some taken →
      taken.toNat = nonce.toNat + index := by
  generalize hkept : some nonce = kept at hcounts
  induction hcounts generalizing nonce with
  | nil => simp
  | refused | reported | reportedLast => cases hkept
  | counted hunasked hturn hnext hrest ih =>
      cases hkept
      exact nonces_cons hturn.taken hnext (ih rfl)
  | countedLast hunasked hlast hturn => simp [hturn.unspent]

/-- A stretch that begins without a nonce has at most one report of it, and counts on
from there. -/
theorem exists_first (hcounts : Counts manager none turns) :
    (turns.flatMap Turn.reports).filterMap Except.toOption = [] ∧ turns.filterMap Turn.nonce? = [] ∨
      ∃ first, (turns.flatMap Turn.reports).filterMap Except.toOption = [first] ∧
        ∀ index taken, (turns.filterMap Turn.nonce?)[index]? = some taken →
          taken.toNat = first.toNat + index := by
  generalize hkept : none = kept at hcounts
  induction hcounts with
  | nil => exact .inl ⟨rfl, rfl⟩
  | refused hrefused hturn hlasts hforgotten hrest ih =>
      rw [List.flatMap_cons, hturn.reports_opening, hrefused, List.filterMap_append,
        List.filterMap_cons_none hturn.unspent]
      exact ih rfl
  | @reported turn turns nonce next hreported hturn hnext hrest ih =>
      refine .inr ⟨nonce, ?_, nonces_cons hturn.taken hnext hrest.nonces_eq⟩
      rw [List.flatMap_cons, hturn.reports_opening, hreported, hrest.reports_eq_nil]
      rfl
  | @reportedLast turn nonce hreported hlast hturn =>
      refine .inr ⟨nonce, ?_, by simp [hturn.unspent]⟩
      rw [List.flatMap_singleton, hturn.reports_opening, hreported]
      rfl
  | counted | countedLast => cases hkept

/-- A call is refused a nonce, or stops the program, or takes a nonce that is not the last. -/
theorem fails_or_takes (hcounts : Counts manager kept turns) :
    ∀ turn ∈ turns,
      (∃ error, turn.Fails error) ∧
          (turn.IsRefused ∧ turn.stops = false ∧ turn.kept = none ∨
            ¬ turn.IsRefused ∧ turn.stops = true) ∨
        ¬ turn.IsRefused ∧
          ∃ nonce : UInt64, nonce.toNat < 2 ^ 64 - 1 ∧ turn.Takes manager nonce := by
  have hbelow : ∀ {nonce next : UInt64}, Manager.following nonce = .ok next →
      nonce.toNat < 2 ^ 64 - 1 := by
    intro nonce next hnext
    have hsum := Manager.following_eq_ok_iff.mp hnext
    have hlt := next.toNat_lt
    omega
  induction hcounts with
  | nil => simp
  | @refused turn turns error hrefused hturn hlasts hforgotten hrest ih =>
      have hmem : turn.IsRefused := by
        rw [Turn.IsRefused, hturn.reports_opening, hrefused]
        exact ⟨error, List.mem_cons_self⟩
      have hwhy := And.intro hmem (And.intro (hturn.stops_eq.trans hlasts) hforgotten)
      exact List.forall_mem_cons.mpr ⟨.inl ⟨⟨error, hturn⟩, .inl hwhy⟩, ih⟩
  | reported hreported hturn hnext hrest ih =>
      refine List.forall_mem_cons.mpr ⟨.inr ⟨?_, _, hbelow hnext, hturn⟩, ih⟩
      rw [Turn.IsRefused, hturn.reports_opening, hreported]
      simp
  | counted hunasked hturn hnext hrest ih =>
      refine List.forall_mem_cons.mpr ⟨.inr ⟨?_, _, hbelow hnext, hturn⟩, ih⟩
      rw [Turn.IsRefused, hturn.reports_opening, hunasked]
      simp
  | reportedLast hreported hlast hturn =>
      refine List.forall_mem_singleton.mpr (.inl ⟨⟨_, hturn⟩, .inr ⟨?_, hturn.stops_eq⟩⟩)
      rw [Turn.IsRefused, hturn.reports_opening, hreported]
      simp
  | countedLast hunasked hlast hturn =>
      refine List.forall_mem_singleton.mpr (.inl ⟨⟨_, hturn⟩, .inr ⟨?_, hturn.stops_eq⟩⟩)
      rw [Turn.IsRefused, hturn.reports_opening, hunasked]
      simp

theorem reports_ne_nil {turn : Turn} (hcounts : Counts manager none (turn :: turns)) :
    turn.reports ≠ [] := by
  cases hcounts with
  | refused hrefused hturn hlasts hforgotten hrest => simp [hturn.reports_opening, hrefused]
  | reported hreported hturn hnext hrest => simp [hturn.reports_opening, hreported]
  | reportedLast hreported hlast hturn => simp [hturn.reports_opening, hreported]

theorem tail {turn : Turn} (hcounts : Counts manager kept (turn :: turns)) :
    ∃ kept, Counts manager kept turns := by
  cases hcounts with
  | refused hrefused hturn hlasts hforgotten hrest => exact ⟨none, hrest⟩
  | reported hreported hturn hnext hrest => exact ⟨_, hrest⟩
  | counted hunasked hturn hnext hrest => exact ⟨_, hrest⟩
  | reportedLast | countedLast => exact ⟨none, .nil none⟩

theorem drop {before : List Turn} (hcounts : Counts manager kept (before ++ turns)) :
    ∃ kept, Counts manager kept turns := by
  induction before generalizing kept with
  | nil => exact ⟨kept, hcounts⟩
  | cons turn before ih =>
      obtain ⟨kept, hrest⟩ := hcounts.tail
      exact ih hrest

theorem asked_again {before after : List Turn} {turn next : Turn}
    (hcounts : Counts manager kept (before ++ turn :: next :: after))
    (hrefused : turn.IsRefused) : next.reports ≠ [] := by
  obtain ⟨kept, hcounts⟩ := hcounts.drop
  cases hcounts with
  | refused _ _ _ _ hrest => exact hrest.reports_ne_nil
  | reported hreported hturn hnext hrest =>
      rw [Turn.IsRefused, hturn.reports_opening, hreported] at hrefused
      simp at hrefused
  | counted hunasked hturn hnext hrest =>
      rw [Turn.IsRefused, hturn.reports_opening, hunasked] at hrefused
      simp at hrefused

theorem pairwise_moments (hcounts : Counts manager none turns) :
    (turns.flatMap Turn.moments).Pairwise fun earlier later =>
      earlier.nonce?.isSome → later.report? = none := by
  generalize hkept : none = kept at hcounts
  induction hcounts with
  | nil => exact .nil
  | refused hrefused hturn hlasts hforgotten hrest ih =>
      rw [List.flatMap_cons, hturn.moments_eq]
      exact Moment.pairwise_seen_append _ (ih rfl)
  | @reported turn turns nonce next hreported hturn hnext hrest ih =>
      rw [List.flatMap_cons, Turn.moments, List.append_assoc]
      refine Moment.pairwise_seen_append _ (List.pairwise_of_forall_mem_list ?_)
      intro _ _ later hlater _
      simp only [List.mem_append, List.mem_map] at hlater
      rcases hlater with (⟨_, _, rfl⟩ | ⟨event, hevent, rfl⟩) | hlater
      · rfl
      · exact List.filterMap_eq_nil_iff.mp hturn.unasked event hevent
      · obtain ⟨turn, hmem, hlater⟩ := List.mem_flatMap.mp hlater
        have hreports := List.flatMap_eq_nil_iff.mp hrest.reports_eq_nil turn hmem
        rw [← turn.filterMap_moments] at hreports
        exact List.filterMap_eq_nil_iff.mp hreports later hlater
  | reportedLast hreported hlast hturn =>
      rw [List.flatMap_cons, hturn.moments_eq]
      exact Moment.pairwise_seen_append _ .nil
  | counted | countedLast => cases hkept

/-- What a call has handed over carries the nonce that it has taken. -/
theorem nonce?_of_mem_submissions {turn : Turn} {signed : SignedTransaction}
    (hcounts : Counts manager kept turns) (hturn : turn ∈ turns)
    (hsigned : signed ∈ turn.submissions) : turn.nonce? = some signed.transaction.nonce := by
  rcases hcounts.fails_or_takes turn hturn with ⟨⟨_, hturn⟩, -⟩ | ⟨-, taken, -, hturn⟩
  · rw [hturn.submissions_eq_nil] at hsigned
    cases hsigned
  · rw [hturn.taken, hturn.spends_submissions.nonce_eq signed hsigned]

/-! ### The end of a count -/

section Stopped

variable {before after : List Turn} {turn : Turn}

/-- From a kept nonce on every call takes a nonce and asks for none, up to the one that would
take the last. -/
theorem of_kept {nonce : UInt64} (hcounts : Counts manager (some nonce) (before ++ turn :: after)) :
    turn.reports = [] ∧ (before.filterMap Turn.nonce?).length = before.length ∧
      ((∃ taken : UInt64, taken.toNat = nonce.toNat + before.length ∧ turn.Takes manager taken) ∨
        nonce.toNat + before.length = 2 ^ 64 - 1 ∧ turn.Fails .overflow ∧ after = []) := by
  induction before generalizing nonce with
  | nil =>
      cases hcounts with
      | counted hunasked hturn hnext hrest =>
          exact ⟨hturn.reports_opening.trans hunasked, rfl, .inl ⟨nonce, rfl, hturn⟩⟩
      | countedLast hunasked hlast hturn =>
          exact ⟨hturn.reports_opening.trans hunasked, rfl, .inr ⟨hlast, hturn, rfl⟩⟩
  | cons first before ih =>
      rw [List.cons_append] at hcounts
      generalize hrow : before ++ turn :: after = row at hcounts
      cases hcounts with
      | counted hunasked hturn hnext hrest =>
          rw [← hrow] at hrest
          obtain ⟨hreports, hlength, hends⟩ := ih hrest
          rw [Manager.following_eq_ok_iff.mp hnext, Nat.add_assoc, Nat.add_comm 1] at hends
          rw [List.filterMap_cons_some hturn.taken, List.length_cons, hlength]
          exact ⟨hreports, rfl, hends⟩
      | countedLast hunasked hlast hturn => simp at hrow

theorem last_of_kept {nonce : UInt64}
    (hcounts : Counts manager (some nonce) (before ++ turn :: after))
    (hstops : turn.stops = true) :
    after = [] ∧ nonce.toNat + (before.filterMap Turn.nonce?).length = 2 ^ 64 - 1 := by
  obtain ⟨-, hlength, ⟨taken, -, hturn⟩ | ⟨hlast, -, hafter⟩⟩ := hcounts.of_kept
  · simp [hturn.lasts] at hstops
  · exact ⟨hafter, hlength ▸ hlast⟩

theorem stopped (hcounts : Counts manager none (before ++ turn :: after))
    (hstops : turn.stops = true) :
    after = [] ∧ ∃ first,
      ((before ++ turn :: after).flatMap Turn.reports).filterMap Except.toOption = [first] ∧
        first.toNat + (before.filterMap Turn.nonce?).length = 2 ^ 64 - 1 := by
  induction before with
  | nil =>
      cases hcounts with
      | refused hrefused hturn hlasts hforgotten hrest =>
          rw [hturn.stops_eq, hlasts] at hstops
          cases hstops
      | reported hreported hturn hnext hrest => simp [hturn.lasts] at hstops
      | @reportedLast _ nonce hreported hlast hturn =>
          refine ⟨rfl, nonce, ?_, hlast⟩
          rw [List.nil_append, List.flatMap_singleton, hturn.reports_opening, hreported]
          rfl
  | cons first before ih =>
      rw [List.cons_append] at hcounts ⊢
      rw [List.flatMap_cons, List.filterMap_append]
      generalize hrow : before ++ turn :: after = row at hcounts
      cases hcounts with
      | refused hrefused hturn hlasts hforgotten hrest =>
          rw [hturn.reports_opening, hrefused, List.filterMap_cons_none hturn.unspent, ← hrow]
          exact ih (hrow ▸ hrest)
      | @reported _ _ nonce next hreported hturn hnext hrest =>
          obtain ⟨hafter, hlast⟩ := last_of_kept (hrow ▸ hrest) hstops
          rw [Manager.following_eq_ok_iff.mp hnext] at hlast
          rw [hturn.reports_opening, hreported, hrest.reports_eq_nil,
            List.filterMap_cons_some hturn.taken, List.length_cons]
          exact ⟨hafter, nonce, rfl, by omega⟩
      | reportedLast hreported hlast hturn => simp at hrow

end Stopped

theorem isCounted (hcounts : Counts manager none turns) : IsCounted manager turns where
  reported_once := by
    rcases hcounts.exists_first with ⟨hreports, -⟩ | ⟨first, hreports, -⟩ <;> simp [hreports]
  asked_first := hcounts.pairwise_moments
  refused := by
    intro turn hmem hrefused
    rcases hcounts.fails_or_takes turn hmem with ⟨⟨_, hturn⟩, hwhy⟩ | ⟨hreported, -⟩
    · have hkept := hwhy.resolve_right fun h => h.1 hrefused
      exact ⟨hturn.unspent, hturn.submissions_eq_nil, hkept.2.2⟩
    · exact absurd hrefused hreported
  asked_again := by
    rintro before turn next after rfl hrefused
    exact hcounts.asked_again hrefused
  counted := by
    intro index nonce hnonce
    rcases hcounts.exists_first with ⟨-, hnone⟩ | ⟨first, hreports, hnonces⟩
    · simp [hnone] at hnonce
    · exact ⟨first, hreports, hnonces index nonce hnonce⟩
  spent := by
    intro turn hmem nonce hnonce
    rcases hcounts.fails_or_takes turn hmem with ⟨⟨_, hturn⟩, -⟩ | ⟨-, taken, -, hturn⟩
    · cases hturn.unspent.symm.trans hnonce
    · cases hturn.taken.symm.trans hnonce
      exact hturn.spends_submissions
  unspent := by
    intro turn hmem hnonce
    rcases hcounts.fails_or_takes turn hmem with ⟨⟨error, hturn⟩, hwhy⟩ | ⟨-, taken, -, hturn⟩
    · exact ⟨hwhy.imp And.left And.right, error, hturn.failed⟩
    · cases hnonce.symm.trans hturn.taken
  stopped := by
    rintro before turn after rfl hstops
    exact hcounts.stopped hstops
  carried := fun _ hmem _ hsigned => hcounts.nonce?_of_mem_submissions hmem hsigned

end Counts

/-- Every stretch of a session that begins without a nonce counts. -/
theorem Manager.counts_of_mem_splitOnP {manager : Manager} (hbatch : manager.strategy = .batch)
    {respond : Responder σ} {calls : List Call} {scenario : Scenario σ}
    (hfresh : scenario.kept = none) {segment : List Turn}
    (hsegment : segment ∈ (manager.turns respond calls scenario).splitOnP Turn.isReset) :
    Counts manager none segment := by
  obtain ⟨first, rest, hsplit, hfirst, hrest⟩ :=
    counts_splitOnP hbatch respond calls scenario
  rw [hfresh] at hfirst
  rw [hsplit] at hsegment
  rcases List.mem_cons.mp hsegment with rfl | hsegment
  · exact hfirst
  · exact hrest segment hsegment

/-- Between two resets the node reports a nonce at most once, before any nonce is handed
out; nonces are handed out from the reported one on without a gap, up to the one before the
last, and every transaction carries the one that it was handed. -/
theorem Manager.isCounted_turns {manager : Manager} (hbatch : manager.strategy = .batch)
    (respond : Responder σ) (calls : List Call) (scenario : Scenario σ)
    (hfresh : scenario.kept = none) :
    ∀ segment ∈ (manager.turns respond calls scenario).splitOnP Turn.isReset,
      IsCounted manager segment :=
  fun _ hsegment => (counts_of_mem_splitOnP hbatch hfresh hsegment).isCounted

/-- A session in which the node is down at first, and that is reset once. -/
theorem Manager.isCounted_turns_restarted :
    let manager : Manager := ⟨.one, 7, .batch, .assume⟩
    let account (nonce : String) : Reply :=
      .ok (.object [("result", .object [("nonce", .number nonce)])])
    let script : Script := ⟨[.error (.failed "down"), account "41", account "50"], none⟩
    let calls : List Call := [.nextNonce, .nextNonce, .nextNonce, .resetNonce, .nextNonce]
    let turns := manager.turns Script.respond calls (start script .untouched)
    turns.filterMap Turn.nonce? = [41, 42, 50] ∧
      ∀ segment ∈ turns.splitOnP Turn.isReset, IsCounted manager segment := by
  intro manager account script calls turns
  refine ⟨?_, Manager.isCounted_turns rfl Script.respond calls _ rfl⟩
  decide +kernel

end ChainClient
