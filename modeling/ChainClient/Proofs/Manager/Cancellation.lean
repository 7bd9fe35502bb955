import ChainClient.Proofs.Manager.Polling
import ChainClient.Proofs.Manager.Switch

/-!
# Cancelled waits

A wait that is watched by a switch looks at it before each request, and watches it during
each pause. So nothing is asked after the switch is on for good, a pause ends at this very
time, and a request that is under way is still heard.
-/

namespace ChainClient

open Node

namespace Scenario

variable {σ α : Type}

/-- The time at which a run goes on with its last events, or ends if there are none. -/
def Run.resumesAt (run : Run σ α) (rest : List Event) : Nat :=
  (rest.head?.map Event.time).getD run.scenario.clock

theorem Event.query?_of_exchange? {event : Event} {query : Query} {reply : Reply}
    (hexchange : event.exchange? = some (query, reply)) : event.query? = some query := by
  obtain ⟨time, effect, answer⟩ := event
  cases effect <;> cases hexchange
  rfl

theorem resumesAt_history {respond : Responder σ} (program : Program α) (scenario : Scenario σ) :
    (run respond program scenario).resumesAt (run respond program scenario).history =
      scenario.clock := by
  cases program with
  | done value => rfl
  | perform effect resume => rfl

end Scenario

open Scenario Operation

variable {σ : Type} {chain : UInt64} {hash : String} {interval budget : Nat}

/-- A wait with a number of looks left heeds that it is cancelled from a time on: it asks
nothing after this time; a pause that lasts beyond it ends there; and a request that is under
way is the last thing it does, and is heard. -/
structure Heeds (hash : String) (interval budget time attempts : Nat)
    (run : Run σ (Except ClientError Receipt)) : Prop where
  asks : ∀ event ∈ run.history, ∀ query, event.query? = some query → event.time ≤ time
  pauses : ∀ event ∈ run.history, ∀ length, event.pause? = some length →
    event.time ≤ time → time < event.time + length →
      run.value = .error (.cancelled hash) ∧ run.scenario.clock = time
  hears : ∀ front event rest query reply, run.history = front ++ event :: rest →
    event.exchange? = some (query, reply) → event.time ≤ time → time < run.resumesAt rest →
      run.scenario.clock = run.resumesAt rest ∧
      (∀ outcome, Settles reply outcome → run.value = outcome) ∧
      (IsPending reply → run.value = .error
        (if (front.filterMap Event.query?).length + 1 = attempts
          then .confirmationTimeout hash (interval * budget) else .cancelled hash))

namespace Heeds

variable {time attempts : Nat} {run : Run σ (Except ClientError Receipt)}

/-- A wait that asks nothing and comes after the time heeds it. -/
theorem of_lt (hlate : ∀ event ∈ run.history, time < event.time ∧ event.query? = none) :
    Heeds hash interval budget time attempts run := by
  refine ⟨fun event hevent query hquery => ?_, fun event hevent length _ htime => ?_,
    fun front event rest query reply hhistory hexchange htime => ?_⟩
  · rw [(hlate event hevent).2] at hquery
    cases hquery
  · exact absurd htime (Nat.not_le_of_lt (hlate event hevent).1)
  · have hevent : event ∈ run.history := by simp [hhistory]
    exact absurd htime (Nat.not_le_of_lt (hlate event hevent).1)

/-- What holds of the first event and of the rest of a run holds of the run. -/
theorem cons {event : Event} {total : Nat} (hrun : Heeds hash interval budget time attempts run)
    (htotal : total = attempts + event.query?.toList.length)
    (hasks : ∀ query, event.query? = some query → event.time ≤ time)
    (hpauses : ∀ length, event.pause? = some length → event.time ≤ time →
      time < event.time + length →
        run.value = .error (.cancelled hash) ∧ run.scenario.clock = time)
    (hhears : ∀ query reply, event.exchange? = some (query, reply) → event.time ≤ time →
      time < run.resumesAt run.history → run.scenario.clock = run.resumesAt run.history ∧
        (∀ outcome, Settles reply outcome → run.value = outcome) ∧
        (IsPending reply → run.value = .error (if attempts = 0
          then .confirmationTimeout hash (interval * budget) else .cancelled hash))) :
    Heeds hash interval budget time total (run.after [event]) := by
  refine ⟨?_, ?_, fun front later rest query reply hhistory hexchange htime hresumes => ?_⟩
  · rw [Run.history_after, List.singleton_append, List.forall_mem_cons]
    exact ⟨hasks, hrun.asks⟩
  · rw [Run.history_after, List.singleton_append, List.forall_mem_cons]
    exact ⟨hpauses, hrun.pauses⟩
  · rw [Run.history_after, List.singleton_append] at hhistory
    cases front with
    | nil =>
        obtain ⟨rfl, rfl⟩ := List.cons.inj hhistory
        obtain ⟨hclock, hsettled, hpending⟩ := hhears query reply hexchange htime hresumes
        refine ⟨hclock, hsettled, fun hreply => ?_⟩
        rw [Run.value_after, hpending hreply, htotal, Event.query?_of_exchange? hexchange]
        simp
    | cons first front =>
        obtain ⟨rfl, hfront⟩ := List.cons.inj hhistory
        obtain ⟨hclock, hsettled, hpending⟩ :=
          hrun.hears front later rest query reply hfront hexchange htime hresumes
        refine ⟨hclock, hsettled, fun hreply => ?_⟩
        have hcount : ((event :: front).filterMap Event.query?).length =
            event.query?.toList.length + (front.filterMap Event.query?).length := by
          cases hquery : event.query? with
          | none => simp [hquery]
          | some query => simp [hquery, Nat.add_comm]
        rw [Run.value_after, hpending hreply, hcount]
        exact congrArg Except.error (if_congr (by omega) rfl rfl)

theorem cons_isCancelled {clock : Nat} {answer : Bool}
    (hrun : Heeds hash interval budget time attempts run) :
    Heeds hash interval budget time attempts (run.after [⟨clock, .isCancelled, answer⟩]) := by
  refine hrun.cons rfl ?_ ?_ ?_
  · rintro query ⟨⟩
  · rintro length ⟨⟩
  · rintro query reply ⟨⟩

theorem cons_pause {clock length : Nat} {answer : Bool}
    (hrun : Heeds hash interval budget time attempts run)
    (hends : clock ≤ time → time < clock + length →
      run.value = .error (.cancelled hash) ∧ run.scenario.clock = time) :
    Heeds hash interval budget time attempts (run.after [⟨clock, .pause length, answer⟩]) := by
  refine hrun.cons rfl ?_ ?_ ?_
  · rintro query ⟨⟩
  · rintro length ⟨⟩
    exact hends
  · rintro query reply ⟨⟩

theorem cons_request {clock : Nat} {query : Query} {reply : Reply}
    (hrun : Heeds hash interval budget time attempts run) (hclock : clock ≤ time)
    (hhears : time < run.resumesAt run.history →
      run.scenario.clock = run.resumesAt run.history ∧
        (∀ outcome, Settles reply outcome → run.value = outcome) ∧
        (IsPending reply → run.value = .error (if attempts = 0
          then .confirmationTimeout hash (interval * budget) else .cancelled hash))) :
    Heeds hash interval budget time (attempts + 1)
      (run.after [⟨clock, .request query, reply⟩]) := by
  refine hrun.cons rfl ?_ ?_ ?_
  · rintro query ⟨⟩
    exact hclock
  · rintro length ⟨⟩
  · rintro query reply ⟨⟩ _
    exact hhears

end Heeds

/-- Once the switch is on, a wait ends with the answer it has, at this moment. -/
theorem run_resumePoll_of_cancelled (respond : Responder σ) {scenario : Scenario σ}
    (hcancelled : scenario.switch.cancelled = true) (chain : UInt64) (hash : String)
    (interval budget attempts : Nat) (reply : Reply) :
    let run := run respond (resumePoll chain hash interval budget attempts (Look.ofReply reply))
      scenario
    run.scenario = scenario ∧ (∀ outcome, Settles reply outcome → run.value = outcome) ∧
      (IsPending reply → run.value = .error (if attempts = 0
        then .confirmationTimeout hash (interval * budget) else .cancelled hash)) ∧
      ∀ event ∈ run.history, event.time = scenario.clock ∧ event.query? = none := by
  intro run
  rcases isPending_or_settles reply with hpending | ⟨outcome, hsettles⟩
  · have hunsettled : ∀ outcome, Settles reply outcome → run.value = outcome :=
      fun outcome hsettles => absurd hpending hsettles.not_isPending
    by_cases hlast : attempts = 0
    · have hrun : run = ⟨.error (.confirmationTimeout hash (interval * budget)), [], scenario⟩ := by
        subst hlast
        simp only [run, ofReply_of_isPending hpending]
        rfl
      rw [hrun] at hunsettled ⊢
      exact ⟨rfl, hunsettled, fun _ => by rw [if_pos hlast], List.forall_mem_nil _⟩
    · have hpaused : scenario.paused respond interval = scenario := by
        simp [paused, perform, Switch.watch_of_cancelled _ _ _ hcancelled]
      have hrun : run = ⟨.error (.cancelled hash), [⟨scenario.clock, .pause interval, true⟩],
          scenario⟩ := by
        simp only [run, ofReply_of_isPending hpending, resumePoll, if_neg hlast]
        rw [run_pause, hpaused, hcancelled]
        rfl
      rw [hrun] at hunsettled ⊢
      refine ⟨rfl, hunsettled, fun _ => by rw [if_neg hlast], ?_⟩
      rw [List.forall_mem_singleton]
      exact ⟨rfl, rfl⟩
  · have hrun : run = ⟨outcome, [], scenario⟩ := by
      simp only [run, ofReply_of_settles hsettles]
      cases outcome <;> rfl
    rw [hrun]
    exact ⟨rfl, fun other hother => hsettles.unique hother,
      fun hpending => absurd hpending hsettles.not_isPending, List.forall_mem_nil _⟩

theorem heeds_resumePoll {respond : Responder σ} {scenario : Scenario σ} {time attempts : Nat}
    (hturns : scenario.switch.TurnsOn scenario.clock time)
    (hrest : ∀ {later : Scenario σ}, later.switch.TurnsOn later.clock time →
      Heeds hash interval budget time attempts
        (run respond (pollReceipt chain hash interval budget attempts).run later))
    (look : Look) :
    Heeds hash interval budget time attempts
      (run respond (resumePoll chain hash interval budget attempts look) scenario) := by
  cases look with
  | ready receipt => exact .of_lt (List.forall_mem_nil _)
  | fatal error => exact .of_lt (List.forall_mem_nil _)
  | pending =>
      rw [resumePoll]
      split
      · exact hrest hturns
      have hdeadline : scenario.clock ≤ scenario.clock + interval := Nat.le_add_right _ _
      rw [run_pause]
      by_cases hends : time < scenario.clock + interval
      · -- the switch is turned on during the pause
        obtain ⟨hclock, hcancelled⟩ := hturns.watch_ends hends
        rw [if_pos (show (scenario.paused respond interval).switch.cancelled = true from
          hcancelled)]
        exact (Heeds.of_lt (List.forall_mem_nil _)).cons_pause fun _ _ => ⟨rfl, hclock⟩
      · -- nobody has cancelled the wait when the pause is over
        obtain ⟨hclock, hlater⟩ := hturns.watch_lasts hdeadline (Nat.le_of_not_lt hends)
        have hnext : (scenario.paused respond interval).switch.TurnsOn
            (scenario.paused respond interval).clock time := by
          rw [show (scenario.paused respond interval).clock = _ from hclock]
          exact hlater
        rw [hnext.off]
        exact (hrest hnext).cons_pause fun _ htime => absurd htime hends

theorem heeds_pollReceipt {respond : Responder σ} {scenario : Scenario σ} {time : Nat}
    (hturns : scenario.switch.TurnsOn scenario.clock time) (attempts : Nat) :
    Heeds hash interval budget time attempts
      (run respond (pollReceipt chain hash interval budget attempts).run scenario) := by
  induction attempts generalizing scenario with
  | zero => exact .of_lt (List.forall_mem_nil _)
  | succ attempts ih =>
      rw [run_pollReceipt_succ, run_isCancelled, hturns.off]
      refine Heeds.cons_isCancelled ?_
      change Heeds _ _ _ _ _ (run respond (.perform (.request (.receipt chain hash))
        fun (reply : Reply) => resumePoll chain hash interval budget attempts
          (Look.ofReply reply)) scenario)
      rw [run_request]
      have hasked : scenario.clock ≤ (scenario.asked respond (.receipt chain hash)).clock :=
        Nat.le_add_right _ _
      by_cases hlate : time < (scenario.asked respond (.receipt chain hash)).clock
      · -- the switch is turned on while the request is under way
        have hcancelled : (scenario.asked respond (.receipt chain hash)).switch.cancelled = true :=
          hturns.cancelled_pass hlate
        obtain ⟨hend, hsettled, hpending, hhistory⟩ :=
          run_resumePoll_of_cancelled respond hcancelled chain hash interval budget attempts
            (respond scenario.node (.receipt chain hash)).reply
        refine (Heeds.of_lt fun event hevent => ?_).cons_request hturns.le fun _ => ?_
        · rw [(hhistory event hevent).1]
          exact ⟨hlate, (hhistory event hevent).2⟩
        · rw [resumesAt_history]
          exact ⟨congrArg _ hend, hsettled, hpending⟩
      · have hnext := hturns.pass hasked (Nat.le_of_not_lt hlate)
        refine (heeds_resumePoll hnext ih _).cons_request hturns.le fun htime => ?_
        rw [resumesAt_history] at htime
        exact absurd htime hlate

/-- A wait heeds its switch. If the switch is on from the start nothing is asked. If it is
turned on at some time and stays on, then nothing is asked after this time, a pause that lasts
beyond it ends there, and a request that is under way is the last and is heard. If it is
never on, the wait does the same, at the same times, as one that nobody can cancel. -/
theorem heeds_receipt_poll (respond : Responder σ) (scenario : Scenario σ) (chain : UInt64)
    (hash : String) (interval budget : Nat) :
    let run := run respond ((Confirmation.poll interval budget).receipt chain hash).run
    (scenario.switch.cancelled = true →
        (run scenario).queries = [] ∧ (run scenario).scenario = scenario ∧
        (budget ≠ 0 → (run scenario).value = .error (.cancelled hash))) ∧
    (∀ time, scenario.switch.TurnsOn scenario.clock time →
        Heeds hash interval budget time budget (run scenario)) ∧
    (scenario.switch.IsSilent scenario.clock →
        run scenario.unwatched =
          { run scenario with scenario := (run scenario).scenario.unwatched }) := by
  refine ⟨fun hcancelled => ?_, fun time hturns => heeds_pollReceipt hturns budget,
    fun hsilent => run_unwatched hsilent _⟩
  simp only [Confirmation.receipt]
  cases budget with
  | zero => exact ⟨rfl, rfl, fun hbudget => absurd rfl hbudget⟩
  | succ attempts =>
      rw [run_pollReceipt_succ, run_isCancelled, hcancelled]
      exact ⟨rfl, rfl, fun _ => rfl⟩

/-- Waits in which each look takes 5 milliseconds and finds the same. They are cancelled from
the start, in the third pause, during the first request, or not at all: the switch is set to
false and then abandoned. -/
theorem heeds_receipt_poll_at_each_stage :
    let unknown : Reply := .ok (.object
      [("error", .object
        [("code", .number "4003"), ("message", .string "transaction not found")])])
    let found : Reply := .ok (.object
      [("result", .object
        [("status", .number "1"), ("transactionHash", .string "0xab"),
          ("gasUsed", .string "21000")])])
    let refused : Reply := .ok (.object
      [("error", .object [("code", .number "2001"), ("message", .string "nonce too low")])])
    let wait := fun (budget : Nat) (answer : Reply) (switch : Switch) =>
      run (recite (fun _ => answer) fun _ => 5)
        ((Confirmation.poll 1000 budget).receipt 7 "0xab").run ⟨0, 0, none, switch⟩
    let turned := fun time : Nat => Switch.mk false [(1, .set false), (time, .set true)]
    let abandoned := Switch.mk false [(1, .set false), (2, .abandon)]
    ((wait 5 found ⟨true, []⟩).queries = [] ∧
      (wait 5 found ⟨true, []⟩).value = .error (.cancelled "0xab")) ∧
    (Heeds "0xab" 1000 5 2500 5 (wait 5 unknown (turned 2500)) ∧
      (wait 5 unknown (turned 2500)).queries = List.replicate 3 (.receipt 7 "0xab") ∧
      (wait 5 unknown (turned 2500)).value = .error (.cancelled "0xab") ∧
      (wait 5 unknown (turned 2500)).scenario.clock = 2500) ∧
    ((wait 5 found (turned 2)).value = .ok ⟨.null, [], 1, "0xab", 0, "21000", "", "", "", ""⟩ ∧
      (wait 5 refused (turned 2)).value = .error (.chain 2001 "nonce too low") ∧
      (wait 5 unknown (turned 2)).value = .error (.cancelled "0xab") ∧
      (wait 5 unknown (turned 2)).scenario.clock = 5 ∧
      (wait 1 unknown (turned 2)).value = .error (.confirmationTimeout "0xab" 1000)) ∧
    (wait 5 unknown abandoned).queries = (wait 5 unknown .untouched).queries ∧
      (wait 5 unknown abandoned).value = (wait 5 unknown .untouched).value := by
  intro unknown found refused wait turned abandoned
  have hturns : ∀ time, 1 ≤ time → (turned time).TurnsOn 0 time :=
    fun time htime => Switch.turnsOn_set_set (Nat.zero_le 1) htime
  have hsilent : abandoned.IsSilent 0 := by
    refine ⟨rfl, fun time _ => ?_⟩
    rw [Switch.saysAt_set, Switch.saysAt_abandon, ite_self]
  have hunknown : IsPending unknown := isPending_unknown _
  have hfound : Settles found (.ok ⟨.null, [], 1, "0xab", 0, "21000", "", "", "", ""⟩) :=
    settles_success _ _
  have hrefused : Settles refused (.error (.chain 2001 "nonce too low")) := settles_refusal _
  have hheeds : ∀ budget answer time, 1 ≤ time →
      Heeds "0xab" 1000 budget time budget (wait budget answer (turned time)) :=
    fun budget answer time htime => (heeds_receipt_poll (recite (fun _ => answer) fun _ => 5)
      ⟨0, 0, none, turned time⟩ 7 "0xab" 1000 budget).2.1 time (hturns time htime)
  refine ⟨?_, ?_, ?_, ?_⟩
  · obtain ⟨hasked, -, hvalue⟩ := (heeds_receipt_poll (recite (fun _ => found) fun _ => 5)
      ⟨0, 0, none, ⟨true, []⟩⟩ 7 "0xab" 1000 5).1 rfl
    exact ⟨hasked, hvalue (by decide)⟩
  · have hpaused := hheeds 5 unknown 2500 (by decide)
    obtain ⟨event, hevent, hpause, htime⟩ : ∃ event ∈ (wait 5 unknown (turned 2500)).history,
        event.pause? = some 1000 ∧ event.time = 2015 := by decide
    obtain ⟨hvalue, hclock⟩ := hpaused.pauses event hevent 1000 hpause (by omega) (by omega)
    exact ⟨hpaused, by decide, hvalue, hclock⟩
  · -- the first request, under way from 0 to 5, is the second event
    obtain ⟨-, hheard, -⟩ := (hheeds 5 found 2 (by decide)).hears [⟨0, .isCancelled, false⟩]
      ⟨0, .request _, found⟩ _ _ found rfl rfl (by decide) (by decide)
    obtain ⟨-, hfailed, -⟩ := (hheeds 5 refused 2 (by decide)).hears [⟨0, .isCancelled, false⟩]
      ⟨0, .request _, refused⟩ _ _ refused rfl rfl (by decide) (by decide)
    obtain ⟨hclock, -, hended⟩ := (hheeds 5 unknown 2 (by decide)).hears
      [⟨0, .isCancelled, false⟩] ⟨0, .request _, unknown⟩ _ _ unknown rfl rfl (by decide)
      (by decide)
    obtain ⟨-, -, hlast⟩ := (hheeds 1 unknown 2 (by decide)).hears [⟨0, .isCancelled, false⟩]
      ⟨0, .request _, unknown⟩ _ _ unknown rfl rfl (by decide) (by decide)
    exact ⟨hheard _ hfound, hfailed _ hrefused, hended hunknown, hclock, hlast hunknown⟩
  · have hsame := (heeds_receipt_poll (recite (fun _ => unknown) fun _ => 5)
      ⟨0, 0, none, abandoned⟩ 7 "0xab" 1000 5).2.2 hsilent
    have hparts : ∀ (first second : Run Nat (Except ClientError Receipt)) last,
        first = { second with scenario := last } →
          second.queries = first.queries ∧ second.value = first.value := by
      rintro first second last rfl
      exact ⟨rfl, rfl⟩
    exact hparts _ _ _ hsame

end ChainClient
