import ChainClient.Proofs.Manager.Polling
import ChainClient.Proofs.Signing

/-!
# Reserving a nonce

A submission reserves a nonce under the lock, does something with it, and releases the
lock with the nonce to keep. The reservation either goes on with a kept nonce, or asks
the node; if the node reports none, the lock is released at once.
-/

namespace ChainClient

open Node Operation Scenario

variable {σ α : Type}

namespace Scenario

/-- What the node reports of the nonce of an account, if the event is about one. -/
def Event.report? (event : Event) : Option (Except ClientError UInt64) :=
  match event.exchange? with
  | some (.account _ _, reply) => some (nonceOf reply)
  | _ => none

/-- The transaction that an event hands to the node. -/
def Event.submission? (event : Event) : Option SignedTransaction :=
  match event.exchange? with
  | some (.submit signed, _) => some signed
  | _ => none

theorem Event.report?_of_watches {chain : UInt64} {hash : String} {event : Event}
    (hwatches : watches chain hash event.effect) : event.report? = none := by
  obtain ⟨time, effect, answer⟩ := event
  cases effect with
  | request query =>
      obtain rfl : query = .receipt chain hash := hwatches
      rfl
  | _ => rfl

theorem Event.submission?_of_watches {chain : UInt64} {hash : String} {event : Event}
    (hwatches : watches chain hash event.effect) : event.submission? = none := by
  obtain ⟨time, effect, answer⟩ := event
  cases effect with
  | request query =>
      obtain rfl : query = .receipt chain hash := hwatches
      rfl
  | _ => rfl

end Scenario

/-- What comes of handing over a signed transaction. -/
def SignedTransaction.outcome (signed : SignedTransaction) (reply : Reply) :
    Except ClientError String :=
  match hashOf reply with
  | .ok hash => .ok hash
  | .error (.transport source) => .error (.submission signed.digestHex source)
  | .error error => .error error

theorem SignedTransaction.stops_outcome (signed : SignedTransaction) (reply : Reply) :
    Operation.stops (signed.outcome reply) = false := by
  unfold outcome
  split
  next => rfl
  next => rfl
  next error _ herror => exact stops_of_resultOf herror

namespace Manager

/-- The nonce that is known without asking the node. -/
def counted? (manager : Manager) (kept : Option UInt64) : Option UInt64 :=
  match manager.strategy with
  | .network => none
  | .batch => kept

/-! ## The nonce behind a nonce -/

theorem following_eq_ok_iff {nonce next : UInt64} :
    following nonce = .ok next ↔ next.toNat = nonce.toNat + 1 := by
  have hnonce := nonce.toNat_lt
  unfold following
  split
  next hbound =>
    have hsum : (nonce + 1).toNat = nonce.toNat + 1 := by
      rw [UInt64.toNat_add, UInt64.toNat_one, Nat.mod_eq_of_lt hbound]
    rw [Except.ok.injEq, ← UInt64.toNat_inj, hsum, eq_comm]
  next hbound =>
    refine iff_of_false (by simp) fun hnext => ?_
    have hlt := next.toNat_lt
    exact hbound (hnext ▸ hlt)

theorem following_of_lt {nonce : UInt64} (hbound : nonce.toNat < 2 ^ 64 - 1) :
    ∃ next : UInt64, following nonce = .ok next ∧ next.toNat = nonce.toNat + 1 := by
  have hsize : nonce.toNat + 1 < UInt64.size := by
    rw [UInt64.size]
    omega
  have hnext : following nonce = .ok (nonce + 1) := if_pos hsize
  exact ⟨nonce + 1, hnext, following_eq_ok_iff.mp hnext⟩

/-- Only the last nonce has none behind it. -/
theorem following_eq_error_iff {nonce : UInt64} {error : ClientError} :
    following nonce = .error error ↔ nonce.toNat = 2 ^ 64 - 1 ∧ error = .overflow := by
  have hnonce := nonce.toNat_lt
  rcases Nat.lt_or_ge nonce.toNat (2 ^ 64 - 1) with hbound | hlast
  · obtain ⟨next, hnext, -⟩ := following_of_lt hbound
    rw [hnext]
    exact iff_of_false (by simp) fun hlast => by omega
  · have hsize : ¬ nonce.toNat + 1 < UInt64.size := by
      rw [UInt64.size]
      omega
    rw [following, if_neg hsize, Except.error.injEq, eq_comm]
    exact (and_iff_right (by omega)).symm

/-! ## Operations that start with a reservation -/

/-- A nonce that is handed out, together with the nonce to keep after it. A manager that
counts cannot hand out the last nonce. -/
def handOut (manager : Manager) (kept : Option UInt64) (nonce : UInt64) :
    Except ClientError (UInt64 × Option UInt64) :=
  match manager.strategy with
  | .network => .ok (nonce, kept)
  | .batch => (following nonce).map fun next => (nonce, some next)

section HandOut

variable {manager : Manager} {kept : Option UInt64} {nonce : UInt64}

theorem handOut_network (hnetwork : manager.strategy = .network) :
    manager.handOut kept nonce = .ok (nonce, kept) := by
  rw [handOut, hnetwork]

theorem handOut_batch {next : UInt64} (hbatch : manager.strategy = .batch)
    (hnext : following nonce = .ok next) : manager.handOut kept nonce = .ok (nonce, some next) := by
  rw [handOut, hbatch, hnext]
  rfl

theorem handOut_eq_error_iff {error : ClientError} : manager.handOut kept nonce = .error error ↔
    manager.strategy = .batch ∧ nonce.toNat = 2 ^ 64 - 1 ∧ error = .overflow := by
  rw [← following_eq_error_iff]
  cases hstrategy : manager.strategy with
  | network => simp [handOut_network hstrategy]
  | batch =>
      cases hnext : following nonce with
      | ok next => simp [handOut_batch hstrategy hnext]
      | error other => simp [handOut, hstrategy, hnext, Except.map]

theorem nonce_of_handOut {reserved : UInt64 × Option UInt64}
    (hreserved : manager.handOut kept nonce = .ok reserved) : reserved.1 = nonce := by
  cases hstrategy : manager.strategy with
  | network =>
      rw [handOut_network hstrategy] at hreserved
      cases hreserved
      rfl
  | batch =>
      cases hnext : following nonce with
      | ok next =>
          rw [handOut_batch hstrategy hnext] at hreserved
          cases hreserved
          rfl
      | error error =>
          rw [handOut, hstrategy, hnext] at hreserved
          cases hreserved

/-- A manager that counts keeps the nonce behind the one that it hands out. -/
theorem next_of_handOut {reserved : UInt64 × Option UInt64} (hbatch : manager.strategy = .batch)
    (hreserved : manager.handOut kept nonce = .ok reserved) :
    ∃ next, reserved.2 = some next ∧ following nonce = .ok next := by
  cases hnext : following nonce with
  | ok next =>
      rw [handOut_batch hbatch hnext] at hreserved
      cases hreserved
      exact ⟨next, rfl, rfl⟩
  | error error =>
      rw [handOut, hbatch, hnext] at hreserved
      cases hreserved

/-- Whoever is handed a nonce was told one. -/
theorem exists_of_bind_handOut {reply : Reply} {reserved : UInt64 × Option UInt64}
    (hresult : (nonceOf reply).bind (manager.handOut kept) = .ok reserved) :
    ∃ nonce, nonceOf reply = .ok nonce ∧ manager.handOut kept nonce = .ok reserved := by
  cases hreport : nonceOf reply with
  | ok nonce =>
      rw [hreport] at hresult
      exact ⟨nonce, rfl, hresult⟩
  | error error =>
      rw [hreport] at hresult
      cases hresult

end HandOut

/-- Take the next nonce under the lock, together with the nonce to keep after it. The
lock stays taken unless there is no nonce to be had. -/
def reserve (manager : Manager) : Operation (UInt64 × Option UInt64) := do
  let kept ← acquire
  match ← attempt (manager.takeNonce kept) with
  | .error error =>
      release kept
      fail error
  | .ok reserved => pure reserved

theorem withNonce_eq_reserve (manager : Manager) (action : UInt64 → Operation α) :
    manager.withNonce action = (do
      let reserved ← manager.reserve
      let result ← attempt (action reserved.1)
      release reserved.2
      settle result) := by
  simp only [withNonce, reserve, bind_assoc]
  apply bind_congr
  intro kept
  apply bind_congr
  intro taken
  cases taken with
  | error error =>
      simp only [bind_assoc]
      rfl
  | ok reserved => rfl

theorem run_takeNonce (manager : Manager) (kept : Option UInt64) :
    (manager.takeNonce kept).run =
      match manager.counted? kept with
      | some nonce => .done (manager.handOut kept nonce)
      | none => .perform (.request (.account manager.chain manager.address)) fun reply =>
          .done ((nonceOf reply).bind (manager.handOut kept)) := by
  obtain ⟨keys, chain, strategy, confirmation⟩ := manager
  cases strategy with
  | network =>
      simp only [takeNonce, counted?, nonce_eq_request, bind_assoc, run_request_bind]
      congr 1
      funext reply
      cases nonceOf reply <;> rfl
  | batch =>
      cases kept with
      | some nonce =>
          simp only [takeNonce, counted?, handOut]
          cases following nonce <;> rfl
      | none =>
          simp only [takeNonce, counted?, nonce_eq_request, bind_assoc, run_request_bind]
          congr 1
          funext reply
          cases nonceOf reply with
          | error error => rfl
          | ok nonce =>
              simp only [Except.bind, handOut]
              change (settle (following nonce) >>= fun next => pure (nonce, some next)).run = _
              cases following nonce <;> rfl

/-- How an operation goes on from its reservation. Where there is no nonce for it, it
releases the lock with what was kept there. -/
def proceed (kept : Option UInt64) (next : UInt64 × Option UInt64 → Operation α) :
    Except ClientError (UInt64 × Option UInt64) → Program (Except ClientError α)
  | .ok reserved => (next reserved).run
  | .error error => .perform (.release kept) fun _ => .done (.error error)

/-- An operation that starts with a reservation, effect by effect. -/
theorem run_reserve_bind (manager : Manager) (next : UInt64 × Option UInt64 → Operation α) :
    (manager.reserve >>= next).run = .perform .acquire fun (kept : Option UInt64) =>
      match manager.counted? kept with
      | some nonce => proceed kept next (manager.handOut kept nonce)
      | none => .perform (.request (.account manager.chain manager.address)) fun (reply : Reply) =>
          proceed kept next ((nonceOf reply).bind (manager.handOut kept)) := by
  rw [reserve, bind_assoc, run_acquire_bind]
  refine congrArg (Program.perform _) (funext fun (kept : Option UInt64) => ?_)
  rw [bind_assoc, run_attempt_bind, run_takeNonce]
  cases manager.counted? kept with
  | some nonce =>
      simp only [Program.done_bind]
      cases manager.handOut kept nonce <;> rfl
  | none =>
      simp only [Program.perform_bind, Program.done_bind]
      congr 1
      funext reply
      cases (nonceOf reply).bind (manager.handOut kept) <;> rfl

theorem run_reserve (manager : Manager) :
    manager.reserve.run = .perform .acquire fun (kept : Option UInt64) =>
      match manager.counted? kept with
      | some nonce => proceed kept pure (manager.handOut kept nonce)
      | none => .perform (.request (.account manager.chain manager.address)) fun (reply : Reply) =>
          proceed kept pure ((nonceOf reply).bind (manager.handOut kept)) := by
  have hreserve := manager.run_reserve_bind pure
  rw [bind_pure] at hreserve
  exact hreserve

theorem run_signAndSend (manager : Manager) (transaction : Transaction) :
    (manager.signAndSend transaction).run =
      match transaction.sign manager.keys with
      | .error error => .done (.error (.signing error))
      | .ok signed => .perform (.request (.submit signed)) fun (reply : Reply) =>
          .done (signed.outcome reply) := by
  rw [signAndSend, sign]
  cases transaction.sign manager.keys with
  | error error => rfl
  | ok signed =>
      change (attempt (submit signed) >>= _).run = _
      rw [run_attempt_bind, submit_eq_request, run_request_bind, Program.perform_bind]
      congr 1
      funext (reply : Reply)
      simp only [SignedTransaction.outcome]
      rcases hashOf reply with error | hash
      · cases error <;> rfl
      · rfl

/-! ## Runs of a reservation -/

variable {respond : Responder σ} {manager : Manager} {scenario : Scenario σ}

/-- The question for the nonce that the node knows of. -/
def question (manager : Manager) : Query :=
  .account manager.chain manager.address

theorem run_reserve_of_counted {nonce : UInt64} {reserved : UInt64 × Option UInt64}
    (hcounted : manager.counted? scenario.kept = some nonce)
    (hreserved : manager.handOut scenario.kept nonce = .ok reserved) :
    run respond manager.reserve.run scenario =
      ⟨.ok reserved, [⟨scenario.clock, .acquire, scenario.kept⟩], scenario⟩ := by
  rw [run_reserve, run_acquire, hcounted]
  dsimp only
  rw [hreserved]
  rfl

/-- Where the count is at its end the lock is released as it was. -/
theorem run_reserve_of_counted_last {nonce : UInt64} {error : ClientError}
    (hcounted : manager.counted? scenario.kept = some nonce)
    (hlast : manager.handOut scenario.kept nonce = .error error) :
    run respond manager.reserve.run scenario =
      ⟨.error error,
        [⟨scenario.clock, .acquire, scenario.kept⟩,
          ⟨scenario.clock, .release scenario.kept, ()⟩],
        scenario⟩ := by
  rw [run_reserve, run_acquire, hcounted]
  dsimp only
  rw [hlast]
  rfl

theorem run_reserve_of_asked (hasked : manager.counted? scenario.kept = none) :
    run respond manager.reserve.run scenario =
      (run respond (proceed scenario.kept pure
          ((nonceOf (respond scenario.node manager.question).reply).bind
            (manager.handOut scenario.kept)))
        (scenario.asked respond manager.question)).after
          [⟨scenario.clock, .acquire, scenario.kept⟩,
            ⟨scenario.clock, .request manager.question,
              (respond scenario.node manager.question).reply⟩] := by
  rw [run_reserve, run_acquire, hasked]
  dsimp only
  rw [run_request]
  rfl

theorem run_reserve_of_reported {nonce : UInt64} {reserved : UInt64 × Option UInt64}
    (hasked : manager.counted? scenario.kept = none)
    (hreported : nonceOf (respond scenario.node manager.question).reply = .ok nonce)
    (hreserved : manager.handOut scenario.kept nonce = .ok reserved) :
    run respond manager.reserve.run scenario =
      ⟨.ok reserved,
        [⟨scenario.clock, .acquire, scenario.kept⟩,
          ⟨scenario.clock, .request manager.question,
            (respond scenario.node manager.question).reply⟩],
        scenario.asked respond manager.question⟩ := by
  rw [run_reserve_of_asked hasked, hreported, Except.bind, hreserved]
  rfl

theorem run_reserve_of_refused {error : ClientError}
    (hasked : manager.counted? scenario.kept = none)
    (hrefused : (nonceOf (respond scenario.node manager.question).reply).bind
      (manager.handOut scenario.kept) = .error error) :
    run respond manager.reserve.run scenario =
      ⟨.error error,
        [⟨scenario.clock, .acquire, scenario.kept⟩,
          ⟨scenario.clock, .request manager.question,
            (respond scenario.node manager.question).reply⟩,
          ⟨(scenario.asked respond manager.question).clock, .release scenario.kept, ()⟩],
        scenario.asked respond manager.question⟩ := by
  rw [run_reserve_of_asked hasked, hrefused]
  rfl

theorem run_withNonce_of_error {action : UInt64 → Operation α} {error : ClientError}
    (hreserved : (run respond manager.reserve.run scenario).value = .error error) :
    run respond (manager.withNonce action).run scenario =
      ⟨.error error, (run respond manager.reserve.run scenario).history,
        (run respond manager.reserve.run scenario).scenario⟩ := by
  rw [withNonce_eq_reserve, run_operation_bind, hreserved]
  simp only [Run.after, List.append_nil]

theorem run_withNonce_of_ok {action : UInt64 → Operation α} {nonce : UInt64}
    {next : Option UInt64}
    (hreserved : (run respond manager.reserve.run scenario).value = .ok (nonce, next)) :
    let reserved := run respond manager.reserve.run scenario
    let used := run respond (action nonce).run reserved.scenario
    run respond (manager.withNonce action).run scenario =
      ⟨used.value,
        reserved.history ++ (used.history ++ [⟨used.scenario.clock, .release next, ()⟩]),
        { used.scenario with kept := next }⟩ := by
  intro reserved used
  rw [withNonce_eq_reserve, run_operation_bind, hreserved]
  simp only [run_attempt_bind, run_bind, run_release_bind]
  rfl

theorem run_signAndSend_of_error {transaction : Transaction} {error : SigningError}
    (hsigned : transaction.sign manager.keys = .error error) :
    run respond (manager.signAndSend transaction).run scenario =
      ⟨.error (.signing error), [], scenario⟩ := by
  rw [run_signAndSend, hsigned]
  rfl

theorem run_signAndSend_of_ok {transaction : Transaction} {signed : SignedTransaction}
    (hsigned : transaction.sign manager.keys = .ok signed) :
    run respond (manager.signAndSend transaction).run scenario =
      ⟨signed.outcome (respond scenario.node (.submit signed)).reply,
        [⟨scenario.clock, .request (.submit signed),
          (respond scenario.node (.submit signed)).reply⟩],
        scenario.asked respond (.submit signed)⟩ := by
  rw [run_signAndSend, hsigned]
  rfl

/-- A submission whose transaction can be signed, from its reservation on. -/
theorem run_send_of_signed {request : Request} {nonce : UInt64} {next : Option UInt64}
    {signed : SignedTransaction}
    (hreserved : (run respond manager.reserve.run scenario).value = .ok (nonce, next))
    (hsigned : (manager.build request nonce).sign manager.keys = .ok signed) :
    let reserved := run respond manager.reserve.run scenario
    let submitted := reserved.scenario.asked respond (.submit signed)
    run respond (manager.send request).run scenario =
      ⟨signed.outcome (respond reserved.scenario.node (.submit signed)).reply,
        reserved.history ++
          [⟨reserved.scenario.clock, .request (.submit signed),
              (respond reserved.scenario.node (.submit signed)).reply⟩,
            ⟨submitted.clock, .release next, ()⟩],
        { submitted with kept := next }⟩ := by
  intro reserved submitted
  rw [send, run_withNonce_of_ok hreserved, run_signAndSend_of_ok hsigned]
  rfl

/-- What follows the submission of a transaction only looks for its receipt. -/
theorem uses_waitForReceipt_bind (hash : String) :
    (manager.waitForReceipt hash >>= confirm hash).run.Uses (watches manager.chain hash) := by
  rw [ExceptT.run_bind]
  refine (uses_receipt manager.confirmation).bind fun result => ?_
  cases result with
  | error error => trivial
  | ok receipt =>
      change (confirm hash receipt).run.Uses _
      unfold confirm
      split <;> trivial

theorem ends_waitForReceipt_bind (hash : String) :
    (manager.waitForReceipt hash >>= confirm hash).run.Ends fun value =>
      Operation.stops value = false := by
  rw [ExceptT.run_bind]
  refine (ends_receipt manager.confirmation).bind fun result hresult => ?_
  cases result with
  | error error => exact hresult
  | ok receipt =>
      change (confirm hash receipt).run.Ends _
      unfold confirm
      split <;> rfl

theorem run_execute_of_error {request : Request} {error : ClientError}
    (hsent : (run respond (manager.send request).run scenario).value = .error error) :
    run respond (manager.execute request).run scenario =
      ⟨.error error, (run respond (manager.send request).run scenario).history,
        (run respond (manager.send request).run scenario).scenario⟩ := by
  rw [execute, run_operation_bind, hsent]
  simp only [Run.after, List.append_nil]

theorem run_execute_of_ok {request : Request} {hash : String}
    (hsent : (run respond (manager.send request).run scenario).value = .ok hash) :
    run respond (manager.execute request).run scenario =
      (run respond (manager.waitForReceipt hash >>= confirm hash).run
        (run respond (manager.send request).run scenario).scenario).after
          (run respond (manager.send request).run scenario).history := by
  rw [execute, run_operation_bind, hsent]

theorem run_execute_of_waited {request : Request} {hash : String} {events later : List Event}
    {sent final : Scenario σ} {value : Except ClientError Receipt}
    (hsent : run respond (manager.send request).run scenario = ⟨.ok hash, events, sent⟩)
    (hwaited : run respond (manager.waitForReceipt hash >>= confirm hash).run sent =
      ⟨value, later, final⟩) :
    run respond (manager.execute request).run scenario = ⟨value, events ++ later, final⟩ := by
  rw [run_execute_of_ok (congrArg Run.value hsent), hsent, hwaited]
  rfl

end Manager

end ChainClient
