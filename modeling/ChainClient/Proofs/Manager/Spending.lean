import ChainClient.Proofs.Manager.Agreement

/-!
# Nonces are used up

A manager of the counting strategy moves its count on when it takes a nonce, before it
signs or sends anything. So a nonce whose transaction is rejected is not taken again: it
is left out, until the count is reset. Between two accepted transactions one nonce is left
out for every call between them that brought no transaction to be accepted.
-/

namespace ChainClient

open Node Operation Scenario

variable {σ : Type}

namespace Turn

/-- A call has handed over the transaction, and the node has answered with a name for it,
whatever has become of the call afterwards. -/
def Accepts (turn : Turn) (signed : SignedTransaction) : Prop :=
  ∃ event ∈ turn.history, ∃ reply hash,
    event.exchange? = some (.submit signed, reply) ∧ Names reply hash

/-- A call has taken a nonce for nothing: its transaction could not be signed, or the node
answered with an error code. -/
structure Rejects (turn : Turn) (nonce : UInt64) : Prop where
  taken : turn.nonce? = some nonce
  refused : (∃ error, turn.answer = .error (.signing error)) ∨
    ∃ code message, turn.answer = .error (.chain code message)

theorem Accepts.mem_submissions {turn : Turn} {signed : SignedTransaction}
    (haccepts : turn.Accepts signed) : signed ∈ turn.submissions := by
  obtain ⟨event, hevent, reply, -, hexchange, -⟩ := haccepts
  refine List.mem_filterMap.mpr ⟨event, hevent, ?_⟩
  rw [Event.submission?, hexchange]

end Turn

/-- Each call uses up the nonce that it takes. -/
structure UsesUp (manager : Manager) (turns : List Turn) : Prop where
  /-- The call behind a rejected transaction goes on with the nonce behind, without asking. -/
  rejected : ∀ before turn next after nonce, turns = before ++ turn :: next :: after →
    turn.Rejects nonce → nonce.toNat + 1 < 2 ^ 64 - 1 →
      next.reports = [] ∧ ∃ later, later.toNat = nonce.toNat + 1 ∧ next.nonce? = some later ∧
        next.call.Spends manager later next.answer next.submissions
  /-- The nonces of two accepted transactions are one farther apart than there are calls
  between them, so that they are consecutive only if there is none. -/
  accepted : ∀ before earlier between later after first last,
    turns = before ++ earlier :: (between ++ later :: after) →
    earlier.Accepts first → later.Accepts last →
      last.transaction.nonce.toNat = first.transaction.nonce.toNat + (between.length + 1)

namespace Counts

variable {manager : Manager} {kept : Option UInt64} {turns before between after : List Turn}
  {turn earlier later : Turn} {nonce : UInt64}

/-- Whatever has become of a nonce, the calls behind count from the one that follows it. -/
theorem tail_of_taken (hcounts : Counts manager kept (turn :: turns))
    (hnonce : turn.nonce? = some nonce) :
    ∃ next, Manager.following nonce = .ok next ∧ Counts manager (some next) turns := by
  cases hcounts with
  | refused hrefused hturn hlasts hforgotten hrest => cases hturn.unspent.symm.trans hnonce
  | reported hreported hturn hnext hrest =>
      obtain rfl := Option.some.inj (hturn.taken.symm.trans hnonce)
      exact ⟨_, hnext, hrest⟩
  | counted hunasked hturn hnext hrest =>
      obtain rfl := Option.some.inj (hturn.taken.symm.trans hnonce)
      exact ⟨_, hnext, hrest⟩
  | reportedLast hreported hlast hturn => cases hturn.unspent.symm.trans hnonce
  | countedLast hunasked hlast hturn => cases hturn.unspent.symm.trans hnonce

/-- A call takes the nonce that is as far behind an earlier one as the call is, unless that
is the last one. -/
theorem takes_behind
    (hcounts : Counts manager kept (before ++ earlier :: (between ++ later :: after)))
    (hnonce : earlier.nonce? = some nonce) :
    later.reports = [] ∧
      ((∃ taken : UInt64, taken.toNat = nonce.toNat + (between.length + 1) ∧
          later.Takes manager taken) ∨
        nonce.toNat + (between.length + 1) = 2 ^ 64 - 1 ∧ later.nonce? = none) := by
  obtain ⟨kept, hcounts⟩ := hcounts.drop
  obtain ⟨next, hnext, hrest⟩ := hcounts.tail_of_taken hnonce
  obtain ⟨hreports, -, hends⟩ := hrest.of_kept
  rw [Manager.following_eq_ok_iff.mp hnext, Nat.add_assoc, Nat.add_comm 1] at hends
  exact ⟨hreports, hends.imp_right fun hend => ⟨hend.1, hend.2.1.unspent⟩⟩

theorem usesUp (hcounts : Counts manager kept turns) : UsesUp manager turns where
  rejected := by
    rintro before turn next after nonce rfl hrejected hbound
    have hcounts : Counts manager kept (before ++ turn :: ([] ++ next :: after)) := hcounts
    obtain ⟨hreports, ⟨later, hlater, htakes⟩ | ⟨hlast, -⟩⟩ :=
      hcounts.takes_behind hrejected.taken
    · exact ⟨hreports, later, hlater, htakes.taken, htakes.spends_submissions⟩
    · rw [List.length_nil] at hlast
      omega
  accepted := by
    rintro before earlier between later after first last rfl hfirst hlast
    have hearlier : earlier.nonce? = some first.transaction.nonce :=
      hcounts.nonce?_of_mem_submissions (by simp) hfirst.mem_submissions
    have hlater : later.nonce? = some last.transaction.nonce :=
      hcounts.nonce?_of_mem_submissions (by simp) hlast.mem_submissions
    obtain ⟨-, ⟨taken, htaken, htakes⟩ | ⟨-, hnone⟩⟩ := hcounts.takes_behind hearlier
    · rw [← htaken, Option.some.inj (hlater.symm.trans htakes.taken)]
    · cases hlater.symm.trans hnone

end Counts

/-- What the node refuses with an error code is told as such. -/
theorem SignedTransaction.outcome_of_refused (signed : SignedTransaction) {reply : Reply}
    {code : Int64} {message : String} (hrefused : hashOf reply = .error (.chain code message)) :
    signed.outcome reply = .error (.chain code message) := by
  rw [outcome, hrefused]

theorem SignedTransaction.outcome_of_names (signed : SignedTransaction) {reply : Reply}
    {hash : String} (hnames : Names reply hash) : signed.outcome reply = .ok hash := by
  rw [outcome, hashOf_eq_ok_iff.mpr hnames]

namespace Manager

/-- Without a reset between, the call behind a rejected transaction takes the nonce behind
that of the transaction, and does not ask the node; and accepted transactions are as far
apart in their nonces as in the session. -/
theorem usesUp_turns {manager : Manager} (hbatch : manager.strategy = .batch)
    (respond : Responder σ) {calls : List Call} (hneeds : ∀ call ∈ calls, call.isReset = false)
    (scenario : Scenario σ) : UsesUp manager (manager.turns respond calls scenario) :=
  (counts_turns hbatch hneeds scenario).usesUp

/-! ### Payments that the node refuses -/

def payer : Manager :=
  ⟨.one, 1, .batch, .poll 1000 3⟩

def accountReply (nonce : String) : Reply :=
  .ok (.object [("result", .object [("nonce", .string nonce)])])

def namedReply : Reply :=
  .ok (.object [("result", .object [("TXhash", .string "0x12")])])

def refusal : Reply :=
  .ok (.object [("error", .object [("code", .number "2001"),
    ("message", .string "nonce too low")])])

/-- The receipt of a transaction that was accepted, and has failed. -/
def failureReply : Reply :=
  .ok (.object [("result", .object [("status", .number "0"), ("gasUsed", .string "21000")])])

/-- A nonce that is kept, if there is one, and a node with answers to come. -/
def paying (kept : Option UInt64) (queue : List Reply) : Scenario Script :=
  ⟨⟨queue, none⟩, 0, kept, .untouched⟩

/-- A node that knows the nonce 7, and refuses the first transaction. -/
def refusing : Scenario Script :=
  paying none [accountReply "7", refusal]

theorem hashOf_refusal : hashOf refusal = .error (.chain 2001 "nonce too low") := by
  decide +kernel

theorem names_namedReply : Names namedReply "0x12" := by
  refine hashOf_eq_ok_iff.mp ?_
  decide +kernel

section Paying

variable {signed : SignedTransaction} {nonce next : UInt64} {queue : List Reply} {reply : Reply}

theorem run_reserve_paying (hnext : following nonce = .ok next) :
    run Script.respond payer.reserve.run (paying (some nonce) queue) =
      ⟨.ok (nonce, some next), [⟨0, .acquire, some nonce⟩], paying (some nonce) queue⟩ :=
  run_reserve_of_counted rfl (handOut_batch rfl hnext)

theorem run_reserve_asking {text : String}
    (hnonce : Node.lenientUInt64? (.string text) = some nonce)
    (hnext : following nonce = .ok next) :
    run Script.respond payer.reserve.run (paying none (accountReply text :: queue)) =
      ⟨.ok (nonce, some next),
        [⟨0, .acquire, none⟩, ⟨0, .request payer.question, accountReply text⟩],
        paying none queue⟩ := by
  have hreported : nonceOf (Script.respond (paying none (accountReply text :: queue)).node
      payer.question).reply = .ok nonce := nonceOf_string hnonce
  rw [run_reserve_of_reported rfl hreported (handOut_batch rfl hnext)]
  rfl

theorem run_send_paying (hnext : following nonce = .ok next)
    (hsigned : (Transaction.payment nonce).sign .one = .ok signed) :
    run Script.respond (payer.send (.transfer .zero 5)).run (paying (some nonce) (reply :: queue)) =
      ⟨signed.outcome reply,
        [⟨0, .acquire, some nonce⟩, ⟨0, .request (.submit signed), reply⟩,
          ⟨0, .release (some next), ()⟩],
        paying (some next) queue⟩ := by
  have hreserved : run Script.respond payer.reserve.run
      (paying (some nonce) (reply :: queue)) = _ := run_reserve_paying hnext
  have hbuilt : (payer.build (.transfer .zero 5) nonce).sign payer.keys = .ok signed := hsigned
  rw [run_send_of_signed (congrArg Run.value hreserved) hbuilt, hreserved]
  rfl

theorem run_send_asking {text : String} (hnonce : Node.lenientUInt64? (.string text) = some nonce)
    (hnext : following nonce = .ok next)
    (hsigned : (Transaction.payment nonce).sign .one = .ok signed) :
    run Script.respond (payer.send (.transfer .zero 5)).run
        (paying none (accountReply text :: reply :: queue)) =
      ⟨signed.outcome reply,
        [⟨0, .acquire, none⟩, ⟨0, .request payer.question, accountReply text⟩,
          ⟨0, .request (.submit signed), reply⟩, ⟨0, .release (some next), ()⟩],
        paying (some next) queue⟩ := by
  have hreserved : run Script.respond payer.reserve.run
      (paying none (accountReply text :: reply :: queue)) = _ := run_reserve_asking hnonce hnext
  have hbuilt : (payer.build (.transfer .zero 5) nonce).sign payer.keys = .ok signed := hsigned
  rw [run_send_of_signed (congrArg Run.value hreserved) hbuilt, hreserved]
  rfl

end Paying

theorem lenientUInt64?_seven : Node.lenientUInt64? (.string "7") = some 7 := by
  decide +kernel

theorem following_seven : following 7 = .ok 8 := by decide

theorem following_eight : following 8 = .ok 9 := by decide

open Transaction (firstPayment thirdPayment)

/-- The payment has the nonce 7, but the nonce after its rejection is not 7 again. -/
theorem nextNonce_ne_rejected :
    let sent := run Script.respond (payer.send (.transfer .zero 5)).run refusing
    let next := run Script.respond payer.nextNonce.run sent.scenario
    sent.value = .error (.chain 2001 "nonce too low") ∧
      (sent.history.filterMap Event.submission?).map (·.transaction.nonce) = [7] ∧
      next.value = .ok 8 ∧ next.value ≠ .ok 7 := by
  intro sent next
  have hsent : sent = _ :=
    run_send_asking lenientUInt64?_seven following_seven Transaction.sign_payment
  have hreserved : (run Script.respond payer.reserve.run sent.scenario).value =
      .ok (8, some 9) := by
    rw [hsent]
    exact congrArg Run.value (run_reserve_paying following_eight)
  have hnext : next.value = .ok 8 := congrArg Run.value (run_withNonce_of_ok hreserved)
  refine ⟨?_, ?_, hnext, ?_⟩
  · rw [hsent]
    exact firstPayment.outcome_of_refused hashOf_refusal
  · rw [hsent]
    rfl
  · rw [hnext]
    simp

/-- The wait of an execution whose receipt reports a failure. -/
theorem run_wait_failure (kept : Option UInt64) (queue : List Reply) :
    ∃ events, run Script.respond (payer.waitForReceipt "0x12" >>= confirm "0x12").run
        (paying kept (failureReply :: queue)) =
      ⟨.error (.reverted "0x12" 0 "21000" "N/A"), events, paying kept queue⟩ :=
  ⟨_, rfl⟩

/-- An execution that is accepted and fails, a payment that is rejected, and one that is
accepted. -/
def attempts : List Call :=
  [.execute (.transfer .zero 5), .send (.transfer .zero 5), .send (.transfer .zero 5)]

def replies : List Reply :=
  [accountReply "7", namedReply, failureReply, refusal, namedReply]

section Turn

variable {respond : Responder σ} {manager : Manager} {scenario : Scenario σ} {request : Request}

theorem answer_turn_send : (manager.turn respond scenario (.send request)).answer =
    (run respond (manager.send request).run scenario).value := rfl

theorem answer_turn_execute : (manager.turn respond scenario (.execute request)).answer =
    (run respond (manager.execute request).run scenario).value := rfl

theorem accepts_of_run {call : Call} {value : Except ClientError call.Answer} {events : List Event}
    {after : Scenario σ} {signed : SignedTransaction} {time : Nat} {reply : Reply} {hash : String}
    (hrun : run respond (call.operation manager).run scenario = ⟨value, events, after⟩)
    (hmem : ⟨time, .request (.submit signed), reply⟩ ∈ events) (hnames : Names reply hash) :
    (manager.turn respond scenario call).Accepts signed := by
  refine ⟨⟨time, .request (.submit signed), reply⟩, ?_, reply, hash, rfl, hnames⟩
  rw [history_turn, hrun]
  exact hmem

end Turn

theorem run_execute_paying : ∃ events,
    run Script.respond (payer.execute (.transfer .zero 5)).run (paying none replies) =
        ⟨.error (.reverted "0x12" 0 "21000" "N/A"), events, paying (some 8) [refusal, namedReply]⟩ ∧
      ⟨0, .request (.submit firstPayment), namedReply⟩ ∈ events := by
  have hsent : run Script.respond (payer.send (.transfer .zero 5)).run (paying none replies) = _ :=
    @run_send_asking firstPayment 7 8 [failureReply, refusal, namedReply] namedReply "7"
      lenientUInt64?_seven following_seven Transaction.sign_payment
  rw [firstPayment.outcome_of_names names_namedReply] at hsent
  obtain ⟨events, hwaited⟩ := run_wait_failure (some 8) [refusal, namedReply]
  exact ⟨_, run_execute_of_waited hsent hwaited,
    List.mem_append_left _ (.tail _ (.tail _ (.head _)))⟩

/-- The execution is accepted with the nonce 7 though it ends with an error, and the last
payment with 9, because the one between them has used up 8. -/
theorem usesUp_turns_refusing :
    let turns := payer.turns Script.respond attempts (paying none replies)
    ∃ first second third, turns = [first, second, third] ∧
      first.Accepts firstPayment ∧
      first.answer = .error (.reverted "0x12" 0 "21000" "N/A") ∧
      second.Rejects 8 ∧
      third.Accepts thirdPayment ∧ third.nonce? = some 9 ∧ third.reports = [] ∧
      UsesUp payer turns ∧
      thirdPayment.transaction.nonce.toNat = firstPayment.transaction.nonce.toNat + 2 := by
  intro turns
  have huses : UsesUp payer turns :=
    usesUp_turns rfl Script.respond (by simp [attempts, Call.isReset]) (paying none replies)
  obtain ⟨events, hexecuted, hmem⟩ := run_execute_paying
  have hrefused := @run_send_paying _ 8 9 [namedReply] refusal following_eight
    Transaction.sign_nextPayment
  have hnamed := @run_send_paying thirdPayment 9 10 [] namedReply (by decide)
    Transaction.sign_lastPayment
  rw [SignedTransaction.outcome_of_refused _ hashOf_refusal] at hrefused
  rw [thirdPayment.outcome_of_names names_namedReply] at hnamed
  let first := payer.turn Script.respond (paying none replies) (.execute (.transfer .zero 5))
  let second := payer.turn Script.respond (paying (some 8) [refusal, namedReply])
    (.send (.transfer .zero 5))
  let third := payer.turn Script.respond (paying (some 9) [namedReply]) (.send (.transfer .zero 5))
  have hturns : turns = [first, second, third] := by
    have hbehind : ∀ calls, payer.turns Script.respond (.execute (.transfer .zero 5) :: calls)
        (paying none replies) = first :: _ := turns_cons_of_run hexecuted rfl
    have hlater : ∀ calls, payer.turns Script.respond (.send (.transfer .zero 5) :: calls)
        (paying (some 8) [refusal, namedReply]) = second :: _ := turns_cons_of_run hrefused rfl
    have hlast : ∀ calls, payer.turns Script.respond (.send (.transfer .zero 5) :: calls)
        (paying (some 9) [namedReply]) = third :: _ := turns_cons_of_run hnamed rfl
    exact (hbehind _).trans (congrArg _ ((hlater _).trans (congrArg _ (hlast []))))
  have hfirst : first.Accepts firstPayment := accepts_of_run hexecuted hmem names_namedReply
  have hreverted : first.answer = .error (.reverted "0x12" 0 "21000" "N/A") :=
    answer_turn_execute.trans (congrArg Run.value hexecuted)
  have hreserved : (run Script.respond payer.reserve.run
      (paying (some 8) [refusal, namedReply])).value = .ok (8, some 9) :=
    congrArg Run.value (run_reserve_paying following_eight)
  have hsecond : second.Rejects 8 := by
    refine ⟨?_, .inr ⟨2001, "nonce too low",
      answer_turn_send.trans (congrArg Run.value hrefused)⟩⟩
    exact (turn_takes rfl hreserved (by rw [run_reserve_paying following_eight]; rfl)).taken
  have hthird : third.Accepts thirdPayment :=
    accepts_of_run hnamed (.tail _ (.head _)) names_namedReply
  obtain ⟨hreports, later, hlater, hnext, -⟩ :=
    huses.rejected [first] second third [] 8 hturns hsecond (by decide)
  have hsum := huses.accepted [] first [second] third [] firstPayment thirdPayment hturns hfirst
    hthird
  obtain rfl : later = 9 := UInt64.toNat_inj.mp hlater
  exact ⟨first, second, third, hturns, hfirst, hreverted, hsecond, hthird, hnext, hreports, huses,
    hsum⟩

end Manager

end ChainClient
