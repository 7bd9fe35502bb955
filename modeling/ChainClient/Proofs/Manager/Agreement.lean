import ChainClient.Proofs.Lenient
import ChainClient.Proofs.Manager.Tasks

/-!
# Counting agrees with asking

Where nobody else sends from an account, its nonce is the number of transactions that the
node has accepted since some start. A manager that counts nonces itself then takes the
nonces that it would be told if it asked every time. So it hands over the same signed
transactions as a manager that asks, and asks only once.
-/

namespace ChainClient

open Node Operation Scenario Text

variable {σ : Type}

namespace Scenario

/-- The node reports as the nonce of an account how many transactions it has accepted,
from some start on, and accepts every transaction. -/
structure Responder.Tallies (respond : Responder σ) (question : Query) (start : Nat)
    (accepted : σ → Nat) : Prop where
  reported : ∀ node, start + accepted node < 2 ^ 64 →
    nonceOf (respond node question).reply = .ok (.ofNat (start + accepted node))
  accepted_question : ∀ node, accepted (respond node question).node = accepted node
  accepted_submit : ∀ node signed,
    accepted (respond node (.submit signed)).node = accepted node + 1
  accepted_receipt : ∀ node chain hash,
    accepted (respond node (.receipt chain hash)).node = accepted node

end Scenario

/-- The signed transaction of a call that has taken a nonce. -/
def Call.signed? (manager : Manager) (nonce : UInt64) : Call → Option SignedTransaction
  | send request | execute request => ((manager.build request nonce).sign manager.keys).toOption
  | nextNonce | resetNonce => none

theorem Call.signed?_congr {first second : Manager} (hkeys : first.keys = second.keys)
    (hchain : first.chain = second.chain) (nonce : UInt64) (call : Call) :
    call.signed? first nonce = call.signed? second nonce := by
  cases call with
  | send request | execute request =>
      rw [signed?, signed?, Manager.build, Manager.build, hkeys, hchain]
  | _ => rfl

theorem Call.Spends.eq_signed? {manager : Manager} {nonce : UInt64} {call : Call}
    {answer : Except ClientError call.Answer} {submissions : List SignedTransaction}
    (hspends : call.Spends manager nonce answer submissions) (hsubmits : call.Submits) :
    submissions = (call.signed? manager nonce).toList := by
  cases call with
  | send request | execute request => exact hspends
  | nextNonce | resetNonce => exact hsubmits.elim

theorem Call.Submits.isReset_eq {call : Call} (hsubmits : call.Submits) : call.isReset = false := by
  cases call with
  | resetNonce => exact hsubmits.elim
  | _ => rfl

namespace Manager

/-- The signed transactions of calls that take nonces without a gap. -/
def consecutive (manager : Manager) : (first : Nat) → List Call → List SignedTransaction
  | _, [] => []
  | first, call :: calls =>
      (call.signed? manager (.ofNat first)).toList ++ manager.consecutive (first + 1) calls

/-- The curve has a signature for each transaction of calls that take nonces without a gap. -/
def Signs (manager : Manager) : (first : Nat) → List Call → Prop
  | _, [] => True
  | first, call :: calls =>
      (call.signed? manager (.ofNat first)).isSome ∧ manager.Signs (first + 1) calls

theorem consecutive_congr {first second : Manager} (hkeys : first.keys = second.keys)
    (hchain : first.chain = second.chain) (start : Nat) (calls : List Call) :
    first.consecutive start calls = second.consecutive start calls := by
  induction calls generalizing start with
  | nil => rfl
  | cons call calls ih => rw [consecutive, consecutive, ih, Call.signed?_congr hkeys hchain]

theorem signs_congr {first second : Manager} (hkeys : first.keys = second.keys)
    (hchain : first.chain = second.chain) {start : Nat} {calls : List Call} :
    first.Signs start calls ↔ second.Signs start calls := by
  induction calls generalizing start with
  | nil => exact Iff.rfl
  | cons call calls ih => rw [Signs, Signs, ih, Call.signed?_congr hkeys hchain]

/-! ## One call -/

section Step

variable {respond : Responder σ} {manager : Manager} {start : Nat} {accepted : σ → Nat}
  {scenario : Scenario σ}

/-- A nonce that is known without asking is the one that the node would report. -/
def Knows (manager : Manager) (start : Nat) (accepted : σ → Nat) (scenario : Scenario σ) : Prop :=
  ∀ nonce, manager.counted? scenario.kept = some nonce →
    nonce = .ofNat (start + accepted scenario.node)

theorem counted?_eq_some_iff {kept : Option UInt64} {nonce : UInt64} :
    manager.counted? kept = some nonce ↔ manager.strategy = .batch ∧ kept = some nonce := by
  unfold counted?
  split <;> simp [*]

theorem knows_of_fresh (hfresh : scenario.kept = none) : manager.Knows start accepted scenario := by
  intro nonce hcounted
  cases hfresh.symm.trans (counted?_eq_some_iff.mp hcounted).2

theorem next_eq_of_handOut {kept next : Option UInt64} {number : Nat} (hbound : number < 2 ^ 64)
    (hhanded : manager.handOut kept (.ofNat number) = .ok (.ofNat number, next)) :
    ∀ later, manager.counted? next = some later → later = .ofNat (number + 1) := by
  intro later hlater
  obtain ⟨hbatch, rfl⟩ := counted?_eq_some_iff.mp hlater
  obtain ⟨_, hsame, hnext⟩ := next_of_handOut hbatch hhanded
  cases hsame
  have hsum := following_eq_ok_iff.mp hnext
  rw [UInt64.toNat_ofNat_of_lt' hbound] at hsum
  rw [← UInt64.toNat_inj, hsum, UInt64.toNat_ofNat_of_lt' (hsum ▸ later.toNat_lt)]

/-- Asked or counted, the nonce is the same, and so is the one behind it. -/
theorem reserve_agrees (htallies : respond.Tallies manager.question start accepted)
    (hknows : manager.Knows start accepted scenario)
    (hbound : start + accepted scenario.node + 1 < 2 ^ 64) :
    ∃ next, (run respond manager.reserve.run scenario).value =
        .ok (.ofNat (start + accepted scenario.node), next) ∧
      (∀ later, manager.counted? next = some later →
        later = .ofNat (start + (accepted scenario.node + 1))) ∧
      accepted (run respond manager.reserve.run scenario).scenario.node =
        accepted scenario.node ∧
      (run respond manager.reserve.run scenario).history.filterMap Event.submission? = [] := by
  have hlt : start + accepted scenario.node < 2 ^ 64 := by omega
  obtain ⟨reserved, hhanded⟩ : ∃ reserved,
      manager.handOut scenario.kept (.ofNat (start + accepted scenario.node)) = .ok reserved := by
    cases hresult : manager.handOut scenario.kept (.ofNat (start + accepted scenario.node)) with
    | ok reserved => exact ⟨reserved, rfl⟩
    | error error =>
        obtain ⟨-, hlast, -⟩ := handOut_eq_error_iff.mp hresult
        rw [UInt64.toNat_ofNat_of_lt' hlt] at hlast
        omega
  obtain ⟨nonce, next⟩ := reserved
  obtain rfl : nonce = .ofNat (start + accepted scenario.node) := nonce_of_handOut hhanded
  have hnext := next_eq_of_handOut hlt hhanded
  cases hcounted : manager.counted? scenario.kept with
  | some nonce =>
      obtain rfl := hknows nonce hcounted
      rw [run_reserve_of_counted hcounted hhanded]
      exact ⟨next, rfl, hnext, rfl, rfl⟩
  | none =>
      rw [run_reserve_of_reported hcounted (htallies.reported _ hlt) hhanded]
      exact ⟨next, rfl, hnext, htallies.accepted_question _, rfl⟩

theorem accepted_send {request : Request} {nonce : UInt64} {next : Option UInt64}
    (htallies : respond.Tallies manager.question start accepted)
    (hreserved : (run respond manager.reserve.run scenario).value = .ok (nonce, next))
    (hsigned : ((manager.build request nonce).sign manager.keys).toOption.isSome) :
    accepted (run respond (manager.send request).run scenario).scenario.node =
      accepted (run respond manager.reserve.run scenario).scenario.node + 1 := by
  cases hsign : (manager.build request nonce).sign manager.keys with
  | error error =>
      rw [hsign] at hsigned
      cases hsigned
  | ok signed =>
      rw [run_send_of_signed hreserved hsign]
      exact htallies.accepted_submit _ _

/-- Through a call the node accepts one transaction more; a wait for it changes nothing. -/
theorem accepted_call {call : Call} {nonce : UInt64} {next : Option UInt64}
    (htallies : respond.Tallies manager.question start accepted) (hsubmits : call.Submits)
    (hreserved : (run respond manager.reserve.run scenario).value = .ok (nonce, next))
    (hsigned : (call.signed? manager nonce).isSome) :
    accepted (run respond (call.operation manager).run scenario).scenario.node =
      accepted (run respond manager.reserve.run scenario).scenario.node + 1 := by
  cases call with
  | send request => exact accepted_send htallies hreserved hsigned
  | execute request =>
      have hsend := accepted_send htallies hreserved hsigned
      rw [Call.operation]
      cases hsent : (run respond (manager.send request).run scenario).value with
      | error error =>
          rw [run_execute_of_error hsent]
          exact hsend
      | ok hash =>
          -- The wait only looks for the receipt, which the node does not count.
          have hlooks : ∀ effect, watches manager.chain hash effect → ∀ scenario,
              accepted (perform respond scenario effect).2.node = accepted scenario.node := by
            intro effect hwatches scenario
            cases effect with
            | request query =>
                obtain rfl : query = .receipt manager.chain hash := hwatches
                exact htallies.accepted_receipt _ _ _
            | acquire | release next => exact hwatches.elim
            | isCancelled | pause milliseconds => rfl
          rw [run_execute_of_ok hsent, Run.scenario_after, ← hsend]
          exact measure_run_of_uses (fun scenario => accepted scenario.node)
            (uses_waitForReceipt_bind hash) hlooks _
  | nextNonce | resetNonce => exact hsubmits.elim

/-- A call hands over the transaction with the nonce that the node would report, and
leaves the manager knowing no other nonce than the node. -/
theorem turn_agrees {call : Call} (htallies : respond.Tallies manager.question start accepted)
    (hknows : manager.Knows start accepted scenario) (hsubmits : call.Submits)
    (hbound : start + accepted scenario.node + 1 < 2 ^ 64)
    (hsigned : (call.signed? manager (.ofNat (start + accepted scenario.node))).isSome) :
    (manager.turn respond scenario call).stops = false ∧
      (manager.turn respond scenario call).submissions =
        (call.signed? manager (.ofNat (start + accepted scenario.node))).toList ∧
      accepted (run respond (call.operation manager).run scenario).scenario.node =
        accepted scenario.node + 1 ∧
      manager.Knows start accepted
        (run respond (call.operation manager).run scenario).scenario := by
  obtain ⟨next, hreserved, hnext, hnode, hunsubmitted⟩ :=
    reserve_agrees htallies hknows hbound
  have haccepted := (accepted_call htallies hsubmits hreserved hsigned).trans
    (congrArg (· + 1) hnode)
  have htakes := turn_takes hsubmits.isReset_eq hreserved hunsubmitted
  obtain ⟨_, -, hkept, -⟩ := run_call_of_ok hsubmits.isReset_eq hreserved
  refine ⟨htakes.lasts, htakes.spends_submissions.eq_signed? hsubmits, haccepted, ?_⟩
  intro later hlater
  rw [hkept] at hlater
  rw [haccepted]
  exact hnext later hlater

end Step

/-! ## Calls in a row -/

section Turns

variable {respond : Responder σ} {manager : Manager} {start : Nat} {accepted : σ → Nat}
  {calls : List Call}

/-- Whatever the strategy, the transactions handed over are those with the nonces from
the reported one on. -/
theorem submissions_turns (htallies : respond.Tallies manager.question start accepted)
    (hsubmits : ∀ call ∈ calls, call.Submits) (scenario : Scenario σ)
    (hknows : manager.Knows start accepted scenario)
    (hbound : start + accepted scenario.node + calls.length < 2 ^ 64)
    (hsigns : manager.Signs (start + accepted scenario.node) calls) :
    (manager.turns respond calls scenario).flatMap Turn.submissions =
      manager.consecutive (start + accepted scenario.node) calls := by
  -- Behind each call the manager knows no other nonce than the node, which carries on.
  induction calls generalizing scenario with
  | nil => rfl
  | cons call calls ih =>
      obtain ⟨hcall, hcalls⟩ := List.forall_mem_cons.mp hsubmits
      obtain ⟨hsigned, hsigns⟩ := hsigns
      rw [List.length_cons] at hbound
      obtain ⟨hlasts, hsubmissions, haccepted, hknown⟩ :=
        turn_agrees htallies hknows hcall (by omega) hsigned
      have hrest := ih hcalls _ hknown (by omega) (by rwa [haccepted])
      rw [turns_cons hlasts, List.flatMap_cons, hsubmissions, hrest, haccepted]
      rfl

/-- A manager that has to ask for a nonce asks once, whatever comes back. -/
theorem reports_turn_of_asked {scenario : Scenario σ} {call : Call}
    (hneeds : call.isReset = false) (hasked : manager.counted? scenario.kept = none) :
    (manager.turn respond scenario call).reports =
      [nonceOf (respond scenario.node manager.question).reply] := by
  cases hresult : (nonceOf (respond scenario.node manager.question).reply).bind
      (manager.handOut scenario.kept) with
  | error error =>
      have hrefused := run_reserve_of_refused hasked hresult
      obtain ⟨hturn, hopening⟩ :=
        turn_fails hneeds (congrArg Run.value hrefused) (by rw [hrefused]; rfl)
      rw [hturn.reports_opening, hopening, hrefused]
      rfl
  | ok reserved =>
      obtain ⟨nonce, hreported, hhanded⟩ := exists_of_bind_handOut hresult
      have hreserved := run_reserve_of_reported hasked hreported hhanded
      have hvalue := congrArg Run.value hreserved
      have hturn := turn_takes hneeds hvalue (by rw [hreserved]; rfl)
      rw [hturn.reports_opening, turn_opening hneeds hvalue, hreserved]
      rfl

theorem reports_turns_network (hnetwork : manager.strategy = .network)
    (hsubmits : ∀ call ∈ calls, call.Submits) (scenario : Scenario σ) :
    ∀ turn ∈ manager.turns respond calls scenario, turn.reports.length = 1 := by
  induction calls generalizing scenario with
  | nil => simp [turns]
  | cons call calls ih =>
      obtain ⟨hcall, hcalls⟩ := List.forall_mem_cons.mp hsubmits
      have hasked : manager.counted? scenario.kept = none := by rw [counted?, hnetwork]
      have hturn : (manager.turn respond scenario call).reports.length = 1 := by
        rw [reports_turn_of_asked hcall.isReset_eq hasked, List.length_singleton]
      cases hstops : (manager.turn respond scenario call).stops with
      | true =>
          rw [turns_cons_of_stops hstops]
          exact List.forall_mem_singleton.mpr hturn
      | false =>
          rw [turns_cons hstops]
          exact List.forall_mem_cons.mpr ⟨hturn, ih hcalls _⟩

theorem counts_turns (hbatch : manager.strategy = .batch)
    (hneeds : ∀ call ∈ calls, call.isReset = false) (scenario : Scenario σ) :
    Counts manager scenario.kept (manager.turns respond calls scenario) := by
  induction calls generalizing scenario with
  | nil => exact .nil _
  | cons call calls ih =>
      obtain ⟨hcall, hcalls⟩ := List.forall_mem_cons.mp hneeds
      rw [turns]
      refine counts_cons hbatch hcall (fun hlasts => ?_) fun hstops => by rw [hstops]; rfl
      rw [hlasts]
      exact ih hcalls _

/-- A manager that counts asks once for all its transactions, if it is told a nonce. -/
theorem reports_turns_batch {nonce : UInt64} {call : Call} {scenario : Scenario σ}
    (hbatch : manager.strategy = .batch) (hsubmits : ∀ other ∈ call :: calls, other.Submits)
    (hfresh : scenario.kept = none)
    (hreported : nonceOf (respond scenario.node manager.question).reply = .ok nonce) :
    (manager.turns respond (call :: calls) scenario).flatMap Turn.reports = [.ok nonce] := by
  have hneeds := fun other hother => (hsubmits other hother).isReset_eq
  have hasked : manager.counted? scenario.kept = none := by rw [counted?, hbatch, hfresh]
  have hfirst : (manager.turn respond scenario call).reports = _ :=
    reports_turn_of_asked (hneeds call List.mem_cons_self) hasked
  have hcounts : Counts manager scenario.kept (manager.turns respond (call :: calls) scenario) :=
    counts_turns hbatch hneeds scenario
  rw [hfresh, turns] at hcounts
  rw [turns, List.flatMap_cons, hfirst, hreported]
  generalize (if (manager.turn respond scenario call).stops = true then [] else
    manager.turns respond calls
      (run respond (call.operation manager).run scenario).scenario) = rest at hcounts ⊢
  -- The first call was told a nonce, so that all others count from it.
  cases hcounts with
  | refused hrefused hturn hlasts hforgotten hrest =>
      rw [← hturn.reports_opening, hfirst, hreported] at hrefused
      cases hrefused
  | reported hopening hturn hnext hrest => rw [hrest.reports_eq_nil, List.append_nil]
  | reportedLast hopening hlast hturn => rfl

end Turns

/-- The same calls through a manager that counts and through one that asks, where every
transaction can be signed: the node receives the same signed transactions in the same
order, but it is asked for a nonce once in all by the one, and once for each transaction
by the other. -/
theorem batch_agrees_with_network {batch network : Manager} {respond : Responder σ} {start : Nat}
    {accepted : σ → Nat} {calls : List Call} {first second : Scenario σ}
    (hbatch : batch.strategy = .batch) (hnetwork : network.strategy = .network)
    (hkeys : network.keys = batch.keys) (hchain : network.chain = batch.chain)
    (htallies : respond.Tallies batch.question start accepted)
    (hfirst : accepted first.node = 0) (hsecond : accepted second.node = 0)
    (hfirstKept : first.kept = none) (hsecondKept : second.kept = none)
    (hnonempty : calls ≠ []) (hsubmits : ∀ call ∈ calls, call.Submits)
    (hbound : start + calls.length < 2 ^ 64) (hsigns : batch.Signs start calls) :
    (batch.turns respond calls first).flatMap Turn.submissions =
        (network.turns respond calls second).flatMap Turn.submissions ∧
      (batch.turns respond calls first).flatMap Turn.submissions =
        batch.consecutive start calls ∧
      ((batch.turns respond calls first).flatMap Turn.reports).length = 1 ∧
      ∀ turn ∈ network.turns respond calls second, turn.reports.length = 1 := by
  have hquestion : network.question = batch.question := by
    rw [question, question, address, address, hkeys, hchain]
  have hcounted := submissions_turns htallies hsubmits first (knows_of_fresh hfirstKept)
    (by omega) (by rwa [hfirst])
  have hasked := submissions_turns (hquestion ▸ htallies) hsubmits second
    (knows_of_fresh hsecondKept) (by omega) (by rwa [signs_congr hkeys hchain, hsecond])
  rw [hfirst, Nat.add_zero] at hcounted
  rw [hsecond, Nat.add_zero, consecutive_congr hkeys hchain] at hasked
  refine ⟨hcounted.trans hasked.symm, hcounted, ?_, reports_turns_network hnetwork hsubmits second⟩
  cases calls with
  | nil => exact absurd rfl hnonempty
  | cons call calls =>
      rw [reports_turns_batch hbatch hsubmits hfirstKept (htallies.reported _ (by omega)),
        List.length_singleton]

/-! ### Two payments -/

/-- A node that tallies transactions, and writes the nonce in decimal. -/
def tally (start : Nat) : Responder Nat := fun accepted query =>
  match query with
  | .account _ _ =>
      ⟨.ok (.object [("result", .object [("nonce", .string (toString (start + accepted)))])]), 0,
        accepted⟩
  | .submit _ => ⟨.ok (.object [("result", .object [("TXhash", .string "0x12")])]), 0, accepted + 1⟩
  | _ => ⟨.ok (.object []), 0, accepted⟩

theorem lenientUInt64?_toString {number : Nat} (hbound : number < 2 ^ 64) :
    lenientUInt64? (.string (toString number)) = some (.ofNat number) := by
  refine isLenient_lenientUInt64?.string.mpr (.decimal ?_)
  rw [Json.toList_toString_nat, UInt64.toNat_ofNat_of_lt' hbound]
  exact (isNumeral_toDigits number).isSigned

theorem nonceOf_string {text : String} {nonce : UInt64}
    (hnonce : lenientUInt64? (.string text) = some nonce) :
    nonceOf (.ok (.object [("result", .object [("nonce", .string text)])])) = .ok nonce := by
  have haccount : Account.ofJson? (.object [("nonce", .string text)]) =
      some ⟨none, nonce, 0, none, none⟩ := by
    simp [Account.ofJson?, Json.record?, Json.occursTwice, Json.Record.optional,
      Json.Record.withDefault, Json.Record.field?, hnonce]
  have henvelope : Envelope.ofJson? Account.ofJson?
      (.object [("result", .object [("nonce", .string text)])]) =
        some ⟨some ⟨none, nonce, 0, none, none⟩, none⟩ := by
    simp [Envelope.ofJson?, Json.settled, Json.settledMembers, Json.record?, Json.occursTwice,
      Json.Record.withDefault, Json.Record.field?, Json.nullable, haccount]
  rw [nonceOf, resultOf, henvelope]
  rfl

theorem tallies_tally (start : Nat) (chain : UInt64) (address : Address) :
    (tally start).Tallies (.account chain address) start id where
  reported _ hbound := nonceOf_string (lenientUInt64?_toString hbound)
  accepted_question _ := rfl
  accepted_submit _ _ := rfl
  accepted_receipt _ _ _ := rfl

/-- One payment that is waited for, and one that is not. -/
theorem batch_agrees_with_network_payments :
    let calls : List Call := [.execute (.transfer .zero 5), .send (.transfer .zero 5)]
    let batch : Manager := ⟨.one, 1, .batch, .poll 5 2⟩
    let network : Manager := ⟨.one, 1, .network, .assume⟩
    let counted := batch.turns (tally 7) calls (Scenario.start 0 .untouched)
    let asked := network.turns (tally 7) calls (Scenario.start 0 .untouched)
    counted.flatMap Turn.submissions = asked.flatMap Turn.submissions ∧
      counted.flatMap Turn.submissions =
        [(Transaction.payment 7).withSignature .one Transaction.paymentSignature,
          (Transaction.payment 8).withSignature .one Transaction.nextPaymentSignature] ∧
      (counted.flatMap Turn.reports).length = 1 ∧
      ∀ turn ∈ asked, turn.reports.length = 1 := by
  intro calls batch network counted asked
  have hfirst : Call.signed? batch (.ofNat 7) (.execute (.transfer .zero 5)) =
      some ((Transaction.payment 7).withSignature .one Transaction.paymentSignature) :=
    congrArg Except.toOption Transaction.sign_payment
  have hsecond : Call.signed? batch (.ofNat 8) (.send (.transfer .zero 5)) =
      some ((Transaction.payment 8).withSignature .one Transaction.nextPaymentSignature) :=
    congrArg Except.toOption Transaction.sign_nextPayment
  have hsigns : batch.Signs 7 calls :=
    ⟨Option.isSome_of_eq_some hfirst, Option.isSome_of_eq_some hsecond, trivial⟩
  have hsubmits : ∀ call ∈ calls, call.Submits := by simp [calls, Call.Submits]
  obtain ⟨hsame, hsubmissions, hreports⟩ :
      counted.flatMap Turn.submissions = asked.flatMap Turn.submissions ∧ _ :=
    batch_agrees_with_network rfl rfl rfl rfl (tallies_tally 7 1 batch.address) rfl rfl rfl rfl
      (List.cons_ne_nil _ _) hsubmits (by decide) hsigns
  refine ⟨hsame, hsubmissions.trans ?_, hreports⟩
  rw [consecutive, consecutive, consecutive, hfirst, hsecond]
  rfl

end Manager

end ChainClient
