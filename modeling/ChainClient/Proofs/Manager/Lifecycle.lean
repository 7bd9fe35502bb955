import ChainClient.Proofs.Manager.Reservation
import ChainClient.Proofs.Revert

/-!
# The life of a transaction

Whatever a node answers, an execution takes one of a few courses: it gets no nonce, it
cannot sign, its submission brings no name for the transaction, or it looks for the
receipt under the name that it was given, until an answer settles it or it gives up. A
manager that counts gets no nonce either where it comes to the last one: the program stops.
-/

namespace ChainClient

open Node Operation Scenario Text

/-- What becomes of an execution with a receipt for it. -/
def Node.Receipt.verdict (hash : String) (receipt : Receipt) : Except ClientError Receipt :=
  if receipt.status = 1 then .ok receipt
  else .error (.reverted hash receipt.status receipt.gasUsed
    ((Revert.decode? receipt.out).getD "N/A"))

theorem reason_eq (receipt : Receipt) :
    receipt.reason = (Revert.decode? receipt.out).getD "N/A" := by
  have hempty : Revert.decode? "" = none := by decide
  unfold Receipt.reason Revert.reason
  by_cases hout : receipt.out = ""
  · rw [if_pos hout, hout, hempty]
    rfl
  · rw [if_neg hout, Option.bind_some]
    cases Revert.decode? receipt.out <;> rfl

theorem run_confirm (hash : String) (receipt : Receipt) :
    (Manager.confirm hash receipt).run = .done (receipt.verdict hash) := by
  unfold Manager.confirm Receipt.verdict
  rw [reason_eq]
  by_cases hsuccess : receipt.status = 1
  · rw [if_pos (by simpa [Receipt.isSuccess] using hsuccess), if_pos hsuccess]
    rfl
  · rw [if_neg (by simpa [Receipt.isSuccess] using hsuccess), if_neg hsuccess]
    rfl

/-- The reason of a failure: what the returned data carries, if it carries one. -/
def Node.Receipt.IsReason (receipt : Receipt) (reason : String) : Prop :=
  Revert.Carries (some receipt.out) reason ∨
    (∀ message, ¬ Revert.Carries (some receipt.out) message) ∧ reason = "N/A"

theorem isReason_iff {receipt : Receipt} {reason : String} :
    receipt.IsReason reason ↔ (Revert.decode? receipt.out).getD "N/A" = reason := by
  simp only [Receipt.IsReason, ← Revert.bind_decode?_eq_some_iff, Option.bind_some]
  cases Revert.decode? receipt.out with
  | none => simp [eq_comm]
  | some message => simp

namespace Manager

/-- The nonce that a manager gets, with the answer to its first request if it needs to ask.
A manager that counts cannot get the last one. -/
def obtained (manager : Manager) (kept : Option UInt64) (first : Reply) :
    Except ClientError UInt64 := do
  let nonce ← match manager.counted? kept with
    | some nonce => .ok nonce
    | none => nonceOf first
  if manager.strategy = .batch ∧ nonce.toNat = 2 ^ 64 - 1 then .error .overflow else .ok nonce

end Manager

/-- The transaction was handed over and given a name, and the first answer about its receipt
that is not pending came within the budget and brings the receipt. -/
def Receives (answers : Nat → Reply) (queries : List Query) (attempts : Nat) (hash : String)
    (receipt : Receipt) : Prop :=
  ∃ (position : Nat) (signed : SignedTransaction) (count : Nat),
    queries[position]? = some (.submit signed) ∧
    Names (answers position) hash ∧ count < attempts ∧
    (∀ earlier < count, IsPending (answers (position + 1 + earlier))) ∧
    Settles (answers (position + 1 + count)) (.ok receipt)

/-- What the requests of an execution and its end have to do with the answers of the node,
each of which answers the request at its position. -/
structure IsLifecycle (manager : Manager) (request : Request) (kept : Option UInt64)
    (answers : Nat → Reply) (attempts : Nat) (queries : List Query)
    (value : Except ClientError Receipt) : Prop where
  submitted_once : ∀ (first second : Nat) (signed other : SignedTransaction),
    queries[first]? = some (.submit signed) → queries[second]? = some (.submit other) →
      first = second
  refused : ∀ error, manager.obtained kept (answers 0) = .error error →
    (∀ signed, Query.submit signed ∉ queries) ∧ value = .error error
  unsigned : ∀ nonce error, manager.obtained kept (answers 0) = .ok nonce →
    (manager.build request nonce).sign manager.keys = .error error →
      (∀ signed, Query.submit signed ∉ queries) ∧ value = .error (.signing error)
  submitted : ∀ nonce signed, manager.obtained kept (answers 0) = .ok nonce →
    (manager.build request nonce).sign manager.keys = .ok signed → Query.submit signed ∈ queries
  looks : ∀ (position : Nat) chain hash, queries[position]? = some (.receipt chain hash) →
    chain = manager.chain ∧ ∃ earlier < position, ∃ signed,
      queries[earlier]? = some (.submit signed) ∧ Names (answers earlier) hash
  succeeds_iff : ∀ receipt, value = .ok receipt ↔
    receipt.status = 1 ∧ ∃ hash, Receives answers queries attempts hash receipt
  reverts_iff : ∀ hash status gasUsed reason,
    value = .error (.reverted hash status gasUsed reason) ↔
      ∃ receipt, Receives answers queries attempts hash receipt ∧ receipt.status ≠ 1 ∧
        status = receipt.status ∧ gasUsed = receipt.gasUsed ∧ receipt.IsReason reason
  lost : ∀ (position : Nat) signed source, queries[position]? = some (.submit signed) →
    IsLost IsName (answers position) source →
      value = .error (.submission
        (Hex.encodePrefixed (Hash.keccak256Text signed.transaction.preimage).toBytes) source)
  rejected : ∀ (position : Nat) signed json result error,
    queries[position]? = some (.submit signed) → answers position = .ok json →
      IsAnswer IsName json result (some error) → error.code ≠ 0 →
        value = .error (.chain error.code error.message)

/-- How an execution goes on once its transaction is signed, with the name that it looks for
and the number of looks. -/
inductive Ending (signed : SignedTransaction) (answers : Nat → Reply)
    (position interval attempts : Nat) : String → Nat → Except ClientError Receipt → Prop where
  | unnamed (hash : String) {error : ClientError}
      (hunnamed : signed.outcome (answers position) = .error error) :
      Ending signed answers position interval attempts hash 0 (.error error)
  | settled {hash : String} {count : Nat} {outcome : Except ClientError Receipt}
      (hnamed : Names (answers position) hash) (hcount : count < attempts)
      (hpending : ∀ earlier < count, IsPending (answers (position + 1 + earlier)))
      (hsettles : Settles (answers (position + 1 + count)) outcome) :
      Ending signed answers position interval attempts hash (count + 1)
        (outcome.bind (Receipt.verdict hash))
  | timedOut {hash : String} (hnamed : Names (answers position) hash)
      (hpending : ∀ earlier < attempts, IsPending (answers (position + 1 + earlier))) :
      Ending signed answers position interval attempts hash attempts
        (.error (.confirmationTimeout hash (interval * attempts)))

/-- The requests for a nonce, for a submission, and for a receipt. -/
def Manager.trail (manager : Manager) (position : Nat) (signed : SignedTransaction)
    (hash : String) (looks : Nat) : List Query :=
  List.replicate position manager.question ++
    .submit signed :: List.replicate looks (.receipt manager.chain hash)

/-- The course of an execution: its requests and what it ends with. -/
inductive Course (manager : Manager) (request : Request) (kept : Option UInt64)
    (answers : Nat → Reply) (interval attempts : Nat) :
    List Query → Except ClientError Receipt → Prop where
  | refused {position : Nat} {error : ClientError}
      (hrefused : manager.obtained kept (answers 0) = .error error) :
      Course manager request kept answers interval attempts
        (List.replicate position manager.question) (.error error)
  | unsigned {position : Nat} {nonce : UInt64} {error : SigningError}
      (hobtained : manager.obtained kept (answers 0) = .ok nonce)
      (hunsigned : (manager.build request nonce).sign manager.keys = .error error) :
      Course manager request kept answers interval attempts
        (List.replicate position manager.question) (.error (.signing error))
  | submitted {position : Nat} {nonce : UInt64} {signed : SignedTransaction} {hash : String}
      {looks : Nat} {value : Except ClientError Receipt}
      (hobtained : manager.obtained kept (answers 0) = .ok nonce)
      (hsigned : (manager.build request nonce).sign manager.keys = .ok signed)
      (hends : Ending signed answers position interval attempts hash looks value) :
      Course manager request kept answers interval attempts
        (manager.trail position signed hash looks) value

section Course

variable {manager : Manager} {request : Request} {kept : Option UInt64} {answers : Nat → Reply}
  {interval attempts : Nat} (delays : Nat → Nat) (clock : Nat)

theorem fst_handOut {nonce : UInt64} : (manager.handOut kept nonce).map Prod.fst =
    if manager.strategy = .batch ∧ nonce.toNat = 2 ^ 64 - 1 then .error .overflow
    else .ok nonce := by
  cases hhanded : manager.handOut kept nonce with
  | ok reserved =>
      have hfits : ¬ (manager.strategy = .batch ∧ nonce.toNat = 2 ^ 64 - 1) := by
        rintro ⟨hbatch, hlast⟩
        cases hhanded.symm.trans (Manager.handOut_eq_error_iff.mpr ⟨hbatch, hlast, rfl⟩)
      rw [if_neg hfits, ← Manager.nonce_of_handOut hhanded]
      rfl
  | error error =>
      obtain ⟨hbatch, hlast, rfl⟩ := Manager.handOut_eq_error_iff.mp hhanded
      rw [if_pos ⟨hbatch, hlast⟩]
      rfl

/-- A reservation brings the nonce, if one is obtained, and asks for it at most once. -/
theorem run_reserve_obtained :
    ∃ events position later, ∃ result : Except ClientError (UInt64 × Option UInt64),
      run (recite answers delays) manager.reserve.run ⟨0, clock, kept, .untouched⟩ =
        ⟨result, events, ⟨position, later, kept, .untouched⟩⟩ ∧
      result.map Prod.fst = manager.obtained kept (answers 0) ∧
      events.filterMap Event.query? = List.replicate position manager.question := by
  cases hcounted : manager.counted? kept with
  | some nonce =>
      have hobtained : manager.obtained kept (answers 0) =
          (manager.handOut kept nonce).map Prod.fst := by
        rw [fst_handOut, Manager.obtained, hcounted]
        rfl
      cases hhanded : manager.handOut kept nonce with
      | ok reserved =>
          exact ⟨_, 0, clock, _, Manager.run_reserve_of_counted hcounted hhanded,
            hhanded ▸ hobtained.symm, rfl⟩
      | error error =>
          exact ⟨_, 0, clock, _, Manager.run_reserve_of_counted_last hcounted hhanded,
            hhanded ▸ hobtained.symm, rfl⟩
  | none =>
      have hobtained : manager.obtained kept (answers 0) =
          ((nonceOf (answers 0)).bind (manager.handOut kept)).map Prod.fst := by
        rw [Manager.obtained, hcounted]
        cases nonceOf (answers 0) with
        | error error => rfl
        | ok nonce => exact fst_handOut.symm
      cases hresult : (nonceOf (answers 0)).bind (manager.handOut kept) with
      | ok reserved =>
          obtain ⟨nonce, hreported, hhanded⟩ := Manager.exists_of_bind_handOut hresult
          have hreserved : run (recite answers delays) manager.reserve.run
              ⟨0, clock, kept, .untouched⟩ = _ :=
            Manager.run_reserve_of_reported hcounted hreported hhanded
          rw [asked_untouched] at hreserved
          exact ⟨_, 1, _, _, hreserved, hresult ▸ hobtained.symm, rfl⟩
      | error error =>
          have hreserved : run (recite answers delays) manager.reserve.run
              ⟨0, clock, kept, .untouched⟩ = _ := Manager.run_reserve_of_refused hcounted hresult
          rw [asked_untouched] at hreserved
          exact ⟨_, 1, _, _, hreserved, hresult ▸ hobtained.symm, rfl⟩

/-- A reservation that gets a nonce. -/
theorem run_reserve_of_obtained {nonce : UInt64}
    (hobtained : manager.obtained kept (answers 0) = .ok nonce) :
    ∃ next events position later,
      run (recite answers delays) manager.reserve.run ⟨0, clock, kept, .untouched⟩ =
        ⟨.ok (nonce, next), events, ⟨position, later, kept, .untouched⟩⟩ ∧
      events.filterMap Event.query? = List.replicate position manager.question := by
  obtain ⟨events, position, later, result, hreserved, hresult, hqueries⟩ :=
    run_reserve_obtained delays clock
  rw [hobtained] at hresult
  cases result with
  | error error => cases hresult
  | ok reserved =>
      cases hresult
      exact ⟨reserved.2, events, position, later, hreserved, hqueries⟩

theorem run_send_of_obtained {nonce : UInt64} {signed : SignedTransaction}
    (hobtained : manager.obtained kept (answers 0) = .ok nonce)
    (hsigned : (manager.build request nonce).sign manager.keys = .ok signed) :
    ∃ events position later next,
      run (recite answers delays) (manager.send request).run ⟨0, clock, kept, .untouched⟩ =
        ⟨signed.outcome (answers position), events, ⟨position + 1, later, next, .untouched⟩⟩ ∧
      events.filterMap Event.query? =
        List.replicate position manager.question ++ [.submit signed] := by
  obtain ⟨next, events, position, later, hreserved, hqueries⟩ :=
    run_reserve_of_obtained delays clock hobtained
  have hsent : run (recite answers delays) (manager.send request).run
      ⟨0, clock, kept, .untouched⟩ = _ :=
    Manager.run_send_of_signed (congrArg Run.value hreserved) hsigned
  rw [hreserved, asked_untouched] at hsent
  refine ⟨_, position, _, _, hsent, ?_⟩
  rw [List.filterMap_append, hqueries]
  rfl

/-- A wait followed by its verdict. -/
theorem run_bind_confirm {σ : Type} {respond : Responder σ} {hash : String}
    (operation : Operation Receipt) (scenario : Scenario σ) :
    let waited := run respond operation.run scenario
    let run := run respond (operation >>= Manager.confirm hash).run scenario
    run.value = waited.value.bind (Receipt.verdict hash) ∧ run.queries = waited.queries := by
  intro waited run
  have hrun : run = _ := run_operation_bind operation (Manager.confirm hash) scenario
  rw [hrun]
  cases hwaited : waited.value with
  | error error => exact ⟨rfl, (Run.queries_after _ _).trans (List.append_nil _)⟩
  | ok receipt =>
      simp only [run_confirm]
      exact ⟨rfl, (Run.queries_after _ _).trans (List.append_nil _)⟩

theorem outcome_eq_ok_iff {signed : SignedTransaction} {reply : Reply} {hash : String} :
    signed.outcome reply = .ok hash ↔ Names reply hash := by
  rw [← hashOf_eq_ok_iff]
  unfold SignedTransaction.outcome
  rcases hashOf reply with error | other
  · cases error <;> simp
  · rfl

theorem course_of_refused {error : ClientError}
    (hobtained : manager.obtained kept (answers 0) = .error error) :
    let run := run (recite answers delays) (manager.execute request).run
      ⟨0, clock, kept, .untouched⟩
    Course manager request kept answers interval attempts run.queries run.value := by
  intro run
  obtain ⟨events, position, later, result, hreserved, hresult, hqueries⟩ :=
    run_reserve_obtained delays clock
  rw [hobtained] at hresult
  cases result with
  | ok reserved => cases hresult
  | error _ =>
      cases hresult
      have hsent : Scenario.run (recite answers delays) (manager.send request).run
          ⟨0, clock, kept, .untouched⟩ = _ :=
        Manager.run_withNonce_of_error (congrArg Run.value hreserved)
      have hrun : run = _ := Manager.run_execute_of_error (congrArg Run.value hsent)
      rw [hrun, hsent, hreserved, Run.queries, hqueries]
      exact .refused hobtained

theorem course_of_unsigned {nonce : UInt64} {error : SigningError}
    (hobtained : manager.obtained kept (answers 0) = .ok nonce)
    (hunsigned : (manager.build request nonce).sign manager.keys = .error error) :
    let run := run (recite answers delays) (manager.execute request).run
      ⟨0, clock, kept, .untouched⟩
    Course manager request kept answers interval attempts run.queries run.value := by
  intro run
  obtain ⟨next, events, position, later, hreserved, hqueries⟩ :=
    run_reserve_of_obtained delays clock hobtained
  have hsent : Scenario.run (recite answers delays) (manager.send request).run
      ⟨0, clock, kept, .untouched⟩ = _ :=
    Manager.run_withNonce_of_ok (congrArg Run.value hreserved)
  rw [Manager.run_signAndSend_of_error hunsigned, hreserved] at hsent
  have hrun : run = _ := Manager.run_execute_of_error (congrArg Run.value hsent)
  rw [hrun, hsent, Run.queries, List.filterMap_append, hqueries]
  change Course _ _ _ _ _ _ (_ ++ []) _
  rw [List.append_nil]
  exact .unsigned hobtained hunsigned

theorem course_of_signed (hpoll : manager.confirmation = .poll interval attempts) {nonce : UInt64}
    {signed : SignedTransaction} (hobtained : manager.obtained kept (answers 0) = .ok nonce)
    (hsigned : (manager.build request nonce).sign manager.keys = .ok signed) :
    let run := run (recite answers delays) (manager.execute request).run
      ⟨0, clock, kept, .untouched⟩
    Course manager request kept answers interval attempts run.queries run.value := by
  intro run
  obtain ⟨events, position, later, next, hsent, hqueries⟩ :=
    run_send_of_obtained delays clock hobtained hsigned
  cases houtcome : signed.outcome (answers position) with
  | error error =>
      rw [houtcome] at hsent
      have hrun : run = _ := Manager.run_execute_of_error (congrArg Run.value hsent)
      rw [hrun, hsent, Run.queries, hqueries]
      exact .submitted hobtained hsigned (.unnamed "" houtcome)
  | ok hash =>
      have hnamed : Names (answers position) hash := outcome_eq_ok_iff.mp houtcome
      rw [houtcome] at hsent
      have hrun : run = _ := Manager.run_execute_of_ok (congrArg Run.value hsent)
      rw [hsent, Manager.waitForReceipt, hpoll] at hrun
      change run = Run.after _ (Scenario.run _
        (pollReceipt manager.chain hash interval attempts attempts >>= Manager.confirm hash).run
          ⟨position + 1, later, next, .untouched⟩) at hrun
      obtain ⟨hverdict, hwaited⟩ := run_bind_confirm
        (pollReceipt manager.chain hash interval attempts attempts)
        ⟨position + 1, later, next, .untouched⟩
      rw [hrun, Run.queries_after, Run.value_after, hqueries, hverdict, hwaited, List.append_assoc]
      rcases forall_isPending_or_settles (fun earlier => answers (position + 1 + earlier))
          attempts with hpending | ⟨count, hcount, hpending, outcome, hsettles⟩
      · obtain ⟨hvalue, hlooks, -⟩ :=
          run_pollReceipt_of_pending delays (position + 1) later next hpending
        rw [hvalue, hlooks]
        exact .submitted hobtained hsigned (.timedOut hnamed hpending)
      · obtain ⟨hvalue, hlooks, -⟩ :=
          run_pollReceipt_of_settles delays (position + 1) later next hcount hpending hsettles
        rw [hvalue, hlooks]
        exact .submitted hobtained hsigned (.settled hnamed hcount hpending hsettles)

theorem course_execute (hpoll : manager.confirmation = .poll interval attempts) :
    let run := run (recite answers delays) (manager.execute request).run
      ⟨0, clock, kept, .untouched⟩
    Course manager request kept answers interval attempts run.queries run.value := by
  cases hobtained : manager.obtained kept (answers 0) with
  | error error => exact course_of_refused delays clock hobtained
  | ok nonce =>
      cases hsigned : (manager.build request nonce).sign manager.keys with
      | error error => exact course_of_unsigned delays clock hobtained hsigned
      | ok signed => exact course_of_signed delays clock hpoll hobtained hsigned

end Course

/-! ## Where the requests stand -/

section Trail

variable {manager : Manager} {signed : SignedTransaction} {hash : String}
  {position looks index : Nat}

theorem getElem?_trail_submit {other : SignedTransaction}
    (hindex : (manager.trail position signed hash looks)[index]? = some (.submit other)) :
    index = position ∧ other = signed := by
  unfold Manager.trail at hindex
  rcases Nat.lt_trichotomy index position with hlt | rfl | hgt
  · simp [List.getElem?_append, hlt, Manager.question] at hindex
  · simpa using hindex.symm
  · obtain ⟨offset, rfl⟩ := Nat.exists_eq_add_of_lt hgt
    simp [List.getElem?_append, List.getElem?_replicate, Nat.add_assoc] at hindex

theorem getElem?_trail_receipt {chain : UInt64} {name : String}
    (hindex : (manager.trail position signed hash looks)[index]? = some (.receipt chain name)) :
    position < index ∧ index < position + 1 + looks ∧ chain = manager.chain ∧ name = hash := by
  unfold Manager.trail at hindex
  rcases Nat.lt_trichotomy index position with hlt | rfl | hgt
  · simp [List.getElem?_append, hlt, Manager.question] at hindex
  · simp at hindex
  · obtain ⟨offset, rfl⟩ := Nat.exists_eq_add_of_lt hgt
    simp [List.getElem?_append, List.getElem?_replicate, Nat.add_assoc] at hindex
    exact ⟨hgt, by omega, hindex.2.1.symm, hindex.2.2.symm⟩

theorem getElem?_trail :
    (manager.trail position signed hash looks)[position]? = some (.submit signed) := by
  simp [Manager.trail]

end Trail

/-! ## What every course shares -/

theorem verdict_eq_ok_iff {hash : String} {receipt other : Receipt} :
    receipt.verdict hash = .ok other ↔ receipt.status = 1 ∧ receipt = other := by
  unfold Receipt.verdict
  split
  next hsuccess => simp [hsuccess]
  next hfailure => simp [hfailure]

theorem verdict_eq_reverted_iff {hash name gasUsed reason : String} {receipt : Receipt}
    {status : Int64} :
    receipt.verdict hash = .error (.reverted name status gasUsed reason) ↔
      receipt.status ≠ 1 ∧ hash = name ∧ receipt.status = status ∧ receipt.gasUsed = gasUsed ∧
        (Revert.decode? receipt.out).getD "N/A" = reason := by
  unfold Receipt.verdict
  split
  next hsuccess => simp [hsuccess]
  next hfailure => simp [hfailure]

theorem obtained_ne_reverted {manager : Manager} {kept : Option UInt64} {reply : Reply}
    {status : Int64} {hash gasUsed reason : String} :
    manager.obtained kept reply ≠ .error (.reverted hash status gasUsed reason) := by
  intro hobtained
  have hlimit : ∀ nonce : UInt64,
      (if manager.strategy = .batch ∧ nonce.toNat = 2 ^ 64 - 1 then
        (.error .overflow : Except ClientError UInt64) else .ok nonce) ≠
        .error (.reverted hash status gasUsed reason) := by
    intro nonce
    split <;> simp
  rw [Manager.obtained] at hobtained
  cases hcounted : manager.counted? kept with
  | some nonce =>
      rw [hcounted] at hobtained
      exact hlimit nonce hobtained
  | none =>
      rw [hcounted] at hobtained
      cases hreport : nonceOf reply with
      | error error =>
          rw [hreport] at hobtained
          cases hobtained
          exact nonceOf_ne_reverted hreport
      | ok nonce =>
          rw [hreport] at hobtained
          exact hlimit nonce hobtained

theorem outcome_ne_reverted {signed : SignedTransaction} {reply : Reply} {status : Int64}
    {hash gasUsed reason : String} :
    signed.outcome reply ≠ .error (.reverted hash status gasUsed reason) := by
  intro houtcome
  unfold SignedTransaction.outcome at houtcome
  split at houtcome
  · cases houtcome
  · cases houtcome
  next error _ herror =>
    cases houtcome
    exact resultOf_ne_reverted herror

namespace Ending

variable {manager : Manager} {signed : SignedTransaction} {answers : Nat → Reply}
  {position interval attempts looks : Nat} {hash : String} {value : Except ClientError Receipt}

theorem value_of_receives {name : String} {receipt : Receipt}
    (hends : Ending signed answers position interval attempts hash looks value)
    (hreceives : Receives answers (manager.trail position signed hash looks) attempts name
      receipt) :
    value = receipt.verdict name := by
  obtain ⟨index, other, first, hsubmitted, hnamed, hfirst, hearlier, hreceived⟩ := hreceives
  obtain ⟨rfl, rfl⟩ := getElem?_trail_submit hsubmitted
  cases hends with
  | unnamed hunnamed => cases hunnamed.symm.trans (outcome_eq_ok_iff.mpr hnamed)
  | @settled count outcome hsame hcount hpending hsettles =>
      obtain rfl := hnamed.unique hsame
      -- There is only one first answer that is not pending.
      rcases Nat.lt_trichotomy first count with hlt | rfl | hgt
      · exact absurd (hpending first hlt) hreceived.not_isPending
      · rw [← hreceived.unique hsettles]
        rfl
      · exact absurd (hearlier count hgt) hsettles.not_isPending
  | timedOut hsame hpending => exact absurd (hpending first hfirst) hreceived.not_isPending

/-- Only a receipt brings an execution to a success or to a reversion. -/
theorem exists_receives
    (hends : Ending signed answers position interval attempts hash looks value)
    (hvalue : (∃ receipt, value = .ok receipt) ∨
      ∃ name status gasUsed reason, value = .error (.reverted name status gasUsed reason)) :
    ∃ receipt, Receives answers (manager.trail position signed hash looks) attempts hash receipt ∧
      value = receipt.verdict hash := by
  cases hends with
  | unnamed hunnamed =>
      rcases hvalue with ⟨_, hvalue⟩ | ⟨_, _, _, _, hvalue⟩
      · cases hvalue
      · cases hvalue
        exact absurd hunnamed outcome_ne_reverted
  | @settled count outcome hnamed hcount hpending hsettles =>
      cases outcome with
      | ok receipt =>
          exact ⟨receipt, ⟨position, signed, count, getElem?_trail, hnamed, hcount, hpending,
            hsettles⟩, rfl⟩
      | error error =>
          rcases hvalue with ⟨_, hvalue⟩ | ⟨_, _, _, _, hvalue⟩
          · cases hvalue
          · cases hvalue
            exact absurd hsettles not_settles_reverted
  | timedOut hnamed hpending =>
      rcases hvalue with ⟨_, hvalue⟩ | ⟨_, _, _, _, hvalue⟩ <;> cases hvalue

theorem looks_named {count : Nat}
    (hends : Ending signed answers position interval attempts hash looks value)
    (hcount : count < looks) : Names (answers position) hash := by
  cases hends with
  | unnamed hunnamed => exact absurd hcount (Nat.not_lt_zero count)
  | settled hnamed hcount hpending hsettles => exact hnamed
  | timedOut hnamed hpending => exact hnamed

/-- Without a name for the transaction its submission is the end. -/
theorem value_of_unnamed {error : ClientError}
    (hends : Ending signed answers position interval attempts hash looks value)
    (hunnamed : signed.outcome (answers position) = .error error) : value = .error error := by
  cases hends with
  | unnamed hother =>
      cases hother.symm.trans hunnamed
      rfl
  | settled hnamed hcount hpending hsettles =>
      cases hunnamed.symm.trans (outcome_eq_ok_iff.mpr hnamed)
  | timedOut hnamed hpending => cases hunnamed.symm.trans (outcome_eq_ok_iff.mpr hnamed)

end Ending

namespace Course

variable {manager : Manager} {request : Request} {kept : Option UInt64} {answers : Nat → Reply}
  {interval attempts : Nat} {queries : List Query} {value : Except ClientError Receipt}

/-- A submission in a course comes with the rest of it. -/
theorem exists_ending {position : Nat} {signed : SignedTransaction}
    (hcourse : Course manager request kept answers interval attempts queries value)
    (hsubmitted : queries[position]? = some (.submit signed)) :
    ∃ nonce hash looks, manager.obtained kept (answers 0) = .ok nonce ∧
      (manager.build request nonce).sign manager.keys = .ok signed ∧
      queries = manager.trail position signed hash looks ∧
      Ending signed answers position interval attempts hash looks value := by
  cases hcourse with
  | refused hrefused =>
      have hmem := List.mem_of_getElem? hsubmitted
      cases List.eq_of_mem_replicate hmem
  | unsigned hobtained hunsigned =>
      have hmem := List.mem_of_getElem? hsubmitted
      cases List.eq_of_mem_replicate hmem
  | submitted hobtained hsigned hends =>
      obtain ⟨rfl, rfl⟩ := getElem?_trail_submit hsubmitted
      exact ⟨_, _, _, hobtained, hsigned, rfl, hends⟩

theorem value_of_receives {hash : String} {receipt : Receipt}
    (hcourse : Course manager request kept answers interval attempts queries value)
    (hreceives : Receives answers queries attempts hash receipt) :
    value = receipt.verdict hash := by
  obtain ⟨position, signed, -, hsubmitted, -⟩ := id hreceives
  obtain ⟨-, _, _, -, -, rfl, hends⟩ := hcourse.exists_ending hsubmitted
  exact hends.value_of_receives hreceives

theorem exists_receives
    (hcourse : Course manager request kept answers interval attempts queries value)
    (hvalue : (∃ receipt, value = .ok receipt) ∨
      ∃ name status gasUsed reason, value = .error (.reverted name status gasUsed reason)) :
    ∃ hash receipt, Receives answers queries attempts hash receipt ∧
      value = receipt.verdict hash := by
  cases hcourse with
  | @refused _ error hrefused =>
      rcases hvalue with ⟨_, hvalue⟩ | ⟨_, _, _, _, hvalue⟩
      · cases hvalue
      · cases hvalue
        exact absurd hrefused obtained_ne_reverted
  | unsigned hobtained hunsigned =>
      rcases hvalue with ⟨_, hvalue⟩ | ⟨_, _, _, _, hvalue⟩ <;> cases hvalue
  | submitted hobtained hsigned hends =>
      obtain ⟨receipt, hreceives, hverdict⟩ := hends.exists_receives hvalue
      exact ⟨_, receipt, hreceives, hverdict⟩

theorem isLifecycle
    (hcourse : Course manager request kept answers interval attempts queries value) :
    IsLifecycle manager request kept answers attempts queries value where
  submitted_once := by
    intro first second signed other hfirst hsecond
    -- a trail has a single place for a submission, the one behind the question
    obtain ⟨-, _, _, -, -, rfl, -⟩ := hcourse.exists_ending hfirst
    exact (getElem?_trail_submit hsecond).1.symm
  refused := by
    intro error hrefused
    cases hcourse with
    | refused hsame =>
        cases hrefused.symm.trans hsame
        exact ⟨by simp [Manager.question, List.mem_replicate], rfl⟩
    | unsigned hobtained hunsigned => cases hrefused.symm.trans hobtained
    | submitted hobtained hsigned hends => cases hrefused.symm.trans hobtained
  unsigned := by
    intro nonce error hobtained hunsigned
    cases hcourse with
    | refused hrefused => cases hobtained.symm.trans hrefused
    | unsigned hsame hother =>
        cases hobtained.symm.trans hsame
        cases hunsigned.symm.trans hother
        exact ⟨by simp [Manager.question, List.mem_replicate], rfl⟩
    | submitted hsame hsigned hends =>
        cases hobtained.symm.trans hsame
        cases hunsigned.symm.trans hsigned
  submitted := by
    intro nonce signed hobtained hsigned
    cases hcourse with
    | refused hrefused => cases hobtained.symm.trans hrefused
    | unsigned hsame hunsigned =>
        cases hobtained.symm.trans hsame
        cases hsigned.symm.trans hunsigned
    | submitted hsame hother hends =>
        cases hobtained.symm.trans hsame
        cases hsigned.symm.trans hother
        exact List.mem_of_getElem? getElem?_trail
  looks := by
    intro position chain hash hlook
    cases hcourse with
    | refused hrefused => cases List.eq_of_mem_replicate (List.mem_of_getElem? hlook)
    | unsigned hobtained hunsigned => cases List.eq_of_mem_replicate (List.mem_of_getElem? hlook)
    | @submitted earlier nonce signed name looks _ hobtained hsigned hends =>
        obtain ⟨hearlier, hwithin, rfl, rfl⟩ := getElem?_trail_receipt hlook
        have hcount : position - (earlier + 1) < looks := by omega
        exact ⟨rfl, earlier, hearlier, signed, getElem?_trail, hends.looks_named hcount⟩
  succeeds_iff := by
    intro receipt
    constructor
    · rintro rfl
      obtain ⟨hash, other, hreceives, hverdict⟩ := hcourse.exists_receives (.inl ⟨receipt, rfl⟩)
      obtain ⟨hstatus, rfl⟩ := verdict_eq_ok_iff.mp hverdict.symm
      exact ⟨hstatus, hash, hreceives⟩
    · rintro ⟨hstatus, hash, hreceives⟩
      rw [hcourse.value_of_receives hreceives]
      exact verdict_eq_ok_iff.mpr ⟨hstatus, rfl⟩
  reverts_iff := by
    intro hash status gasUsed reason
    constructor
    · rintro rfl
      obtain ⟨name, receipt, hreceives, hverdict⟩ :=
        hcourse.exists_receives (.inr ⟨hash, status, gasUsed, reason, rfl⟩)
      obtain ⟨hstatus, rfl, rfl, rfl, hreason⟩ := verdict_eq_reverted_iff.mp hverdict.symm
      exact ⟨receipt, hreceives, hstatus, rfl, rfl, isReason_iff.mpr hreason⟩
    · rintro ⟨receipt, hreceives, hstatus, rfl, rfl, hreason⟩
      rw [hcourse.value_of_receives hreceives]
      exact verdict_eq_reverted_iff.mpr ⟨hstatus, rfl, rfl, rfl, isReason_iff.mp hreason⟩
  lost := by
    intro position signed source hsubmitted hlost
    obtain ⟨nonce, _, _, -, hsigned, -, hends⟩ := hcourse.exists_ending hsubmitted
    have hunnamed : signed.outcome (answers position) =
        .error (.submission signed.digestHex source) := by
      rw [SignedTransaction.outcome, hashOf_of_isLost hlost]
    rw [hends.value_of_unnamed hunnamed, SignedTransaction.digestHex,
      (Transaction.eq_of_sign hsigned).2]
    rfl
  rejected := by
    intro position signed json result error hsubmitted hreply hanswer hreal
    obtain ⟨nonce, _, _, -, hsigned, -, hends⟩ := hcourse.exists_ending hsubmitted
    have hunnamed : signed.outcome (answers position) =
        .error (.chain error.code error.message) := by
      rw [SignedTransaction.outcome, hreply, hashOf_of_error hanswer hreal]
    exact hends.value_of_unnamed hunnamed

end Course

/-- Whatever the node answers to an execution that nobody cancels, at most one transaction
is handed over, and what the caller gets is told by the answers. -/
theorem isLifecycle_execute (keys : KeyPair) (chain : UInt64) (strategy : NonceStrategy)
    (interval attempts : Nat) (request : Request) (answers : Nat → Reply) (delays : Nat → Nat)
    (clock : Nat) (kept : Option UInt64) :
    let manager : Manager := ⟨keys, chain, strategy, .poll interval attempts⟩
    let run := run (recite answers delays) (manager.execute request).run
      ⟨0, clock, kept, .untouched⟩
    IsLifecycle manager request kept answers attempts run.queries run.value ∧
      run.history.filterMap Event.exchange? =
        run.queries.mapIdx fun position query => (query, answers position) := by
  intro manager run
  refine ⟨(course_execute delays clock rfl).isLifecycle, ?_⟩
  have hexchanges := exchanges_run_recite answers delays (manager.execute request).run
    ⟨0, clock, kept, .untouched⟩
  simpa only [Nat.zero_add] using hexchanges

/-! ### A payment that is waited for -/

open Transaction (firstPayment)

namespace Lifecycle

def keeper : Manager :=
  ⟨.one, 1, .batch, .poll 1000 3⟩

def account : Reply :=
  .ok (.object [("result", .object [("nonce", .number "7")])])

def named : Reply :=
  .ok (.object [("result", .object [("TXhash", .string "0xab")])])

def unknown : Reply :=
  .ok (.object [("error", .object
    [("code", .number "4003"), ("message", .string "transaction not found")])])

def refused : Reply :=
  .ok (.object [("error", .object
    [("code", .number "2001"), ("message", .string "nonce too low")])])

def received : Reply :=
  .ok (.object [("result", .object [("status", .number "1"), ("gasUsed", .string "21000")])])

/-- The digits of a payload that gives as the reason of a failure that there is too little. -/
def digits : List Char :=
  "08c379a0".toList ++ List.replicate 62 '0' ++ "20".toList ++ List.replicate 63 '0' ++
    "a746f6f206c6974746c65".toList ++ List.replicate 44 '0'

def payload : String :=
  String.ofList ('0' :: 'x' :: digits)

def failed : Reply :=
  .ok (.object [("result", .object
    [("status", .number "0"), ("gasUsed", .string "30000"), ("out", .string payload)])])

/-- A node that knows the account, and what it answers to the transaction and to the second
look for its receipt. -/
def replies (submitted settled : Reply) : Nat → Reply
  | 0 => account
  | 1 => submitted
  | 2 => unknown
  | _ => settled

def life (submitted settled : Reply) : Run Nat (Except ClientError Receipt) :=
  run (recite (replies submitted settled) fun _ => 5) (keeper.execute (.transfer .zero 5)).run
    ⟨0, 0, none, .untouched⟩

/-- The first request is for the nonce, and the second hands over the payment. -/
theorem exists_queries (submitted settled : Reply) : ∃ looks,
    (life submitted settled).queries = keeper.question :: .submit firstPayment :: looks := by
  have hreported : nonceOf account = .ok 7 := by decide +kernel
  have hhanded : keeper.handOut none 7 = .ok (7, some 8) :=
    Manager.handOut_batch rfl (Manager.following_eq_ok_iff.mpr rfl)
  have hreserved : run (recite (replies submitted settled) fun _ => 5) keeper.reserve.run
      ⟨0, 0, none, .untouched⟩ = _ := Manager.run_reserve_of_reported rfl hreported hhanded
  have hsigned : (keeper.build (.transfer .zero 5) 7).sign keeper.keys = .ok firstPayment :=
    Transaction.sign_payment
  have hsent := Manager.run_send_of_signed (congrArg Run.value hreserved) hsigned
  rw [hreserved] at hsent
  rw [life]
  cases hvalue : (run (recite (replies submitted settled) fun _ => 5)
      (keeper.send (.transfer .zero 5)).run ⟨0, 0, none, .untouched⟩).value with
  | error error =>
      rw [Manager.run_execute_of_error hvalue, hsent]
      exact ⟨[], rfl⟩
  | ok hash =>
      rw [Manager.run_execute_of_ok hvalue, Run.queries_after, hsent]
      exact ⟨_, rfl⟩

theorem names_named : Names named "0xab" := by
  refine hashOf_eq_ok_iff.mp ?_
  decide +kernel

theorem settles_received :
    Settles received (.ok ⟨.null, [], 1, "", 0, "21000", "", "", "", ""⟩) := by
  refine @Settles.received _ _ none ?_ isSound_none
  exact (envelope_ofJson?_eq_some_iff reads_receipt_iff).mp rfl

theorem settles_failed :
    Settles failed (.ok ⟨.null, [], 0, "", 0, "30000", "", "", "", payload⟩) := by
  refine @Settles.received _ _ none ?_ isSound_none
  exact (envelope_ofJson?_eq_some_iff reads_receipt_iff).mp rfl

theorem carries_payload : Revert.Carries (some payload) "too little" := by
  have hvalid : ∀ value ∈ [Abi.Value.string "too little"], value.IsValid := by simp
  have hspelling : Hex.IsSpelling digits
      (Revert.selector ++ Abi.Value.block [.string "too little"]) := by decide +kernel
  have hspells : Hex.Spells payload (Revert.selector ++ Abi.Value.block [.string "too little"]) :=
    ⟨digits, .inr (.inl String.toList_ofList), hspelling⟩
  have hbound : (Abi.Value.block [.string "too little"]).length = 96 := by decide +kernel
  have hdecode := Revert.decode_string_append [] (Abi.encode_eq_ok_iff.mpr ⟨hvalid, rfl⟩)
    (by rw [List.append_nil, hbound]; decide)
  rw [List.append_nil] at hdecode
  exact ⟨payload, _, rfl, hspells, hdecode⟩

/-- The receipt that comes with the second look. -/
theorem receives_of_settles {settled : Reply} {receipt : Receipt}
    (hsettles : Settles settled (.ok receipt)) :
    Receives (replies named settled) (life named settled).queries 3 "0xab" receipt := by
  obtain ⟨looks, hqueries⟩ := exists_queries named settled
  refine ⟨1, firstPayment, 1, by rw [hqueries]; rfl, names_named, by decide, ?_, hsettles⟩
  intro earlier hearlier
  obtain rfl := Nat.lt_one_iff.mp hearlier
  exact isPending_unknown _

end Lifecycle

open Lifecycle in
/-- What becomes of the payment: it succeeds, or it fails for a reason, or nobody knows
whether it was taken, or the node refuses it. -/
theorem isLifecycle_execute_payment :
    (life named received).value = .ok ⟨.null, [], 1, "", 0, "21000", "", "", "", ""⟩ ∧
      (life named failed).value = .error (.reverted "0xab" 0 "30000" "too little") ∧
      (life (.error (.failed "down")) received).value = .error (.submission
        "0x4e0b275d7429a7527c259662a8fccbf4bb6206829fa2412efcd5edc0af66f3ea" (.failed "down")) ∧
      (life refused received).value = .error (.chain 2001 "nonce too low") ∧
      ∀ signed other, (life named received).queries[1]? = some (.submit signed) →
        (life named received).queries[2]? ≠ some (.submit other) := by
  have hlife : ∀ submitted settled, IsLifecycle keeper (.transfer .zero 5) none
      (replies submitted settled) 3 (life submitted settled).queries
      (life submitted settled).value :=
    fun submitted settled => (isLifecycle_execute .one 1 .batch 1000 3 (.transfer .zero 5)
      (replies submitted settled) (fun _ => 5) 0 none).1
  have hsubmitted : ∀ submitted settled,
      (life submitted settled).queries[1]? = some (.submit firstPayment) := by
    intro submitted settled
    obtain ⟨looks, hqueries⟩ := exists_queries submitted settled
    rw [hqueries]
    rfl
  refine ⟨?_, ?_, ?_, ?_, ?_⟩
  · exact ((hlife named received).succeeds_iff _).mpr
      ⟨rfl, "0xab", receives_of_settles settles_received⟩
  · exact ((hlife named failed).reverts_iff _ _ _ _).mpr ⟨_, receives_of_settles settles_failed,
      by decide, rfl, rfl, .inl carries_payload⟩
  · have hdigest : Hash.keccak256Text firstPayment.transaction.preimage =
        0x4e0b275d7429a7527c259662a8fccbf4bb6206829fa2412efcd5edc0af66f3ea := by
      have hpayment := Transaction.digest_payment
      rw [← KeyPair.address_one] at hpayment
      exact hpayment
    have hhex : Hex.encodePrefixed (Word.toBytes
        0x4e0b275d7429a7527c259662a8fccbf4bb6206829fa2412efcd5edc0af66f3ea) =
          "0x4e0b275d7429a7527c259662a8fccbf4bb6206829fa2412efcd5edc0af66f3ea" := by decide +kernel
    rw [(hlife _ received).lost 1 firstPayment (.failed "down") (hsubmitted _ _) .silent, hdigest,
      hhex]
  · have hanswer : IsAnswer IsName (.object [("error", .object
        [("code", .number "2001"), ("message", .string "nonce too low")])]) none
        (some ⟨2001, "nonce too low"⟩) := (envelope_ofJson?_eq_some_iff reads_name_iff).mp rfl
    exact (hlife refused received).rejected 1 firstPayment _ none ⟨2001, "nonce too low"⟩
      (hsubmitted _ _) rfl hanswer (by decide)
  · intro signed other hfirst hsecond
    have hsame := (hlife named received).submitted_once 1 2 signed other hfirst hsecond
    cases hsame

end ChainClient
