import ChainClient.Proofs.Manager.Answers

/-!
# Waiting for a receipt

A wait looks for the receipt until an answer settles it or the budget of looks is used
up, and pauses between two looks only.
-/

namespace ChainClient

open Node Operation Scenario

variable {σ : Type} {chain : UInt64} {hash : String} {interval budget : Nat}

/-- The rest of a wait after a look, with a number of looks left. -/
def resumePoll (chain : UInt64) (hash : String) (interval budget attempts : Nat) :
    Look → Program (Except ClientError Receipt)
  | .ready receipt => .done (.ok receipt)
  | .fatal error => .done (.error error)
  | .pending =>
      if attempts = 0 then (pollReceipt chain hash interval budget attempts).run
      else .perform (.pause interval) fun (cancelled : Bool) =>
        if cancelled then .done (.error (.cancelled hash))
        else (pollReceipt chain hash interval budget attempts).run

theorem run_pollReceipt_succ (attempts : Nat) :
    (pollReceipt chain hash interval budget (attempts + 1)).run =
      .perform .isCancelled fun (cancelled : Bool) =>
        if cancelled then .done (.error (.cancelled hash))
        else .perform (.request (.receipt chain hash)) fun (reply : Reply) =>
          resumePoll chain hash interval budget attempts (Look.ofReply reply) := by
  rw [pollReceipt, run_isCancelled_bind]
  refine congrArg (Program.perform _) (funext fun (cancelled : Bool) => ?_)
  cases cancelled with
  | true => rfl
  | false =>
      simp only [Bool.false_eq_true, ↓reduceIte, look, bind_assoc, run_request_bind]
      refine congrArg (Program.perform _) (funext fun (reply : Reply) => ?_)
      rw [pure_bind]
      cases Look.ofReply reply with
      | ready receipt => rfl
      | fatal error => rfl
      | pending =>
          unfold resumePoll
          by_cases hlast : attempts = 0
          · simp only [hlast, ↓reduceIte]
          · simp only [hlast, ↓reduceIte, run_pause_bind]
            refine congrArg (Program.perform _) (funext fun (cancelled : Bool) => ?_)
            cases cancelled <;> rfl

/-- What a wait may do: look for the receipt of one transaction, and let time pass. -/
def watches (chain : UInt64) (hash : String) : Effect → Prop
  | .request query => query = .receipt chain hash
  | .isCancelled => True
  | .pause _ => True
  | .acquire => False
  | .release _ => False

theorem uses_pollReceipt (attempts : Nat) :
    (pollReceipt chain hash interval budget attempts).run.Uses (watches chain hash) := by
  induction attempts with
  | zero => trivial
  | succ attempts ih =>
      rw [run_pollReceipt_succ]
      refine ⟨trivial, fun (cancelled : Bool) => ?_⟩
      cases cancelled with
      | true => trivial
      | false =>
          refine ⟨rfl, fun (reply : Reply) => ?_⟩
          change (resumePoll chain hash interval budget attempts (Look.ofReply reply)).Uses _
          cases Look.ofReply reply with
          | ready receipt => trivial
          | fatal error => trivial
          | pending =>
              by_cases hlast : attempts = 0
              · simpa only [resumePoll, hlast, ↓reduceIte] using ih
              · simp only [resumePoll, hlast, ↓reduceIte]
                refine ⟨trivial, fun (cancelled : Bool) => ?_⟩
                cases cancelled with
                | true => trivial
                | false => exact ih

theorem uses_receipt (confirmation : Confirmation) :
    (confirmation.receipt chain hash).run.Uses (watches chain hash) := by
  cases confirmation with
  | assume => trivial
  | poll interval attempts => exact uses_pollReceipt attempts

theorem ends_pollReceipt (attempts : Nat) :
    (pollReceipt chain hash interval budget attempts).run.Ends fun value =>
      Operation.stops value = false := by
  induction attempts with
  | zero => rfl
  | succ attempts ih =>
      rw [run_pollReceipt_succ]
      intro (cancelled : Bool)
      cases cancelled with
      | true => rfl
      | false =>
          intro (reply : Reply)
          change (resumePoll chain hash interval budget attempts (Look.ofReply reply)).Ends _
          rcases isPending_or_settles reply with hpending | ⟨outcome, hsettles⟩
          · rw [ofReply_of_isPending hpending, resumePoll]
            split
            · exact ih
            · intro (cancelled : Bool)
              cases cancelled with
              | true => rfl
              | false => exact ih
          · rw [ofReply_of_settles hsettles]
            cases outcome <;> exact hsettles.stops

/-- A wait for a receipt never stops the program. -/
theorem ends_receipt (confirmation : Confirmation) :
    (confirmation.receipt chain hash).run.Ends fun value => Operation.stops value = false := by
  cases confirmation with
  | assume => rfl
  | poll interval attempts => exact ends_pollReceipt attempts

/-- Once an answer is not pending, nothing is asked any more, in whatever scenario. -/
theorem pairwise_history_pollReceipt (respond : Responder σ) (attempts : Nat)
    (scenario : Scenario σ) :
    (run respond (pollReceipt chain hash interval budget attempts).run scenario).history.Pairwise
      fun earlier later => ∀ query reply, earlier.exchange? = some (query, reply) →
        ¬ IsPending reply → later.query? = none := by
  induction attempts generalizing scenario with
  | zero => exact List.Pairwise.nil
  | succ attempts ih =>
      rw [run_pollReceipt_succ, run_isCancelled, Run.history_after, List.singleton_append]
      refine List.pairwise_cons.mpr ⟨fun _ _ _ _ hexchange => (nomatch hexchange), ?_⟩
      by_cases hcancelled : scenario.switch.cancelled = true
      · rw [if_pos hcancelled]
        exact List.Pairwise.nil
      rw [if_neg hcancelled, run_request, Run.history_after, List.singleton_append]
      rcases isPending_or_settles (respond scenario.node (.receipt chain hash)).reply with
        hpending | ⟨outcome, hsettles⟩
      · refine List.pairwise_cons.mpr ⟨?_, ?_⟩
        · intro later _ query reply hexchange hsettled
          cases hexchange
          exact absurd hpending hsettled
        rw [ofReply_of_isPending hpending, resumePoll]
        split
        · exact ih _
        rw [run_pause, Run.history_after, List.singleton_append]
        refine List.pairwise_cons.mpr ⟨fun _ _ _ _ hexchange => (nomatch hexchange), ?_⟩
        split
        · exact List.Pairwise.nil
        · exact ih _
      · rw [ofReply_of_settles hsettles]
        cases outcome <;> exact List.pairwise_singleton _ _

section Uncancelled

variable {answers : Nat → Reply} (delays : Nat → Nat) (position clock : Nat) (kept : Option UInt64)

theorem asked_untouched (query : Query) :
    asked (recite answers delays) query ⟨position, clock, kept, .untouched⟩ =
      ⟨position + 1, clock + delays position, kept, .untouched⟩ := by
  simp [asked, perform, recite, Switch.pass, Switch.untouched, Switch.settleBefore]

theorem paused_untouched (milliseconds : Nat) :
    paused (recite answers delays) milliseconds ⟨position, clock, kept, .untouched⟩ =
      ⟨position, clock + milliseconds, kept, .untouched⟩ := by
  simp [paused, perform]

/-- One look that nobody cancels. -/
theorem run_look {attempts : Nat} {look : Look} (hlook : Look.ofReply (answers position) = look) :
    run (recite answers delays) (pollReceipt chain hash interval budget (attempts + 1)).run
        ⟨position, clock, kept, .untouched⟩ =
      (run (recite answers delays) (resumePoll chain hash interval budget attempts look)
        ⟨position + 1, clock + delays position, kept, .untouched⟩).after
          [⟨clock, .isCancelled, false⟩,
            ⟨clock, .request (.receipt chain hash), answers position⟩] := by
  subst look
  rw [run_pollReceipt_succ, run_isCancelled]
  change Run.after _ (run _ (.perform (.request (.receipt chain hash)) fun (reply : Reply) =>
    resumePoll chain hash interval budget attempts (Look.ofReply reply)) _) = _
  rw [run_request, asked_untouched]
  rfl

/-- A pause after a look that has found nothing, and the looks after it. -/
theorem run_resumePoll_pending {attempts : Nat} (hmore : attempts ≠ 0) :
    run (recite answers delays) (resumePoll chain hash interval budget attempts .pending)
        ⟨position, clock, kept, .untouched⟩ =
      (run (recite answers delays) (pollReceipt chain hash interval budget attempts).run
        ⟨position, clock + interval, kept, .untouched⟩).after
          [⟨clock, .pause interval, false⟩] := by
  rw [resumePoll, if_neg hmore, run_pause, paused_untouched]
  rfl

theorem run_pollReceipt_of_settles {attempts count : Nat} {outcome : Except ClientError Receipt}
    (hcount : count < attempts)
    (hpending : ∀ earlier < count, IsPending (answers (position + earlier)))
    (hsettles : Settles (answers (position + count)) outcome) :
    let run := run (recite answers delays) (pollReceipt chain hash interval budget attempts).run
      ⟨position, clock, kept, .untouched⟩
    run.value = outcome ∧ run.queries = List.replicate (count + 1) (.receipt chain hash) ∧
      run.pauses = List.replicate count interval := by
  induction attempts generalizing count position clock with
  | zero => exact absurd hcount (Nat.not_lt_zero count)
  | succ attempts ih =>
      intro run
      simp only [run]
      cases count with
      | zero =>
          have hfirst : Settles (answers position) outcome := hsettles
          rw [run_look delays position clock kept (ofReply_of_settles hfirst)]
          cases outcome <;> exact ⟨rfl, rfl, rfl⟩
      | succ count =>
          have hfirst : IsPending (answers position) := hpending 0 (Nat.succ_pos count)
          rw [run_look delays position clock kept (ofReply_of_isPending hfirst),
            run_resumePoll_pending delays _ _ kept (by omega)]
          have hlater : ∀ earlier < count, IsPending (answers (position + 1 + earlier)) := by
            intro earlier hearlier
            rw [Nat.add_assoc, Nat.add_comm 1]
            exact hpending (earlier + 1) (by omega)
          rw [← Nat.add_assoc, Nat.add_right_comm] at hsettles
          obtain ⟨hvalue, hqueries, hpauses⟩ :=
            ih (position + 1) (clock + delays position + interval) (by omega) hlater hsettles
          refine ⟨hvalue, ?_, ?_⟩
          · rw [Run.queries_after, Run.queries_after, hqueries]
            rfl
          · rw [Run.pauses_after, Run.pauses_after, hpauses]
            rfl

theorem run_pollReceipt_of_pending {attempts : Nat}
    (hpending : ∀ earlier < attempts, IsPending (answers (position + earlier))) :
    let run := run (recite answers delays) (pollReceipt chain hash interval budget attempts).run
      ⟨position, clock, kept, .untouched⟩
    run.value = .error (.confirmationTimeout hash (interval * budget)) ∧
      run.queries = List.replicate attempts (.receipt chain hash) ∧
      run.pauses = List.replicate (attempts - 1) interval := by
  induction attempts generalizing position clock with
  | zero => exact ⟨rfl, rfl, rfl⟩
  | succ attempts ih =>
      intro run
      simp only [run]
      have hfirst : IsPending (answers position) := hpending 0 (Nat.succ_pos attempts)
      rw [run_look delays position clock kept (ofReply_of_isPending hfirst)]
      have hlater : ∀ earlier < attempts, IsPending (answers (position + 1 + earlier)) := by
        intro earlier hearlier
        rw [Nat.add_assoc, Nat.add_comm 1]
        exact hpending (earlier + 1) (by omega)
      cases attempts with
      | zero => exact ⟨rfl, rfl, rfl⟩
      | succ attempts =>
          rw [run_resumePoll_pending delays _ _ kept (Nat.succ_ne_zero attempts)]
          obtain ⟨hvalue, hqueries, hpauses⟩ :=
            ih (position + 1) (clock + delays position + interval) hlater
          refine ⟨hvalue, ?_, ?_⟩
          · rw [Run.queries_after, Run.queries_after, hqueries]
            rfl
          · rw [Run.pauses_after, Run.pauses_after, hpauses]
            rfl

end Uncancelled

/-- A wait that nobody cancels asks until the first answer that is not pending, if that is
within the budget, and ends as this answer says; else it asks as often as the budget allows
and gives up. It pauses between two requests only, and asks nothing after an answer that is
not pending. -/
theorem run_receipt_poll (answers : Nat → Reply) (delays : Nat → Nat) (chain : UInt64)
    (hash : String) (interval budget clock : Nat) (kept : Option UInt64) :
    let run := run (recite answers delays)
      ((Confirmation.poll interval budget).receipt chain hash).run ⟨0, clock, kept, .untouched⟩
    (∀ count < budget, (∀ earlier < count, IsPending (answers earlier)) →
      ¬ IsPending (answers count) →
        run.queries = List.replicate (count + 1) (.receipt chain hash) ∧
        run.pauses = List.replicate count interval ∧ Settles (answers count) run.value) ∧
    ((∀ earlier < budget, IsPending (answers earlier)) →
        run.queries = List.replicate budget (.receipt chain hash) ∧
        run.pauses = List.replicate (budget - 1) interval ∧
        run.value = .error (.confirmationTimeout hash (interval * budget))) ∧
    run.history.Pairwise fun earlier later => ∀ query reply,
      earlier.exchange? = some (query, reply) → ¬ IsPending reply → later.query? = none := by
  have hshift : ∀ {bound}, (∀ earlier < bound, IsPending (answers earlier)) →
      ∀ earlier < bound, IsPending (answers (0 + earlier)) := by
    intro bound hpending earlier hearlier
    rw [Nat.zero_add]
    exact hpending earlier hearlier
  refine ⟨?_, ?_, pairwise_history_pollReceipt _ budget _⟩
  · intro count hcount hpending hsettled
    obtain ⟨outcome, hsettles⟩ := (isPending_or_settles (answers count)).resolve_left hsettled
    obtain ⟨hvalue, hqueries, hpauses⟩ := run_pollReceipt_of_settles delays 0 clock kept hcount
      (hshift hpending) ((Nat.zero_add count).symm ▸ hsettles)
    exact ⟨hqueries, hpauses, hvalue ▸ hsettles⟩
  · intro hpending
    obtain ⟨hvalue, hqueries, hpauses⟩ :=
      run_pollReceipt_of_pending delays 0 clock kept (hshift hpending)
    exact ⟨hqueries, hpauses, hvalue⟩

/-- Waits with a budget of three looks, of which two find nothing. The third one brings a
receipt, an error of the node, or nothing again. -/
theorem run_receipt_poll_at_last_look :
    let unknown : Reply := .ok (.object
      [("error", .object
        [("code", .number "4003"), ("message", .string "transaction not found")])])
    let found : Reply := .ok (.object
      [("result", .object
        [("status", .number "1"), ("transactionHash", .string "0xab"),
          ("gasUsed", .string "21000")])])
    let refused : Reply := .ok (.object
      [("error", .object [("code", .number "2001"), ("message", .string "nonce too low")])])
    let wait := fun last : Reply =>
      run (recite (fun position => if position < 2 then unknown else last) fun _ => 5)
        ((Confirmation.poll 1000 3).receipt 7 "0xab").run ⟨0, 0, none, .untouched⟩
    IsPending unknown ∧ ¬ IsPending found ∧ ¬ IsPending refused ∧
      (wait found).queries = List.replicate 3 (.receipt 7 "0xab") ∧
      (wait found).pauses = [1000, 1000] ∧
      (wait found).value = .ok ⟨.null, [], 1, "0xab", 0, "21000", "", "", "", ""⟩ ∧
      (wait refused).queries = List.replicate 3 (.receipt 7 "0xab") ∧
      (wait refused).value = .error (.chain 2001 "nonce too low") ∧
      (wait unknown).queries = List.replicate 3 (.receipt 7 "0xab") ∧
      (wait unknown).value = .error (.confirmationTimeout "0xab" 3000) := by
  intro unknown found refused wait
  have hunknown : IsPending unknown := isPending_unknown _
  have hfound : Settles found (.ok ⟨.null, [], 1, "0xab", 0, "21000", "", "", "", ""⟩) :=
    settles_success _ _
  have hrefused : Settles refused (.error (.chain 2001 "nonce too low")) := settles_refusal _
  have hearlier : ∀ last, ∀ earlier < 2,
      IsPending ((fun position => if position < 2 then unknown else last) earlier) := by
    intro last earlier hearlier
    simp only [hearlier, ↓reduceIte]
    exact hunknown
  obtain ⟨hasked, hpaused, hreceived⟩ :=
    (run_receipt_poll (fun position => if position < 2 then unknown else found) (fun _ => 5) 7
      "0xab" 1000 3 0 none).1 2 (by decide) (hearlier found) hfound.not_isPending
  obtain ⟨hrepeated, -, hfailed⟩ :=
    (run_receipt_poll (fun position => if position < 2 then unknown else refused) (fun _ => 5) 7
      "0xab" 1000 3 0 none).1 2 (by decide) (hearlier refused) hrefused.not_isPending
  obtain ⟨hexhausted, -, htimeout⟩ :=
    (run_receipt_poll (fun position => if position < 2 then unknown else unknown) (fun _ => 5) 7
      "0xab" 1000 3 0 none).2.1 (by simpa using fun _ _ => hunknown)
  exact ⟨hunknown, hfound.not_isPending, hrefused.not_isPending, hasked, hpaused,
    hreceived.unique hfound, hrepeated, hfailed.unique hrefused, hexhausted, htimeout⟩

end ChainClient
