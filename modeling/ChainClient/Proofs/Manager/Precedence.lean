import ChainClient.Proofs.Json.Record
import ChainClient.Proofs.Manager.Answers

/-!
# Errors beside results

An answer is read as a whole before the error in it is looked at. So a reported error
counts before any result that can be read. Beside a result that cannot be read the error is
lost: the answer counts as one that could not be read, even if it says that a transaction
is not known yet.
-/

namespace ChainClient

open Node Scenario

variable {σ α : Type}

namespace Node

/-- The answer is an object that reports the error, whatever else it and the report hold.
No key of either occurs twice, and an empty message may be left out. -/
inductive Reports : Json → NodeError → Prop where
  | intro {members fields : List (String × Json)} {error : NodeError}
      (hmembers : (members.map Prod.fst).Nodup)
      (herror : (Json.object members).member? "error" = some (.object fields))
      (hfields : (fields.map Prod.fst).Nodup)
      (hcode : (Json.object fields).member? "code" = some (.number (toString error.code.toInt)))
      (hmessage : (Json.object fields).member? "message" = some (.string error.message) ∨
        (Json.object fields).member? "message" = none ∧ error.message = "")
      (hreal : error.code ≠ 0) : Reports (.object members) error

theorem Reports.real {answer : Json} {error : NodeError} (hreports : Reports answer error) :
    error.code ≠ 0 := by
  cases hreports
  assumption

/-- Whether the result of an answer can be read, if there is one. -/
def isLegible (read : Json → Option α) (answer : Json) : Bool :=
  (answer.member? "result").all fun result => (Json.nullable read result.settled).isSome

/-- What a request fails with whose answer reports an error: the error, if the rest of the
answer can be read. -/
def NodeError.raised (error : NodeError) (legible : Bool) : ClientError :=
  if legible then .chain error.code error.message else .transport .notReadable

/-! ## Reading the answer -/

theorem envelope_ofJson?_object {read : Json → Option α} {members : List (String × Json)}
    (hmembers : (members.map Prod.fst).Nodup) :
    Envelope.ofJson? read (.object members) = (do
      let result ← ((Json.object members).member? "result").elim (some none) fun result =>
        Json.nullable read result.settled
      let error ← ((Json.object members).member? "error").elim (some none) fun error =>
        Json.nullable NodeError.ofJson? error.settled
      some ⟨result, error⟩) := by
  rw [Envelope.ofJson?, Json.record?_settled hmembers]
  simp only [bind, Option.bind_some]
  rw [Json.withDefault_settled (by decide), Json.withDefault_settled (by decide)]

theorem nodeError_ofJson?_settled {fields : List (String × Json)} {error : NodeError}
    (hfields : (fields.map Prod.fst).Nodup)
    (hcode : (Json.object fields).member? "code" = some (.number (toString error.code.toInt)))
    (hmessage : (Json.object fields).member? "message" = some (.string error.message) ∨
      (Json.object fields).member? "message" = none ∧ error.message = "")
    (hreal : error.code ≠ 0) :
    NodeError.ofJson? (Json.object fields).settled = some error := by
  rw [NodeError.ofJson?, Json.record?_settled hfields]
  simp only [bind, Option.bind_some]
  rw [Json.withDefault_settled (by decide), Json.withDefault_settled (by decide), hcode,
    Option.elim_some, Json.settled_toString hreal, Json.asInt64?_toString]
  obtain hmessage | ⟨hmessage, hempty⟩ := hmessage
  · rw [hmessage]
    rfl
  · rw [hmessage, Option.elim_none, ← hempty]
    rfl

/-- An answer that reports an error can be read exactly if its result can. -/
theorem envelope_of_reports (read : Json → Option α) {answer : Json} {error : NodeError}
    (hreports : Reports answer error) :
    if isLegible read answer then
      ∃ result, Envelope.ofJson? read answer = some ⟨result, some error⟩
    else Envelope.ofJson? read answer = none := by
  cases hreports with
  | @intro members fields _ hmembers herror hfields hcode hmessage hreal =>
      have hread := nodeError_ofJson?_settled hfields hcode hmessage hreal
      have hnullable : Json.nullable NodeError.ofJson? (Json.object fields).settled =
          some (some error) := by
        rw [Json.settled] at hread ⊢
        rw [Json.nullable, hread]
        · rfl
        · simp
      simp only [envelope_ofJson?_object hmembers, herror, isLegible, Option.elim_some, hnullable,
        bind, Option.bind_some]
      cases (Json.object members).member? "result" with
      | none => simp
      | some result => cases hresult : Json.nullable read result.settled <;> simp [hresult]

theorem resultOf_of_reports {read : Json → Option α} {field : String} {answer : Json}
    {error : NodeError} (hreports : Reports answer error) :
    resultOf read field (.ok answer) = .error (error.raised (isLegible read answer)) := by
  have henvelope := envelope_of_reports read hreports
  rw [NodeError.raised]
  split at henvelope
  next hlegible =>
    obtain ⟨result, hread⟩ := henvelope
    rw [if_pos hlegible, resultOf_of_failure hread rfl hreports.real]
  next hlegible => rw [if_neg hlegible, resultOf_of_unreadable henvelope]

theorem nonceOf_of_reports {answer : Json} {error : NodeError} (hreports : Reports answer error) :
    nonceOf (.ok answer) = .error (error.raised (isLegible Account.ofJson? answer)) := by
  rw [nonceOf, resultOf_of_reports hreports]
  rfl

theorem ofReply_of_reports {answer : Json} {error : NodeError} (hreports : Reports answer error) :
    Look.ofReply (.ok answer) =
      if isLegible Receipt.ofJson? answer = true ∧ error.code = 4003 then .pending
      else .fatal (error.raised (isLegible Receipt.ofJson? answer)) := by
  have henvelope := envelope_of_reports Receipt.ofJson? hreports
  rw [NodeError.raised]
  split at henvelope
  next hlegible =>
    obtain ⟨result, hread⟩ := henvelope
    have hanswer : IsAnswer IsReceipt answer result (some error) :=
      (envelope_ofJson?_eq_some_iff reads_receipt_iff).mp hread
    by_cases hcode : error.code = 4003
    · rw [if_pos ⟨hlegible, hcode⟩]
      exact ofReply_of_isPending ⟨answer, result, _, rfl, hanswer, .inl ⟨error, rfl, hcode⟩⟩
    · rw [if_neg fun hpending => hcode hpending.2, if_pos hlegible]
      exact ofReply_of_settles (.refused hanswer hreports.real hcode)
  next hlegible =>
    rw [if_neg fun hpending => hlegible hpending.1, if_neg hlegible]
    exact ofReply_of_settles (.unreadable ((ofJson?_eq_none_iff reads_receipt_iff).mp henvelope))

end Node

/-! ## Requests that are answered with an error -/

namespace Operation

theorem account_eq_request (chain : UInt64) (address : Address) :
    account chain address =
      (do
        let reply ← request (.account chain address)
        settle (resultOf Account.ofJson? "account" reply)) :=
  envelope_bind_result _ _ _

theorem value_run_request_bind (respond : Responder σ) (scenario : Scenario σ) (query : Query)
    (next : Reply → Operation α) :
    (run respond (request query >>= next).run scenario).value =
      (run respond (next (respond scenario.node query).reply).run
        (scenario.asked respond query)).value := by
  rw [run_request_bind]
  rfl

/-- A request whose answer reports an error fails with this error exactly if the result
beside it can be read, and a look for a receipt goes on then if the transaction is not
known. -/
theorem value_of_reports (respond : Responder σ) (scenario : Scenario σ) {answer : Json}
    {error : NodeError} (hreports : Reports answer error) :
    (∀ chain address, (respond scenario.node (.account chain address)).reply = .ok answer →
      (run respond (account chain address).run scenario).value =
          .error (error.raised (isLegible Account.ofJson? answer)) ∧
        (run respond (nonce chain address).run scenario).value =
          .error (error.raised (isLegible Account.ofJson? answer))) ∧
    (∀ signed, (respond scenario.node (.submit signed)).reply = .ok answer →
      (run respond (submit signed).run scenario).value =
        .error (error.raised (isLegible submittedHash? answer))) ∧
    (∀ chain hash, (respond scenario.node (.receipt chain hash)).reply = .ok answer →
      (run respond (look chain hash).run scenario).value =
        .ok (if isLegible Receipt.ofJson? answer = true ∧ error.code = 4003 then .pending
          else .fatal (error.raised (isLegible Receipt.ofJson? answer)))) := by
  refine ⟨fun chain address hreply => ⟨?_, ?_⟩, fun signed hreply => ?_,
    fun chain hash hreply => ?_⟩
  · rw [account_eq_request, value_run_request_bind, hreply, resultOf_of_reports hreports]
    rfl
  · rw [nonce_eq_request, value_run_request_bind, hreply, nonceOf_of_reports hreports]
    rfl
  · rw [submit_eq_request, value_run_request_bind, hreply, hashOf, resultOf_of_reports hreports]
    rfl
  · rw [look, value_run_request_bind, hreply, ofReply_of_reports hreports]
    rfl

/-- Beside a result that can be read in each of the ways, an error counts. -/
theorem value_of_reports_beside_legible :
    let answer : Json := .object
      [("error", .object [("code", .number "4003"), ("message", .string "transaction not found")]),
        ("result", .object [("TXhash", .string "0x12"), ("nonce", .number "7")])]
    let respond : Responder Unit := fun _ _ => ⟨.ok answer, 5, ()⟩
    let scenario : Scenario Unit := ⟨(), 0, none, .untouched⟩
    let signed : SignedTransaction := ⟨.create 1 7 21000 none 0 [], "", "", 0⟩
    Reports answer ⟨4003, "transaction not found"⟩ ∧
      (run respond (account 1 .zero).run scenario).value =
        .error (.chain 4003 "transaction not found") ∧
      (run respond (nonce 1 .zero).run scenario).value =
        .error (.chain 4003 "transaction not found") ∧
      (run respond (submit signed).run scenario).value =
        .error (.chain 4003 "transaction not found") ∧
      (run respond (look 1 "0x12").run scenario).value = .ok .pending := by
  intro answer respond scenario signed
  have hreports : Reports answer ⟨4003, "transaction not found"⟩ :=
    .intro (by decide) rfl (by decide) rfl (.inl rfl) (by decide)
  obtain ⟨haccount, hsubmit, hlook⟩ := value_of_reports respond scenario hreports
  obtain ⟨haccount, hnonce⟩ := haccount 1 .zero rfl
  exact ⟨hreports, haccount, hnonce, hsubmit signed rfl, hlook 1 "0x12" rfl⟩

/-- Beside an empty text as the result, the error that a transaction is not known is lost,
and neither an error of the node nor a receipt to wait for is seen. -/
theorem error_lost_beside_text :
    let answer : Json := .object
      [("error", .object [("code", .number "4003"), ("message", .string "transaction not found")]),
        ("result", .string "")]
    let respond : Responder Unit := fun _ _ => ⟨.ok answer, 5, ()⟩
    let scenario : Scenario Unit := ⟨(), 0, none, .untouched⟩
    let signed : SignedTransaction := ⟨.create 1 7 21000 none 0 [], "", "", 0⟩
    Reports answer ⟨4003, "transaction not found"⟩ ∧
      (run respond (account 1 .zero).run scenario).value = .error (.transport .notReadable) ∧
      (run respond (nonce 1 .zero).run scenario).value = .error (.transport .notReadable) ∧
      (run respond (submit signed).run scenario).value = .error (.transport .notReadable) ∧
      (run respond (look 1 "0x12").run scenario).value =
        .ok (.fatal (.transport .notReadable)) :=
  ⟨.intro (by decide) rfl (by decide) rfl (.inl rfl) (by decide), rfl, rfl, rfl, rfl⟩

end Operation

end ChainClient
