import ChainClient.Manager.Confirmation
import ChainClient.Proofs.Answer
import ChainClient.Proofs.Manager.Effects

/-!
# What the answers of a node mean

An answer brings the result that was asked for, or an error. About a receipt it may
also say to look again: a receipt is pending while the node does not know the
transaction, or knows it and has neither an error nor a receipt to report.
-/

namespace ChainClient

open Node

variable {α : Type}

namespace Node

/-- The result that an answer brings, or the error it amounts to. -/
def resultOf (read : Json → Option α) (field : String) : Reply → Except ClientError α
  | .error error => .error (.transport error)
  | .ok json =>
      match Envelope.ofJson? read json with
      | none => .error (.transport .notReadable)
      | some envelope =>
          match envelope.failure? with
          | some error => .error (.chain error.code error.message)
          | none =>
              match envelope.result with
              | some result => .ok result
              | none => .error (.missingField field)

/-- The nonce that an answer reports of an account. -/
def nonceOf (reply : Reply) : Except ClientError UInt64 :=
  (resultOf Account.ofJson? "account" reply).map Account.nonce

/-- The name that an answer gives to a transaction. -/
def hashOf (reply : Reply) : Except ClientError String :=
  resultOf Operation.submittedHash? "TXhash" reply

/-- No error is reported. One with code zero is none. -/
def IsSound (error : Option NodeError) : Prop :=
  ∀ failure, error = some failure → failure.code = 0

theorem isSound_none : IsSound none := by
  rintro failure ⟨⟩

/-- The node has taken a transaction and names it. -/
def Names (reply : Reply) (hash : String) : Prop :=
  ∃ json error, reply = .ok json ∧ IsAnswer IsName json (some hash) error ∧ IsSound error

/-- No answer came back, or none that can be read. -/
inductive IsLost (denotes : Json → α → Prop) : Reply → TransportError → Prop where
  | silent {error : TransportError} : IsLost denotes (.error error) error
  | unreadable {json : Json} (hnone : ∀ result error, ¬ IsAnswer denotes json result error) :
      IsLost denotes (.ok json) .notReadable

/-- The receipt is still to come. -/
def IsPending (reply : Reply) : Prop :=
  ∃ json result error, reply = .ok json ∧ IsAnswer IsReceipt json result error ∧
    ((∃ failure, error = some failure ∧ failure.code = 4003) ∨ IsSound error ∧ result = none)

/-- What a wait for a receipt ends with if it ends with this answer. -/
inductive Settles : Reply → Except ClientError Receipt → Prop where
  | received {json : Json} {receipt : Receipt} {error : Option NodeError}
      (hanswer : IsAnswer IsReceipt json (some receipt) error) (hsound : IsSound error) :
      Settles (.ok json) (.ok receipt)
  | refused {json : Json} {result : Option Receipt} {error : NodeError}
      (hanswer : IsAnswer IsReceipt json result (some error)) (hreal : error.code ≠ 0)
      (hknown : error.code ≠ 4003) : Settles (.ok json) (.error (.chain error.code error.message))
  | unreadable {json : Json} (hnone : ∀ result error, ¬ IsAnswer IsReceipt json result error) :
      Settles (.ok json) (.error (.transport .notReadable))
  | lost {error : TransportError} : Settles (.error error) (.error (.transport error))

/-! ## Answers that are read -/

theorem failure?_eq_none_iff {envelope : Envelope α} :
    envelope.failure? = none ↔ IsSound envelope.error := by
  cases herror : envelope.error <;> simp [Envelope.failure?, IsSound, herror]

theorem failure?_eq_some_iff {envelope : Envelope α} {error : NodeError} :
    envelope.failure? = some error ↔ envelope.error = some error ∧ error.code ≠ 0 := by
  simp [Envelope.failure?, Option.filter_eq_some_iff]

theorem isNotFound_iff {error : NodeError} : error.isNotFound = true ↔ error.code = 4003 := by
  simp [NodeError.isNotFound, NodeError.notFoundCode]

theorem ofJson?_eq_none_iff {read : Json → Option α} {denotes : Json → α → Prop} {json : Json}
    (hdenotes : ∀ {json result}, json.Reads read result ↔ denotes json result) :
    Envelope.ofJson? read json = none ↔ ∀ result error, ¬ IsAnswer denotes json result error := by
  rw [Option.eq_none_iff_forall_ne_some]
  constructor
  · intro hnone result error hanswer
    exact hnone ⟨result, error⟩ ((envelope_ofJson?_eq_some_iff hdenotes).mpr hanswer)
  · rintro hnone envelope hread
    exact hnone _ _ ((envelope_ofJson?_eq_some_iff hdenotes).mp hread)

/-- An answer brings the result that it reports beside no error. -/
theorem resultOf_eq_ok_iff {read : Json → Option α} {denotes : Json → α → Prop}
    {field : String} {reply : Reply} {result : α}
    (hdenotes : ∀ {json result}, json.Reads read result ↔ denotes json result) :
    resultOf read field reply = .ok result ↔
      ∃ json error, reply = .ok json ∧ IsAnswer denotes json (some result) error ∧
        IsSound error := by
  constructor
  · intro hresult
    cases reply with
    | error error => cases hresult
    | ok json =>
        simp only [resultOf] at hresult
        cases hread : Envelope.ofJson? read json with
        | none => simp [hread] at hresult
        | some envelope =>
            rw [hread] at hresult
            dsimp only at hresult
            cases hfailure : envelope.failure? with
            | some error => simp [hfailure] at hresult
            | none =>
                rw [hfailure] at hresult
                cases hfound : envelope.result with
                | none => simp [hfound] at hresult
                | some found =>
                    rw [hfound] at hresult
                    obtain rfl := Except.ok.inj hresult
                    have hanswer := (envelope_ofJson?_eq_some_iff hdenotes).mp hread
                    rw [hfound] at hanswer
                    exact ⟨json, _, rfl, hanswer, failure?_eq_none_iff.mp hfailure⟩
  · rintro ⟨json, error, rfl, hanswer, hsound⟩
    have hread : Envelope.ofJson? read json = some ⟨some result, error⟩ :=
      (envelope_ofJson?_eq_some_iff hdenotes).mpr hanswer
    have hfailure : Envelope.failure? ⟨some result, error⟩ = none :=
      failure?_eq_none_iff.mpr hsound
    simp only [resultOf, hread, hfailure]

theorem hashOf_eq_ok_iff {reply : Reply} {hash : String} :
    hashOf reply = .ok hash ↔ Names reply hash :=
  resultOf_eq_ok_iff reads_name_iff

theorem Names.unique {reply : Reply} {first second : String} (hfirst : Names reply first)
    (hsecond : Names reply second) : first = second :=
  Except.ok.inj ((hashOf_eq_ok_iff.mpr hfirst).symm.trans (hashOf_eq_ok_iff.mpr hsecond))

theorem resultOf_of_failure {read : Json → Option α} {field : String} {json : Json}
    {envelope : Envelope α} {error : NodeError}
    (hread : Envelope.ofJson? read json = some envelope)
    (herror : envelope.error = some error) (hreal : error.code ≠ 0) :
    resultOf read field (.ok json) = .error (.chain error.code error.message) := by
  simp only [resultOf, hread, failure?_eq_some_iff.mpr ⟨herror, hreal⟩]

theorem resultOf_of_unreadable {read : Json → Option α} {field : String} {json : Json}
    (hread : Envelope.ofJson? read json = none) :
    resultOf read field (.ok json) = .error (.transport .notReadable) := by
  simp only [resultOf, hread]

theorem hashOf_of_isLost {reply : Reply} {source : TransportError}
    (hlost : IsLost IsName reply source) : hashOf reply = .error (.transport source) := by
  cases hlost with
  | silent => rfl
  | unreadable hnone =>
      exact resultOf_of_unreadable ((ofJson?_eq_none_iff reads_name_iff).mpr hnone)

/-- An error of the node counts before a name. -/
theorem hashOf_of_error {json : Json} {result : Option String} {error : NodeError}
    (hanswer : IsAnswer IsName json result (some error)) (hreal : error.code ≠ 0) :
    hashOf (.ok json) = .error (.chain error.code error.message) := by
  have hread : Envelope.ofJson? Operation.submittedHash? json = some ⟨result, some error⟩ :=
    (envelope_ofJson?_eq_some_iff reads_name_iff).mpr hanswer
  exact resultOf_of_failure hread rfl hreal

/-- A request fails because no answer comes back, with the error that the node reports, or
for want of a result. -/
theorem error_of_resultOf {read : Json → Option α} {field : String} {reply : Reply}
    {error : ClientError} (hresult : resultOf read field reply = .error error) :
    (∃ source, error = .transport source) ∨ (∃ code message, error = .chain code message) ∨
      error = .missingField field := by
  cases reply with
  | error source =>
      cases hresult
      exact .inl ⟨source, rfl⟩
  | ok json =>
      simp only [resultOf] at hresult
      cases hread : Envelope.ofJson? read json with
      | none =>
          rw [hread] at hresult
          cases hresult
          exact .inl ⟨.notReadable, rfl⟩
      | some envelope =>
          rw [hread] at hresult
          dsimp only at hresult
          cases hfailure : envelope.failure? with
          | some failure =>
              rw [hfailure] at hresult
              cases hresult
              exact .inr (.inl ⟨failure.code, failure.message, rfl⟩)
          | none =>
              rw [hfailure] at hresult
              cases hfound : envelope.result with
              | some result => simp [hfound] at hresult
              | none =>
                  rw [hfound] at hresult
                  cases hresult
                  exact .inr (.inr rfl)

theorem resultOf_ne_reverted {read : Json → Option α} {field hash gasUsed reason : String}
    {reply : Reply} {status : Int64} :
    resultOf read field reply ≠ .error (.reverted hash status gasUsed reason) := by
  intro hresult
  rcases error_of_resultOf hresult with ⟨_, herror⟩ | ⟨_, _, herror⟩ | herror <;> cases herror

/-- A request that fails is reported; the program does not stop. -/
theorem stops_of_resultOf {read : Json → Option α} {field : String} {reply : Reply}
    {error : ClientError} (hresult : resultOf read field reply = .error error) :
    error.stops = false := by
  rcases error_of_resultOf hresult with ⟨_, rfl⟩ | ⟨_, _, rfl⟩ | rfl <;> rfl

theorem error_of_nonceOf {reply : Reply} {error : ClientError}
    (hnonce : nonceOf reply = .error error) :
    resultOf Account.ofJson? "account" reply = .error error := by
  unfold nonceOf at hnonce
  cases hresult : resultOf Account.ofJson? "account" reply with
  | ok account =>
      rw [hresult] at hnonce
      cases hnonce
  | error other =>
      rw [hresult] at hnonce
      cases hnonce
      rfl

theorem nonceOf_ne_reverted {reply : Reply} {status : Int64} {hash gasUsed reason : String} :
    nonceOf reply ≠ .error (.reverted hash status gasUsed reason) :=
  fun hnonce => resultOf_ne_reverted (error_of_nonceOf hnonce)

/-! ## Answers about receipts -/

theorem isPending_or_settles (reply : Reply) :
    IsPending reply ∨ ∃ outcome, Settles reply outcome := by
  rcases reply with error | json
  · exact .inr ⟨_, .lost⟩
  cases hread : Envelope.ofJson? Receipt.ofJson? json with
  | none => exact .inr ⟨_, .unreadable ((ofJson?_eq_none_iff reads_receipt_iff).mp hread)⟩
  | some envelope =>
      obtain ⟨result, error⟩ := envelope
      have hanswer : IsAnswer IsReceipt json result error :=
        (envelope_ofJson?_eq_some_iff reads_receipt_iff).mp hread
      by_cases hsound : IsSound error
      · cases result with
        | none => exact .inl ⟨json, none, error, rfl, hanswer, .inr ⟨hsound, rfl⟩⟩
        | some receipt => exact .inr ⟨_, .received hanswer hsound⟩
      · obtain ⟨failure, rfl, hreal⟩ : ∃ failure, error = some failure ∧ failure.code ≠ 0 := by
          simpa [IsSound] using hsound
        by_cases hcode : failure.code = 4003
        · exact .inl ⟨json, result, _, rfl, hanswer, .inl ⟨failure, rfl, hcode⟩⟩
        · exact .inr ⟨_, .refused hanswer hreal hcode⟩

/-- Among so many answers there is a first one that is not pending, or there is none. -/
theorem forall_isPending_or_settles (answers : Nat → Reply) (bound : Nat) :
    (∀ earlier < bound, IsPending (answers earlier)) ∨
      ∃ count < bound, (∀ earlier < count, IsPending (answers earlier)) ∧
        ∃ outcome, Settles (answers count) outcome := by
  induction bound with
  | zero => exact .inl fun _ hearlier => absurd hearlier (Nat.not_lt_zero _)
  | succ bound ih =>
      rcases ih with hpending | ⟨count, hcount, hfirst⟩
      · rcases isPending_or_settles (answers bound) with hlast | hsettles
        · exact .inl (Nat.forall_lt_succ_right.mpr ⟨hpending, hlast⟩)
        · exact .inr ⟨bound, Nat.lt_succ_self bound, hpending, hsettles⟩
      · exact .inr ⟨count, Nat.lt_succ_of_lt hcount, hfirst⟩

theorem ofReply_of_isAnswer {json : Json} {result : Option Receipt} {error : Option NodeError}
    (hanswer : IsAnswer IsReceipt json result error) :
    Look.ofReply (.ok json) = Look.ofEnvelope ⟨result, error⟩ := by
  have hread : Envelope.ofJson? Receipt.ofJson? json = some ⟨result, error⟩ :=
    (envelope_ofJson?_eq_some_iff reads_receipt_iff).mpr hanswer
  simp only [Look.ofReply, hread]

theorem ofReply_of_isPending {reply : Reply} (hpending : IsPending reply) :
    Look.ofReply reply = .pending := by
  obtain ⟨json, result, error, rfl, hanswer, ⟨failure, rfl, hcode⟩ | ⟨hsound, rfl⟩⟩ := hpending
  · have hfailure : Envelope.failure? ⟨result, some failure⟩ = some failure :=
      failure?_eq_some_iff.mpr ⟨rfl, by rw [hcode]; decide⟩
    rw [ofReply_of_isAnswer hanswer, Look.ofEnvelope, hfailure]
    exact if_pos (isNotFound_iff.mpr hcode)
  · have hfailure : Envelope.failure? (⟨none, error⟩ : Envelope Receipt) = none :=
      failure?_eq_none_iff.mpr hsound
    rw [ofReply_of_isAnswer hanswer, Look.ofEnvelope, hfailure]

theorem ofReply_of_settles {reply : Reply} {outcome : Except ClientError Receipt}
    (hsettles : Settles reply outcome) :
    Look.ofReply reply = match outcome with
      | .ok receipt => .ready receipt
      | .error error => .fatal error := by
  cases hsettles with
  | @received json receipt error hanswer hsound =>
      have hfailure : Envelope.failure? ⟨some receipt, error⟩ = none :=
        failure?_eq_none_iff.mpr hsound
      rw [ofReply_of_isAnswer hanswer, Look.ofEnvelope, hfailure]
  | @refused json result error hanswer hreal hknown =>
      have hfailure : Envelope.failure? ⟨result, some error⟩ = some error :=
        failure?_eq_some_iff.mpr ⟨rfl, hreal⟩
      rw [ofReply_of_isAnswer hanswer, Look.ofEnvelope, hfailure]
      exact if_neg (mt isNotFound_iff.mp hknown)
  | unreadable hnone =>
      simp only [Look.ofReply, (ofJson?_eq_none_iff reads_receipt_iff).mpr hnone]
  | lost => rfl

theorem Settles.not_isPending {reply : Reply} {outcome : Except ClientError Receipt}
    (hsettles : Settles reply outcome) : ¬ IsPending reply := by
  intro hpending
  have heq := (ofReply_of_settles hsettles).symm.trans (ofReply_of_isPending hpending)
  cases outcome <;> cases heq

theorem Settles.unique {reply : Reply} {first second : Except ClientError Receipt}
    (hfirst : Settles reply first) (hsecond : Settles reply second) : first = second := by
  have heq := (ofReply_of_settles hfirst).symm.trans (ofReply_of_settles hsecond)
  cases first <;> cases second <;> cases heq <;> rfl

theorem not_settles_reverted {reply : Reply} {status : Int64} {hash gasUsed reason : String} :
    ¬ Settles reply (.error (.reverted hash status gasUsed reason)) :=
  nofun

theorem Settles.stops {reply : Reply} {outcome : Except ClientError Receipt}
    (hsettles : Settles reply outcome) : Operation.stops outcome = false := by
  cases hsettles <;> rfl

/-! ### What a node writes -/

theorem isPending_unknown (message : String) :
    IsPending (.ok (.object [("error", .object
      [("code", .number "4003"), ("message", .string message)])])) :=
  ⟨_, none, some ⟨4003, message⟩, rfl,
    (envelope_ofJson?_eq_some_iff reads_receipt_iff).mp rfl, .inl ⟨_, rfl, rfl⟩⟩

theorem settles_refusal (message : String) :
    Settles (.ok (.object [("error", .object
      [("code", .number "2001"), ("message", .string message)])]))
      (.error (.chain 2001 message)) := by
  refine @Settles.refused _ none ⟨2001, message⟩ ?_ (show (2001 : Int64) ≠ 0 by decide)
    (show (2001 : Int64) ≠ 4003 by decide)
  exact (envelope_ofJson?_eq_some_iff reads_receipt_iff).mp rfl

theorem settles_success (hash gasUsed : String) :
    Settles (.ok (.object [("result", .object
      [("status", .number "1"), ("transactionHash", .string hash),
        ("gasUsed", .string gasUsed)])]))
      (.ok ⟨.null, [], 1, hash, 0, gasUsed, "", "", "", ""⟩) := by
  refine @Settles.received _ _ none ?_ isSound_none
  exact (envelope_ofJson?_eq_some_iff reads_receipt_iff).mp rfl

end Node

/-! ## Requests that are read at once -/

namespace Operation

theorem envelope_bind_result (query : Query) (read : Json → Option α) (field : String) :
    (do let envelope ← envelope query read; result envelope field) =
      (do let reply ← request query; settle (resultOf read field reply)) := by
  simp only [envelope, bind_assoc]
  apply bind_congr
  intro reply
  cases reply with
  | error error => rfl
  | ok json =>
      simp only [resultOf]
      cases Envelope.ofJson? read json with
      | none => rfl
      | some envelope =>
          simp only [pure_bind, result]
          cases envelope.failure? with
          | some error => rfl
          | none => cases envelope.result <;> rfl

theorem nonce_eq_request (chain : UInt64) (address : Address) :
    nonce chain address =
      (do let reply ← request (.account chain address); settle (nonceOf reply)) := by
  simp only [nonce, account, envelope_bind_result, bind_assoc]
  apply bind_congr
  intro reply
  rw [nonceOf]
  cases resultOf Account.ofJson? "account" reply <;> rfl

theorem submit_eq_request (signed : SignedTransaction) :
    submit signed = (do let reply ← request (.submit signed); settle (hashOf reply)) :=
  envelope_bind_result _ _ _

end Operation

end ChainClient
