import ChainClient.Manager.Contract
import ChainClient.Proofs.Abi.RoundTrip
import ChainClient.Proofs.Manager.Precedence
import ChainClient.Proofs.Signing

/-!
# Results of contract calls

A call that changes nothing is a single request, whose answer settles what it returns.
Data that encodes the results of the function is decoded to them, with two exceptions:
data that starts as that of a contract that has given up counts as a reverted call, and
empty data stands for no results, also if the function has results without any data.
-/

namespace ChainClient

open Node Operation Scenario Text

variable {σ : Type}

theorem Revert.isPayload_encodePrefixed (data : Bytes) :
    isPayload (Hex.encodePrefixed data) = selector.isPrefixOf data := by
  rw [isPayload, Hex.decode_encodePrefixed]

/-- Empty data holds no results, whatever the function returns. -/
theorem Abi.Function.decodeOutputHex_encodePrefixed (function : Function) (data : Bytes) :
    function.decodeOutputHex (Hex.encodePrefixed data) =
      if data = [] then .ok [] else decode data function.outputTypes := by
  rw [decodeOutputHex, decodeHex, Hex.decode_encodePrefixed]
  cases data <;> rfl

namespace Node

/-- What an answer to a call brings, if it can be read. -/
def callResultOf : Reply → Except ClientError CallResult
  | .error error => .error (.transport error)
  | .ok json =>
      match Envelope.ofJson? Json.plain? json with
      | some envelope => .ok (.ofEnvelope envelope)
      | none => .error (.transport .notReadable)

/-- The node reports no error, and its result is a text or has one below its key. -/
def Returns (reply : Reply) (out : String) : Prop :=
  ∃ json plain error, reply = .ok json ∧
    IsAnswer (Json.Reads Json.plain?) json (some plain) error ∧ IsSound error ∧
    (plain = .string out ∨ plain.member? "out" = some (.string out))

theorem CallResult.outOf_of_member? {plain : Json} {out : String}
    (hout : plain.member? "out" = some (.string out)) : outOf plain = some out := by
  cases plain with
  | object members => simp only [outOf, hout, Option.bind_some, Json.asString?]
  | _ => cases hout

theorem callResultOf_of_returns {reply : Reply} {out : String} (hreturns : Returns reply out) :
    callResultOf reply = .ok ⟨some out, none⟩ := by
  obtain ⟨json, plain, error, rfl, hanswer, hsound, hout⟩ := hreturns
  have hread : Envelope.ofJson? Json.plain? json = some ⟨some plain, error⟩ :=
    (envelope_ofJson?_eq_some_iff Iff.rfl).mpr hanswer
  have hfailure : Envelope.failure? ⟨some plain, error⟩ = none :=
    failure?_eq_none_iff.mpr hsound
  have hfound : CallResult.outOf plain = some out := by
    rcases hout with rfl | hmember
    · rfl
    · exact CallResult.outOf_of_member? hmember
  simp only [callResultOf, hread, CallResult.ofEnvelope, hfailure, Option.bind_some, hfound]

/-- The returned data may stand in the result, below its key. -/
theorem returns_object (out : String) :
    Returns (.ok (.object [("result", .object [("out", .string out)])])) out := by
  refine ⟨_, .object [("out", .string out)], none, rfl, ?_, isSound_none, .inr rfl⟩
  exact (envelope_ofJson?_eq_some_iff Iff.rfl).mp rfl

/-- The data that a call returns, unless it has reverted. -/
def CallResult.returned (result : CallResult) : Except ClientError String :=
  if result.isReverted then .error (.callReverted result.reason) else .ok (result.out.getD "")

/-- Without an error of the node only the data says whether the call has reverted. -/
theorem CallResult.returned_of_sound (out : String) :
    CallResult.returned ⟨some out, none⟩ =
      if Revert.isPayload out then
        .error (.callReverted ((Revert.decode? out).getD Revert.missingReason))
      else .ok out := by
  have hreason : CallResult.reason ⟨some out, none⟩ =
      (Revert.decode? out).getD Revert.missingReason := by
    change Revert.reason (some out) none = _
    rw [Revert.reason, Option.bind_some]
    cases Revert.decode? out <;> rfl
  rw [returned, hreason]
  rfl

end Node

/-! ## Calls as requests -/

namespace Operation

theorem callResult_eq_request (transaction : Transaction) :
    callResult transaction =
      (do let reply ← request (.call transaction); settle (callResultOf reply)) := by
  simp only [callResult, envelope, bind_assoc]
  apply bind_congr
  intro reply
  cases reply with
  | error error => rfl
  | ok json =>
      simp only [callResultOf]
      cases Envelope.ofJson? Json.plain? json <;> rfl

end Operation

namespace Manager

theorem sendCall_eq_request (manager : Manager) (contract : Address) (input : Bytes) :
    manager.sendCall contract input = (do
      let reply ← request (.call (.query manager.chain manager.address contract input))
      settle (callResultOf reply >>= CallResult.returned)) := by
  simp only [sendCall, callResult_eq_request, bind_assoc]
  apply bind_congr
  intro reply
  cases callResultOf reply with
  | error error => rfl
  | ok result =>
      change (if result.isReverted then _ else _) = settle result.returned
      rw [CallResult.returned]
      split <;> rfl

variable {manager : Manager} {respond : Responder σ} {scenario : Scenario σ}
  {contract : Address} {function : Abi.Function} {arguments : List Abi.Value} {data : Bytes}

/-- The request by which the manager asks a contract. -/
def callQuery (manager : Manager) (contract : Address) (data : Bytes) : Query :=
  .call (.query manager.chain manager.address contract data)

theorem callFunction_eq_request (hcall : function.encodeCall arguments = .ok data) :
    manager.callFunction contract function arguments = (do
      let reply ← request (manager.callQuery contract data)
      settle (do
        let result ← callResultOf reply
        let out ← result.returned
        (function.decodeOutputHex out).mapError .decode)) := by
  rw [callFunction, hcall]
  change (manager.sendCall contract data >>= _) = _
  rw [sendCall_eq_request, bind_assoc]
  apply bind_congr
  intro reply
  cases callResultOf reply with
  | error error => rfl
  | ok result =>
      change (settle result.returned >>= _) = settle (result.returned >>= _)
      cases result.returned <;> rfl

theorem value_callFunction_of_returns {out : String}
    (hcall : function.encodeCall arguments = .ok data)
    (hreturns : Returns (respond scenario.node (manager.callQuery contract data)).reply out) :
    (run respond (manager.callFunction contract function arguments).run scenario).value =
      if Revert.isPayload out then
        .error (.callReverted ((Revert.decode? out).getD Revert.missingReason))
      else (function.decodeOutputHex out).mapError .decode := by
  rw [callFunction_eq_request hcall, value_run_request_bind, callResultOf_of_returns hreturns]
  change CallResult.returned ⟨some out, none⟩ >>= _ = _
  rw [CallResult.returned_of_sound]
  split <;> rfl

/-! ## Encoded results -/

/-- The node answers a call with the encoded form of values that the function may return. -/
structure IsAnswered (manager : Manager) (respond : Responder σ) (scenario : Scenario σ)
    (contract : Address) (function : Abi.Function) (arguments values : List Abi.Value)
    (encoded : Bytes) : Prop where
  called : ∃ data, function.encodeCall arguments = .ok data ∧
    Returns (respond scenario.node (manager.callQuery contract data)).reply
      (Hex.encodePrefixed encoded)
  types_eq : values.map Abi.Value.type = function.outputTypes
  encode_eq : Abi.encode values = .ok encoded
  length_lt : encoded.length < 2 ^ 63
  /-- No array has elements without any data. -/
  solid : ∀ value ∈ values, value.isSolid = true

/-- Encoded results that start as the data of a contract that has given up are an error, and
if there is no data there are no results. All others are decoded to themselves, if the
elements of each array among them have a size. -/
theorem value_callFunction_of_answered {values : List Abi.Value} {encoded : Bytes}
    (hanswered : manager.IsAnswered respond scenario contract function arguments values encoded) :
    let value := (run respond (manager.callFunction contract function arguments).run scenario).value
    (Revert.selector <+: encoded → value = .error (.callReverted
      ((Revert.decode? (Hex.encodePrefixed encoded)).getD Revert.missingReason))) ∧
    (encoded = [] → value = .ok []) ∧
    (¬ Revert.selector <+: encoded → encoded ≠ [] →
      (∀ value ∈ values, value.isMeasured = true) → value = .ok values) := by
  intro value
  -- the mark of a reverted call is looked for before the data is decoded
  obtain ⟨data, hcall, hreturns⟩ := hanswered.called
  have hvalue : value = if Revert.selector <+: encoded then
      .error (.callReverted
        ((Revert.decode? (Hex.encodePrefixed encoded)).getD Revert.missingReason))
      else (if encoded = [] then .ok []
        else Abi.decode encoded function.outputTypes).mapError .decode := by
    simp only [value]
    rw [value_callFunction_of_returns hcall hreturns, Revert.isPayload_encodePrefixed,
      Abi.Function.decodeOutputHex_encodePrefixed]
    simp only [List.isPrefixOf_iff_prefix]
  refine ⟨fun hmarked => ?_, fun hempty => ?_, fun hmarked hempty hmeasured => ?_⟩
  · rw [hvalue, if_pos hmarked]
  · subst hempty
    rw [hvalue, if_neg (by decide), if_pos rfl]
    rfl
  · obtain ⟨hvalid, rfl⟩ := Abi.encode_eq_ok_iff.mp hanswered.encode_eq
    have hdecode := Abi.decode_block hvalid hanswered.solid hmeasured
      (hanswered.length_lt.trans (by decide))
    rw [hvalue, if_neg hmarked, if_neg hempty, ← hanswered.types_eq, hdecode]
    rfl

/-! ### A function without parameters -/

/-- A node that returns the same data whatever it is asked. -/
def returning (out : String) : Responder Unit := fun _ _ =>
  ⟨.ok (.object [("result", .object [("out", .string out)])]), 0, ()⟩

def getter (types : List Abi.AbiType) : Abi.Function :=
  ⟨"get", [], types.map .ofType, .view⟩

theorem isAnswered_getter {scenario : Scenario Unit} (values : List Abi.Value)
    (hencode : Abi.encode values = .ok (Abi.Value.block values))
    (hbound : (Abi.Value.block values).length < 2 ^ 63)
    (hsolid : ∀ value ∈ values, value.isSolid = true) :
    manager.IsAnswered (returning (Hex.encodePrefixed (Abi.Value.block values))) scenario contract
      (getter (values.map Abi.Value.type)) [] values (Abi.Value.block values) where
  called := ⟨_, rfl, returns_object _⟩
  types_eq := by simp [getter, Abi.Function.outputTypes, Abi.Param.ofType, Abi.Param.named]
  encode_eq := hencode
  length_lt := hbound
  solid := hsolid

/-- A number and a text come back. -/
theorem value_callFunction_of_answered_pair :
    let manager : Manager := ⟨.one, 1, .network, .assume⟩
    let values : List Abi.Value := [.uint 7 256, .string "ok"]
    let respond := returning (Hex.encodePrefixed (Abi.Value.block values))
    let scenario : Scenario Unit := .start () .untouched
    let function := getter [.uint 256, .string]
    manager.IsAnswered respond scenario .zero function [] values (Abi.Value.block values) ∧
      (run respond (manager.callFunction .zero function []).run scenario).value = .ok values := by
  intro manager values respond scenario function
  have hanswered : manager.IsAnswered respond scenario .zero function [] values
      (Abi.Value.block values) :=
    isAnswered_getter values (by decide +kernel) (by decide +kernel) (by decide +kernel)
  exact ⟨hanswered, (value_callFunction_of_answered hanswered).2.2 (by decide +kernel)
    (by decide +kernel) (by decide +kernel)⟩

/-- A number whose first digits mark a reverted call, and a tuple without members, do not
come back. -/
theorem value_callFunction_ne_results :
    let manager : Manager := ⟨.one, 1, .network, .assume⟩
    let scenario : Scenario Unit := .start () .untouched
    let marked : List Abi.Value :=
      [.uint 0x08c379a000000000000000000000000000000000000000000000000000000000 256]
    let hollow : List Abi.Value := [.tuple []]
    let returned (values : List Abi.Value) : Responder Unit :=
      returning (Hex.encodePrefixed (Abi.Value.block values))
    (manager.IsAnswered (returned marked) scenario .zero (getter [.uint 256]) [] marked
        (Abi.Value.block marked) ∧
      (run (returned marked) (manager.callFunction .zero (getter [.uint 256]) []).run
        scenario).value = .error (.callReverted "N/A")) ∧
    manager.IsAnswered (returned hollow) scenario .zero (getter [.tuple []]) [] hollow
        (Abi.Value.block hollow) ∧
      (run (returned hollow) (manager.callFunction .zero (getter [.tuple []]) []).run
        scenario).value = .ok [] := by
  intro manager scenario marked hollow returned
  refine ⟨⟨?_, ?_⟩, ?_, ?_⟩
  · exact isAnswered_getter marked (by decide +kernel) (by decide +kernel) (by decide +kernel)
  · rw [value_callFunction_of_returns rfl (returns_object _)]
    decide +kernel
  · exact isAnswered_getter hollow (by decide +kernel) (by decide +kernel) (by decide +kernel)
  · rw [value_callFunction_of_returns rfl (returns_object _)]
    decide +kernel

end Manager

end ChainClient
