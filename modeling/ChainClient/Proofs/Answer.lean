import ChainClient.Manager.Access
import ChainClient.Proofs.Json.Parts

/-!
# What answers say

An answer is a record of a result and an error, each of which may be missing or null. What
an error, a receipt, and the name of a transaction are written as is stated here by the parts
of the values, apart from the readers, and the readers find exactly that.
-/

namespace ChainClient.Node

open Json

variable {α : Type} {json : Json}

/-! ## Errors and answers -/

/-- The value is a text. -/
def IsText (json : Json) (text : String) : Prop :=
  json = .string text

/-- The value reports the error: its code, which is zero if it is left out, and its message. -/
def IsError (json : Json) (error : NodeError) : Prop :=
  ∃ parts, json.HasParts ["code", "message"] parts ∧
    Tells (Reads asInt64?) 0 (parts "code") error.code ∧
    Tells IsText "" (parts "message") error.message

/-- The value answers with a result and an error, each if it is neither missing nor null. -/
def IsAnswer (denotes : Json → α → Prop) (json : Json) (result : Option α)
    (error : Option NodeError) : Prop :=
  ∃ parts, json.HasParts ["result", "error"] parts ∧
    Offers denotes (parts "result") result ∧ Offers IsError (parts "error") error

theorem reads_text_iff {text : String} :
    Reads asString? json text ↔ IsText json text := by
  cases json with
  | number literal =>
      rw [Reads, settled]
      split <;> simp [asString?, IsText]
  | _ => simp [Reads, settled, asString?, IsText]

theorem reads_nodeError_iff {error : NodeError} :
    Reads NodeError.ofJson? json error ↔ IsError json error := by
  refine bind_record?_eq_some_iff (by decide) fun record parts hfields => ?_
  simp only [bind, Option.bind_eq_some_iff,
    withDefault_eq_some_iff Iff.rfl (hfields "code" (by decide)),
    withDefault_eq_some_iff reads_text_iff (hfields "message" (by decide))]
  constructor
  · rintro ⟨code, hcode, message, hmessage, hresult⟩
    obtain rfl := Option.some.inj hresult
    exact ⟨hcode, hmessage⟩
  · rintro ⟨hcode, hmessage⟩
    exact ⟨_, hcode, _, hmessage, rfl⟩

/-- The reader of answers finds the result and the error that the value answers with. -/
theorem envelope_ofJson?_eq_some_iff {read : Json → Option α} {denotes : Json → α → Prop}
    {result : Option α} {error : Option NodeError}
    (hdenotes : ∀ {json result}, Reads read json result ↔ denotes json result) :
    Envelope.ofJson? read json = some ⟨result, error⟩ ↔ IsAnswer denotes json result error := by
  refine bind_record?_eq_some_iff (by decide) fun record parts hfields => ?_
  simp only [bind, Option.bind_eq_some_iff,
    withDefault_nullable_eq_some_iff hdenotes (hfields "result" (by decide)),
    withDefault_nullable_eq_some_iff reads_nodeError_iff (hfields "error" (by decide))]
  constructor
  · rintro ⟨_, hresult, _, herror, henvelope⟩
    obtain ⟨rfl, rfl⟩ := Envelope.mk.inj (Option.some.inj henvelope)
    exact ⟨hresult, herror⟩
  · rintro ⟨hresult, herror⟩
    exact ⟨_, hresult, _, herror, rfl⟩

/-! ## Results -/

/-- The value reports the log. Whatever is left out is empty or zero. -/
def IsLog (json : Json) (log : Log) : Prop :=
  ∃ parts,
    json.HasParts ["address", "topics", "data", "blockNumber", "transactionHash", "index"] parts ∧
    Offers (Reads asAddress?) (parts "address") log.address ∧
    Tells (Lists IsText) [] (parts "topics") log.topics ∧
    Tells (Reads lenientString?) "" (parts "data") log.data ∧
    Tells (Reads lenientUInt64?) 0 (parts "blockNumber") log.blockNumber ∧
    Tells (Reads lenientString?) "" (parts "transactionHash") log.transactionHash ∧
    Tells (Reads lenientUInt64?) 0 (parts "index") log.index

/-- The value reports the receipt. Whatever is left out is empty or zero. -/
def IsReceipt (json : Json) (receipt : Receipt) : Prop :=
  ∃ parts,
    json.HasParts ["tx", "logs", "status", "transactionHash", "blockHeight", "gasUsed", "gasFee",
      "contractAddress", "root", "out"] parts ∧
    Tells (Reads plain?) .null (parts "tx") receipt.transaction ∧
    Tells (Lists IsLog) [] (parts "logs") receipt.logs ∧
    Tells (Reads asInt64?) 0 (parts "status") receipt.status ∧
    Tells (Reads lenientString?) "" (parts "transactionHash") receipt.transactionHash ∧
    Tells (Reads lenientUInt64?) 0 (parts "blockHeight") receipt.blockHeight ∧
    Tells (Reads lenientString?) "" (parts "gasUsed") receipt.gasUsed ∧
    Tells (Reads lenientString?) "" (parts "gasFee") receipt.gasFee ∧
    Tells (Reads lenientString?) "" (parts "contractAddress") receipt.contractAddress ∧
    Tells (Reads lenientString?) "" (parts "root") receipt.root ∧
    Tells (Reads lenientString?) "" (parts "out") receipt.out

/-- The value names a submitted transaction. -/
def IsName (json : Json) (hash : String) : Prop :=
  ∃ parts, json.HasParts ["TXhash"] parts ∧ parts "TXhash" = some (.string hash)

theorem reads_log_iff {log : Log} : Reads Log.ofJson? json log ↔ IsLog json log := by
  refine bind_record?_eq_some_iff (by decide) fun record parts hfields => ?_
  simp only [bind, Option.bind_eq_some_iff,
    withDefault_nullable_eq_some_iff Iff.rfl (hfields "address" (by decide)),
    withDefault_eq_some_iff (lists_iff reads_text_iff) (hfields "topics" (by decide)),
    withDefault_eq_some_iff Iff.rfl (hfields "data" (by decide)),
    withDefault_eq_some_iff Iff.rfl (hfields "blockNumber" (by decide)),
    withDefault_eq_some_iff Iff.rfl (hfields "transactionHash" (by decide)),
    withDefault_eq_some_iff Iff.rfl (hfields "index" (by decide))]
  constructor
  · rintro ⟨_, haddress, _, htopics, _, hdata, _, hblock, _, hhash, _, hindex, hresult⟩
    obtain rfl := Option.some.inj hresult
    exact ⟨haddress, htopics, hdata, hblock, hhash, hindex⟩
  · rintro ⟨haddress, htopics, hdata, hblock, hhash, hindex⟩
    exact ⟨_, haddress, _, htopics, _, hdata, _, hblock, _, hhash, _, hindex, rfl⟩

theorem reads_receipt_iff {receipt : Receipt} :
    Reads Receipt.ofJson? json receipt ↔ IsReceipt json receipt := by
  refine bind_record?_eq_some_iff (by decide) fun record parts hfields => ?_
  simp only [bind, Option.bind_eq_some_iff,
    withDefault_eq_some_iff Iff.rfl (hfields "tx" (by decide)),
    withDefault_eq_some_iff (lists_iff reads_log_iff) (hfields "logs" (by decide)),
    withDefault_eq_some_iff Iff.rfl (hfields "status" (by decide)),
    withDefault_eq_some_iff Iff.rfl (hfields "transactionHash" (by decide)),
    withDefault_eq_some_iff Iff.rfl (hfields "blockHeight" (by decide)),
    withDefault_eq_some_iff Iff.rfl (hfields "gasUsed" (by decide)),
    withDefault_eq_some_iff Iff.rfl (hfields "gasFee" (by decide)),
    withDefault_eq_some_iff Iff.rfl (hfields "contractAddress" (by decide)),
    withDefault_eq_some_iff Iff.rfl (hfields "root" (by decide)),
    withDefault_eq_some_iff Iff.rfl (hfields "out" (by decide))]
  constructor
  · rintro ⟨_, htransaction, _, hlogs, _, hstatus, _, hhash, _, hheight, _, hused, _, hfee, _,
      hcontract, _, hroot, _, hout, hresult⟩
    obtain rfl := Option.some.inj hresult
    exact ⟨htransaction, hlogs, hstatus, hhash, hheight, hused, hfee, hcontract, hroot, hout⟩
  · rintro ⟨htransaction, hlogs, hstatus, hhash, hheight, hused, hfee, hcontract, hroot, hout⟩
    exact ⟨_, htransaction, _, hlogs, _, hstatus, _, hhash, _, hheight, _, hused, _, hfee, _,
      hcontract, _, hroot, _, hout, rfl⟩

theorem reads_name_iff {hash : String} :
    Reads Operation.submittedHash? json hash ↔ IsName json hash := by
  refine bind_record?_eq_some_iff (by decide) fun record parts hfields => ?_
  rw [Record.required, hfields "TXhash" (by decide), Option.bind_eq_some_iff]
  simp only [Option.map_eq_some_iff]
  constructor
  · rintro ⟨_, ⟨part, hpart, rfl⟩, hread⟩
    obtain rfl : part = .string hash := reads_text_iff.mp hread
    exact hpart
  · intro hpart
    exact ⟨_, ⟨_, hpart, rfl⟩, rfl⟩

end ChainClient.Node
