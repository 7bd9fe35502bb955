import ChainClient.Bytes
import ChainClient.Word
import ChainClient.Text.Printable
import ChainClient.Text.Blank
import ChainClient.Text.Quoted
import ChainClient.Text.Numeral
import ChainClient.Text.Hex
import ChainClient.Hash.Keccak
import ChainClient.Hash.Sha256
import ChainClient.Address
import ChainClient.Iban
import ChainClient.Curve.Modular
import ChainClient.Curve.Point
import ChainClient.Curve.Ecdsa
import ChainClient.KeyPair
import ChainClient.Signature
import ChainClient.Abi.Type
import ChainClient.Abi.Error
import ChainClient.Abi.Type.Parser
import ChainClient.Abi.Value
import ChainClient.Abi.Encoder
import ChainClient.Abi.Decoder
import ChainClient.Abi.Function
import ChainClient.Abi.Event
import ChainClient.Abi.Interface
import ChainClient.Abi.Struct
import ChainClient.Number.Decimal
import ChainClient.Number.Binary64
import ChainClient.Json.Basic
import ChainClient.Json.Numeral
import ChainClient.Json.Plain
import ChainClient.Json.Settled
import ChainClient.Json.Printer
import ChainClient.Json.Parser
import ChainClient.Json.Record
import ChainClient.Abi.Declaration
import ChainClient.Cheque
import ChainClient.Node.Account
import ChainClient.Node.CallResult
import ChainClient.Transaction
import ChainClient.Revert
import ChainClient.Node.Lenient
import ChainClient.Node.Envelope
import ChainClient.Error
import ChainClient.Node.Receipt
import ChainClient.Config
import ChainClient.Node.Query
import ChainClient.Manager.Program
import ChainClient.Manager.Access
import ChainClient.Manager.Submission
import ChainClient.Manager.Confirmation
import ChainClient.Manager.Contract
import ChainClient.Scenario.Switch
import ChainClient.Scenario.Run
import ChainClient.Scenario.Script
import ChainClient.Proofs.Abi.Induction
import ChainClient.Proofs.Text.Digits
import ChainClient.Proofs.Text.Hex
import ChainClient.Proofs.Signing
import ChainClient.Proofs.Abi.Form
import ChainClient.Proofs.Abi.Reading
import ChainClient.Proofs.Abi.Budget
import ChainClient.Proofs.Abi.Extension
import ChainClient.Proofs.Abi.RoundTrip
import ChainClient.Proofs.Abi.Soundness
import ChainClient.Proofs.Abi.Exactness
import ChainClient.Proofs.Abi.CallData
import ChainClient.Proofs.Abi.Log
import ChainClient.Proofs.Abi.Canonical
import ChainClient.Proofs.Abi.Grammar
import ChainClient.Proofs.Abi.HeadSize
import ChainClient.Proofs.Abi.Opaque
import ChainClient.Proofs.Abi.Hollow
import ChainClient.Proofs.Json.Record
import ChainClient.Proofs.Json.Spelling
import ChainClient.Proofs.Abi.Declared
import ChainClient.Proofs.Abi.Balance
import ChainClient.Proofs.Abi.Nesting
import ChainClient.Proofs.Abi.Written
import ChainClient.Proofs.Abi.Registry
import ChainClient.Proofs.Manager.Answers
import ChainClient.Proofs.Manager.Precedence
import ChainClient.Proofs.Manager.Polling
import ChainClient.Proofs.Manager.Reservation
import ChainClient.Proofs.Manager.Counting
import ChainClient.Proofs.Manager.Exclusion
import ChainClient.Proofs.Manager.Lifecycle
import ChainClient.Proofs.Manager.Agreement
import ChainClient.Proofs.Manager.Spending
import ChainClient.Proofs.Preimage
import ChainClient.Proofs.Manager.Outputs
import ChainClient.Proofs.Iban
import ChainClient.Proofs.Text.Case
import ChainClient.Proofs.Text.Spelling
import ChainClient.Proofs.Text.Numeral
import ChainClient.Proofs.Json.Literal
import ChainClient.Proofs.Lenient
import ChainClient.Proofs.Iban.Detection
import ChainClient.Proofs.Address
import ChainClient.Proofs.Revert
import ChainClient.Proofs.Manager.Extraction
import ChainClient.Proofs.Manager.Switch
import ChainClient.Proofs.Manager.Cancellation
import ChainClient.Proofs.Abi.SignedRange
import ChainClient.Proofs.Signature
import ChainClient.Proofs.Abi.Cursor
import ChainClient.Proofs.Manager.Exhaustion
