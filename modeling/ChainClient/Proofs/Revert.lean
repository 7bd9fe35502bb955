import ChainClient.Revert
import ChainClient.Proofs.Abi.RoundTrip
import ChainClient.Proofs.Text.Spelling

/-!
# Reasons of reverted calls

Returned data carries a reason if it spells the selector and behind it data that is decoded to
one text. So a reason that a contract has encoded is found in every spelling of its payload,
whatever stands behind it, and all other data leaves the word to the node.
-/

namespace ChainClient

open Text

/-- Data that is decoded as a text is decoded to one. -/
theorem Abi.exists_string_of_decode {data : Bytes} {values : List Value}
    (hdecode : decode data [.string] = .ok values) : ∃ text, values = [.string text] := by
  obtain ⟨rest, hvalues⟩ := decode_eq_ok_iff.mp hdecode
  obtain ⟨_, value, _, _, others, -, hvalue, -, hothers, rfl⟩ :=
    yields_decodeMembers_cons.mp hvalues
  obtain ⟨text, -, rfl, -⟩ := yields_decodeString.mp hvalue
  obtain ⟨rfl, -⟩ := yields_decodeMembers_nil.mp hothers
  exact ⟨text, rfl⟩

namespace Revert

/-! ## Payloads -/

theorem isPayload_iff {out : String} :
    isPayload out = true ↔ ∃ body, Hex.Spells out (selector ++ body) := by
  rw [isPayload]
  cases hdecode : Hex.decode out with
  | error error =>
      refine iff_of_false nofun ?_
      rintro ⟨body, hspells⟩
      cases hdecode.symm.trans (Hex.decode_eq_ok_iff.mpr hspells)
  | ok bytes =>
      simp only [← Hex.decode_eq_ok_iff, hdecode, Except.ok.injEq, List.isPrefixOf_iff_prefix]
      exact exists_congr fun _ => eq_comm

theorem decode?_of_spells {out : String} {body : Bytes}
    (hspells : Hex.Spells out (selector ++ body)) {message : String} :
    decode? out = some message ↔ Abi.decode body [.string] = .ok [.string message] := by
  have hselector : selector.isPrefixOf (selector ++ body) = true :=
    List.isPrefixOf_iff_prefix.mpr (List.prefix_append selector body)
  simp only [decode?, Hex.decode_eq_ok_iff.mpr hspells, hselector, if_true, List.drop_left]
  cases hdecode : Abi.decode body [.string] with
  | error error => exact iff_of_false nofun nofun
  | ok values =>
      obtain ⟨text, rfl⟩ := Abi.exists_string_of_decode hdecode
      simp [Abi.Value.asString?]

/-- A reason is found where data behind the selector is decoded to it. -/
theorem decode?_eq_some_iff {out message : String} :
    decode? out = some message ↔ ∃ body, Hex.Spells out (selector ++ body) ∧
      Abi.decode body [.string] = .ok [.string message] := by
  constructor
  · intro hdecode
    -- the body is looked at only behind the selector
    have hpayload : isPayload out = true := by
      rw [decode?] at hdecode
      rw [isPayload]
      cases hbytes : Hex.decode out with
      | error error =>
          rw [hbytes] at hdecode
          cases hdecode
      | ok bytes =>
          simp only [hbytes] at hdecode
          split at hdecode
          next hselector => exact hselector
          next => cases hdecode
    obtain ⟨body, hspells⟩ := isPayload_iff.mp hpayload
    exact ⟨body, hspells, (decode?_of_spells hspells).mp hdecode⟩
  · rintro ⟨body, hspells, hdecode⟩
    exact (decode?_of_spells hspells).mpr hdecode

/-! ## Reasons -/

/-- The returned data spells the selector and a body that is decoded to the text. -/
def Carries (out : Option String) (message : String) : Prop :=
  ∃ text body, out = some text ∧ Hex.Spells text (selector ++ body) ∧
    Abi.decode body [.string] = .ok [.string message]

/-- What the node says of a failure: the message of its error, if there is one with a message. -/
def nodeWords (error : Option Node.NodeError) : String :=
  ((error.map Node.NodeError.message).filter (· ≠ "")).getD "N/A"

theorem bind_decode?_eq_some_iff {out : Option String} {message : String} :
    out.bind decode? = some message ↔ Carries out message := by
  rw [Option.bind_eq_some_iff]
  simp only [decode?_eq_some_iff, Carries, exists_and_left]

/-- The reason is the carried one, or else what the node says. -/
theorem reason_eq_getD (out : Option String) (error : Option Node.NodeError) :
    reason out error = (out.bind decode?).getD (nodeWords error) := by
  unfold reason
  cases out.bind decode? with
  | some message => rfl
  | none =>
      cases error with
      | none => rfl
      | some error =>
          by_cases hempty : error.message = "" <;>
            simp [nodeWords, missingReason, hempty, Option.filter]

/-- The body that a contract encodes is decoded to its reason, whatever stands behind it. -/
theorem decode_string_append {message : String} {encoded : Bytes} (extra : Bytes)
    (hencode : Abi.encode [.string message] = .ok encoded)
    (hbound : (encoded ++ extra).length < 2 ^ 63) :
    Abi.decode (encoded ++ extra) [.string] = .ok [.string message] := by
  obtain ⟨hvalid, rfl⟩ := Abi.encode_eq_ok_iff.mp hencode
  exact Abi.decode_block_append extra hvalid (by simp [Abi.Value.isSolid])
    (by simp [Abi.Value.isMeasured]) (hbound.trans (by decide))

/-- The payload of a reason is recognized in every spelling and with anything behind it, and
gives that reason. Other data carries a reason if its body is decoded to one, and if it carries
none, the reason is what the node says. -/
theorem reason_of_payload (error : Option Node.NodeError) :
    (∀ message, ∃ encoded, Abi.encode [.string message] = .ok encoded ∧
      ∀ extra out, Hex.Spells out ([0x08, 0xc3, 0x79, 0xa0] ++ encoded ++ extra) →
        out.utf8ByteSize < 2 ^ 63 →
          isPayload out = true ∧ reason (some out) error = message) ∧
    (∀ out message, Carries out message → reason out error = message) ∧
    ∀ out, (∀ message, ¬ Carries out message) → reason out error = nodeWords error := by
  have hcarried {out : Option String} {message : String} (hcarries : Carries out message) :
      reason out error = message := by
    rw [reason_eq_getD, bind_decode?_eq_some_iff.mpr hcarries, Option.getD_some]
  refine ⟨fun message => ?_, fun out message => hcarried, fun out hnone => ?_⟩
  · have hvalid : ∀ value ∈ [Abi.Value.string message], value.IsValid := by simp
    refine ⟨_, Abi.encode_eq_ok_iff.mpr ⟨hvalid, rfl⟩, fun extra out hspells hsize => ?_⟩
    rw [List.append_assoc] at hspells
    refine ⟨isPayload_iff.mpr ⟨_, hspells⟩, hcarried ⟨out, _, rfl, hspells, ?_⟩⟩
    have hbound := hspells.length_le
    rw [List.length_append] at hbound
    exact decode_string_append extra (Abi.encode_eq_ok_iff.mpr ⟨hvalid, rfl⟩) (by omega)
  · have hdecode : out.bind decode? = none := by
      rw [Option.eq_none_iff_forall_ne_some]
      exact fun message hmessage => hnone message (bind_decode?_eq_some_iff.mp hmessage)
    rw [reason_eq_getD, hdecode, Option.getD_none]

/-- A reason in upper-case digits, with a byte behind it, counts before the node's own error. -/
theorem reason_of_payload_in_upper_case :
    let message := "zu wenig €"
    let error : Node.NodeError := ⟨3, "execution reverted"⟩
    let digits := "08C379A0".toList ++ List.replicate 62 '0' ++ "20".toList ++
      List.replicate 62 '0' ++ "0C".toList ++ "7A752077656E696720E282AC".toList ++
      List.replicate 40 '0' ++ "07".toList
    let out := String.ofList ('0' :: 'X' :: digits)
    (∃ encoded, Abi.encode [.string message] = .ok encoded ∧
      Hex.Spells out ([0x08, 0xc3, 0x79, 0xa0] ++ encoded ++ [7])) ∧
    out.utf8ByteSize < 2 ^ 63 ∧ isPayload out = true ∧ reason (some out) error = message := by
  intro message error digits out
  obtain ⟨encoded, hencode, hreason⟩ := (reason_of_payload error).1 message
  have hspells : Hex.Spells out ([0x08, 0xc3, 0x79, 0xa0] ++ encoded ++ [7]) := by
    obtain ⟨-, rfl⟩ := Abi.encode_eq_ok_iff.mp hencode
    have hspelling : Hex.IsSpelling digits
        ([0x08, 0xc3, 0x79, 0xa0] ++ Abi.Value.block [.string message] ++ [7]) := by
      decide +kernel
    exact ⟨digits, .inr (.inr String.toList_ofList), hspelling⟩
  have hsize : out.utf8ByteSize < 2 ^ 63 := by decide +kernel
  exact ⟨⟨encoded, hencode, hspells⟩, hsize, hreason [7] out hspells hsize⟩

end Revert

end ChainClient
