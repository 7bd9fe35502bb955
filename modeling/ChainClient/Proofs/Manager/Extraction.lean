import ChainClient.Manager.Contract
import ChainClient.Proofs.Abi.Log
import ChainClient.Proofs.Text.Hex

/-!
# Events of receipts

The events of a contract are found among the logs of a receipt by three questions: whether
the contract may have written the log, whether its first topic names the event, and whether
a topic follows for each indexed parameter. Logs that fail one of them are passed over, with
whatever they hold. Of the others each gives one event, or makes the extraction fail.
-/

namespace ChainClient

open Text

namespace Node.Log

variable {event : Abi.Event} {log : Log} {logs : List Log}

/-! ## Logs of an event -/

/-- The topics of the log are words and its data is bytes, all in hexadecimal. -/
structure IsLegible (log : Log) : Prop where
  topics : ∀ topic ∈ log.topics, ∃ bytes, Hex.decode topic = .ok bytes ∧ bytes.length = 32
  data : ∃ data, Hex.decode log.data = .ok data

/-- Whether the first topic of a log names the event, and one more follows for each indexed
parameter. -/
def isOf (event : Abi.Event) (log : Log) : Bool :=
  match log.topics with
  | [] => false
  | first :: others =>
      (Hex.decode first).toOption == some event.topic.toBytes &&
        others.length == (event.inputs.filter Abi.Param.indexed).length

/-- Whether a log is one of the event that the contract may have written. -/
def isOwn (contract : Address) (event : Abi.Event) (log : Log) : Bool :=
  log.isOf event && log.mayComeFrom contract

/-- The log, read as one of the event, holds the values. -/
def Holds (event : Abi.Event) (log : Log) (values : Abi.EventValues) : Prop :=
  ∃ topics data, log.topicWords = .ok topics ∧ log.dataBytes = .ok data ∧
    event.decodeLog topics data = .ok (some values)

/-- The topics of the log hold no values of the indexed parameters, or its data holds none of
the others. -/
def IsBroken (event : Abi.Event) (log : Log) : Prop :=
  ∃ topics data, log.topicWords = .ok (event.topic :: topics) ∧ log.dataBytes = .ok data ∧
    ((∃ error, Abi.decodeTopics event.indexedTypes topics = .error error) ∨
      ∃ error, Abi.decode data event.dataTypes = .error error)

theorem topicWord_eq_ok {topic : String} {bytes : Bytes} (hdecode : Hex.decode topic = .ok bytes)
    (hlength : bytes.length = 32) : topicWord topic = .ok (Word.ofBytes bytes) := by
  simp only [topicWord, hdecode, bind, Except.bind, Word.size, hlength, ↓reduceIte]

theorem IsLegible.exists_topicWords (hlegible : log.IsLegible) :
    ∃ words, log.topicWords = .ok words := by
  apply Abi.exists_mapM_eq_ok
  intro topic htopic
  obtain ⟨bytes, hdecode, hlength⟩ := hlegible.topics topic htopic
  exact ⟨_, topicWord_eq_ok hdecode hlength⟩

/-- A word is what its bytes are read as. -/
theorem ofBytes_eq_iff {bytes : Bytes} (hlength : bytes.length = 32) {word : Word} :
    Word.ofBytes bytes = word ↔ bytes = word.toBytes := by
  constructor
  · intro hword
    rw [← hword, Word.toBytes_ofBytes hlength]
  · intro hbytes
    rw [hbytes, Word.ofBytes_toBytes]

/-- A log of the event has its topic in front of the topics of parameters; no other log is
read as one of the event. -/
theorem parameterTopics?_of_isLegible (hsigned : event.anonymous = false)
    (hlegible : log.IsLegible) {words : List Word} (hwords : log.topicWords = .ok words) :
    log.isOf event = false ∧ event.parameterTopics? words = none ∨
      log.isOf event = true ∧ ∃ parameters, words = event.topic :: parameters ∧
        event.parameterTopics? words = some parameters := by
  have hread := Abi.mapM_eq_ok_iff.mp hwords
  rw [isOf]
  cases htopics : log.topics with
  | nil =>
      rw [htopics, List.forall₂_nil_left_iff] at hread
      simp [Abi.Event.parameterTopics?, hsigned, hread]
  | cons first others =>
      rw [htopics, List.forall₂_cons_left_iff] at hread
      obtain ⟨word, rest, hword, hrest, rfl⟩ := hread
      obtain ⟨bytes, hdecode, hlength⟩ := hlegible.topics first (htopics ▸ List.mem_cons_self)
      obtain rfl := Except.ok.inj ((topicWord_eq_ok hdecode hlength).symm.trans hword)
      have hcount : event.indexedTypes.length = (event.inputs.filter Abi.Param.indexed).length :=
        List.length_map _
      simp only [Abi.Event.parameterTopics?, hsigned, Bool.false_eq_true, ↓reduceIte, hcount,
        hdecode, Except.toOption, Option.some_beq_some, hrest.length_eq, ofBytes_eq_iff hlength]
      by_cases hname : bytes = event.topic.toBytes
      · by_cases hnumber : rest.length = (event.inputs.filter Abi.Param.indexed).length
        · simp [hname, hnumber]
        · simp [hname, hnumber]
      · simp [hname]

/-- What comes of a log: it is passed over, or it is one of the event and holds values or is
broken. -/
inductive Outcome (event : Abi.Event) (log : Log) :
    Except ClientError (Option Abi.EventValues) → Prop where
  | passed (hother : log.isOf event = false) : Outcome event log (.ok none)
  | found {values : Abi.EventValues} (hof : log.isOf event = true) (hholds : log.Holds event values)
      (hsound : ¬ log.IsBroken event) : Outcome event log (.ok (some values))
  | broken {error : ClientError} (hof : log.isOf event = true) (hbroken : log.IsBroken event) :
      Outcome event log (.error error)

theorem outcome_decode (hsigned : event.anonymous = false) (hlegible : log.IsLegible) :
    Outcome event log (log.decode event) := by
  obtain ⟨words, hwords⟩ := hlegible.exists_topicWords
  obtain ⟨data, hdata⟩ := hlegible.data
  have hdata : log.dataBytes = .ok data := hdata
  have hdecode : log.decode event = (event.decodeLog words data).mapError .decode := by
    simp only [decode, hwords, hdata, Except.mapError, bind, Except.bind]
  rcases parameterTopics?_of_isLegible hsigned hlegible hwords with
    ⟨hother, hnone⟩ | ⟨hof, parameters, rfl, hparameters⟩
  · have hskipped : event.decodeLog words data = .ok none := by
      rw [Abi.Event.decodeLog, hnone]
    rw [hdecode, hskipped]
    exact .passed hother
  · have hlog : event.decodeLog (event.topic :: parameters) data = (do
        let indexed ← Abi.decodeTopics event.indexedTypes parameters
        let nonIndexed ← Abi.decode data event.dataTypes
        .ok (some ⟨indexed, nonIndexed⟩)) := by
      rw [Abi.Event.decodeLog, hparameters]
    rw [hdecode, hlog]
    cases hindexed : Abi.decodeTopics event.indexedTypes parameters with
    | error error => exact .broken hof ⟨parameters, data, hwords, hdata, .inl ⟨error, hindexed⟩⟩
    | ok indexed =>
        cases hnonIndexed : Abi.decode data event.dataTypes with
        | error error =>
            exact .broken hof ⟨parameters, data, hwords, hdata, .inr ⟨error, hnonIndexed⟩⟩
        | ok nonIndexed =>
            have hread : event.decodeLog (event.topic :: parameters) data =
                .ok (some ⟨indexed, nonIndexed⟩) := by
              rw [hlog, hindexed, hnonIndexed]
              rfl
            refine .found hof ⟨_, data, hwords, hdata, hread⟩ ?_
            rintro ⟨topics, bytes, htopics, hbytes, hfails⟩
            cases hwords.symm.trans htopics
            cases hdata.symm.trans hbytes
            rcases hfails with ⟨error, herror⟩ | ⟨error, herror⟩
            · cases hindexed.symm.trans herror
            · cases hnonIndexed.symm.trans herror

theorem decode_of_not_isOf (hsigned : event.anonymous = false) (hlegible : log.IsLegible)
    (hother : log.isOf event = false) : log.decode event = .ok none := by
  have houtcome := outcome_decode hsigned hlegible
  generalize log.decode event = result at houtcome
  cases houtcome with
  | passed => rfl
  | found hof => exact absurd hof (by simp [hother])
  | broken hof => exact absurd hof (by simp [hother])

/-! ## Extraction -/

/-- What comes of the logs of an event: each gives what it holds, unless one is broken. -/
structure Extracts (event : Abi.Event) (selected : List Log)
    (outcome : Except ClientError (List Abi.EventValues)) : Prop where
  fails_iff : (∃ error, outcome = .error error) ↔ ∃ log ∈ selected, log.IsBroken event
  holds : ∀ values, outcome = .ok values → List.Forall₂ (Holds event) selected values

/-- Logs that are not of the event do not change what comes of the others. -/
theorem decodeAll_filter (hsigned : event.anonymous = false)
    (hlegible : ∀ log ∈ logs, log.IsLegible) :
    decodeAll event (logs.filter (isOf event)) = decodeAll event logs := by
  induction logs with
  | nil => rfl
  | cons log logs ih =>
      obtain ⟨hlog, hothers⟩ := List.forall_mem_cons.mp hlegible
      rw [List.filter_cons]
      cases hof : log.isOf event with
      | true => rw [if_pos rfl, decodeAll, ih hothers, decodeAll]
      | false =>
          rw [if_neg (by decide), ih hothers, decodeAll, decode_of_not_isOf hsigned hlog hof]
          cases decodeAll event logs <;> rfl

theorem extracts_decodeAll_of_isOf (hsigned : event.anonymous = false)
    (hlogs : ∀ log ∈ logs, log.IsLegible ∧ log.isOf event = true) :
    Extracts event logs (decodeAll event logs) := by
  induction logs with
  | nil => exact ⟨by simp [decodeAll], fun values hvalues => by cases hvalues; exact .nil⟩
  | cons log logs ih =>
      obtain ⟨⟨hlog, hof⟩, hothers⟩ := List.forall_mem_cons.mp hlogs
      obtain ⟨hfails, hholds⟩ := ih hothers
      have houtcome := outcome_decode hsigned hlog
      rw [decodeAll]
      generalize log.decode event = result at houtcome
      cases houtcome with
      | passed hother => exact absurd hof (by simp [hother])
      | broken _ hbroken =>
          exact ⟨iff_of_true ⟨_, rfl⟩ ⟨log, List.mem_cons_self, hbroken⟩, nofun⟩
      | @found values _ hfound hsound =>
          cases hrest : decodeAll event logs with
          | error error =>
              obtain ⟨other, hother, hbroken⟩ := hfails.mp ⟨error, hrest⟩
              exact ⟨iff_of_true ⟨_, rfl⟩ ⟨other, List.mem_cons_of_mem _ hother, hbroken⟩, nofun⟩
          | ok rest =>
              refine ⟨iff_of_false nofun ?_, ?_⟩
              · rintro ⟨other, hother, hbroken⟩
                rcases List.mem_cons.mp hother with rfl | hother
                · exact hsound hbroken
                · obtain ⟨error, herror⟩ := hfails.mpr ⟨other, hother, hbroken⟩
                  cases hrest.symm.trans herror
              · rintro - ⟨⟩
                exact .cons hfound (hholds rest hrest)

theorem extracts_decodeAll (hsigned : event.anonymous = false)
    (hlegible : ∀ log ∈ logs, log.IsLegible) :
    Extracts event (logs.filter (isOf event)) (decodeAll event logs) := by
  rw [← decodeAll_filter hsigned hlegible]
  refine extracts_decodeAll_of_isOf hsigned fun log hlog => ?_
  obtain ⟨hmem, hof⟩ := List.mem_filter.mp hlog
  exact ⟨hlegible log hmem, hof⟩

end Node.Log

open Node

theorem contractEvents_filter {contract : Address} {event : Abi.Event} {receipt : Receipt}
    (hsigned : event.anonymous = false) (hlegible : ∀ log ∈ receipt.logs, log.IsLegible) :
    contractEvents contract event receipt =
      Log.decodeAll event (receipt.logs.filter (Log.isOwn contract event)) := by
  have hcontract : ∀ log ∈ receipt.logs.filter (Log.mayComeFrom contract), log.IsLegible :=
    fun log hlog => hlegible log (List.mem_of_mem_filter hlog)
  rw [contractEvents, ← Log.decodeAll_filter hsigned hcontract, List.filter_filter]
  rfl

/-- The events that a contract, and that any contract, wrote into a receipt: the extraction
fails exactly if a log of the event is broken, and otherwise gives what each of these logs
holds, in the order of the logs. Receipts with the same logs of the event, whatever other logs
stand before, between, and behind them, give the same. -/
theorem extracts_contractEvents (contract : Address) {event : Abi.Event} {receipt : Receipt}
    (hsigned : event.anonymous = false) (hlegible : ∀ log ∈ receipt.logs, log.IsLegible) :
    Log.Extracts event (receipt.logs.filter (Log.isOwn contract event))
        (contractEvents contract event receipt) ∧
      Log.Extracts event (receipt.logs.filter (Log.isOf event)) (receipt.events event) ∧
      ∀ other : Receipt, (∀ log ∈ other.logs, log.IsLegible) →
        (other.logs.filter (Log.isOwn contract event) =
            receipt.logs.filter (Log.isOwn contract event) →
          contractEvents contract event other = contractEvents contract event receipt) ∧
        (other.logs.filter (Log.isOf event) = receipt.logs.filter (Log.isOf event) →
          other.events event = receipt.events event) := by
  refine ⟨?_, Log.extracts_decodeAll hsigned hlegible, fun other hother => ⟨?_, ?_⟩⟩
  · rw [contractEvents_filter hsigned hlegible]
    refine Log.extracts_decodeAll_of_isOf hsigned fun log hlog => ?_
    obtain ⟨hmem, hown⟩ := List.mem_filter.mp hlog
    rw [Log.isOwn, Bool.and_eq_true] at hown
    exact ⟨hlegible log hmem, hown.1⟩
  · intro hsame
    rw [contractEvents_filter hsigned hother, contractEvents_filter hsigned hlegible, hsame]
  · intro hsame
    rw [Receipt.events, Receipt.events, ← Log.decodeAll_filter hsigned hother,
      ← Log.decodeAll_filter hsigned hlegible, hsame]

/-- Of four logs one may come from the contract and is of the event. A log of another contract
that is of the event holds a count that is too large, one of the contract itself lacks a topic,
and one has no topics at all. -/
theorem extracts_contractEvents_among_others :
    let event : Abi.Event := ⟨"Moved", [⟨"count", .uint 8, true, none, []⟩,
      ⟨"amount", .uint 256, false, none, []⟩], false⟩
    let log (address : Option Address) (topics : List Word) (data : Word) : Log :=
      ⟨address, topics.map fun topic => Hex.encodePrefixed topic.toBytes,
        Hex.encodePrefixed data.toBytes, 0, "", 0⟩
    let receipt : Receipt := { Receipt.assumed "0xab" with
      logs := [log (some ⟨2⟩) [event.topic, 300] 1, log (some ⟨1⟩) [event.topic] 2,
        log none [event.topic, 7] 5, log (some ⟨1⟩) [] 3] }
    event.anonymous = false ∧ (∀ log ∈ receipt.logs, log.IsLegible) ∧
      contractEvents ⟨1⟩ event receipt = .ok [⟨[.uint 7 8], [.uint 5 256]⟩] ∧
      ∃ error, receipt.events event = .error error := by
  intro event log receipt
  have hlegible : ∀ entry ∈ receipt.logs, entry.IsLegible := by
    have hlog (address : Option Address) (topics : List Word) (data : Word) :
        (log address topics data).IsLegible := by
      refine ⟨List.forall_mem_map.mpr fun topic _ => ?_, _, Hex.decode_encodePrefixed _⟩
      exact ⟨_, Hex.decode_encodePrefixed _, Word.length_toBytes topic⟩
    simp only [receipt, List.forall_mem_cons]
    exact ⟨hlog _ _ _, hlog _ _ _, hlog _ _ _, hlog _ _ _, List.forall_mem_nil _⟩
  have hof (address : Option Address) (parameters : List Word) (data : Word) :
      (log address (event.topic :: parameters) data).isOf event = (parameters.length == 1) := by
    have hfirst : (Hex.decode (Hex.encodePrefixed event.topic.toBytes)).toOption =
        some event.topic.toBytes := by
      rw [Hex.decode_encodePrefixed, Except.toOption]
    have hsize : (event.inputs.filter Abi.Param.indexed).length = 1 := rfl
    simp only [Log.isOf, log, List.map_cons, hfirst, hsize, List.length_map, BEq.rfl, Bool.true_and]
  have hwords (address : Option Address) (topics : List Word) (data : Word) :
      (log address topics data).topicWords = .ok topics := by
    rw [Log.topicWords, Abi.mapM_eq_ok_iff, List.forall₂_map_left_iff, List.forall₂_same]
    intro topic _
    rw [Log.topicWord_eq_ok (Hex.decode_encodePrefixed _) (Word.length_toBytes topic),
      Word.ofBytes_toBytes]
  have hdata (address : Option Address) (topics : List Word) (data : Word) :
      (log address topics data).dataBytes = .ok data.toBytes := Hex.decode_encodePrefixed _
  have hforeign : (log (some ⟨2⟩) [event.topic, 300] 1).isOwn ⟨1⟩ event = false := by
    rw [Log.isOwn, hof]
    rfl
  have hshort : (log (some ⟨1⟩) [event.topic] 2).isOwn ⟨1⟩ event = false := by
    rw [Log.isOwn, hof]
    rfl
  have hunnamed : (log none [event.topic, 7] 5).isOwn ⟨1⟩ event = true := by
    rw [Log.isOwn, hof]
    rfl
  have hbare : (log (some ⟨1⟩) [] 3).isOwn ⟨1⟩ event = false := rfl
  have hown : receipt.logs.filter (Log.isOwn ⟨1⟩ event) = [log none [event.topic, 7] 5] := by
    simp only [receipt, List.filter_cons, List.filter_nil, hforeign, hshort, hunnamed, hbare,
      Bool.false_eq_true, ↓reduceIte]
  have htopics : Abi.decodeTopics event.indexedTypes [7] = .ok [.uint 7 8] := by decide +kernel
  have hrest : Abi.decode (Word.toBytes 5) event.dataTypes = .ok [.uint 5 256] := by decide +kernel
  have hread : event.decodeLog [event.topic, 7] (Word.toBytes 5) =
      .ok (some ⟨[.uint 7 8], [.uint 5 256]⟩) := by
    have hparameters : event.parameterTopics? [event.topic, 7] = some [7] :=
      @Abi.Event.parameterTopics?_heading_append event [7] rfl
    rw [Abi.Event.decodeLog, hparameters]
    simp only [htopics, hrest, bind, Except.bind]
  obtain ⟨⟨hfails, hholds⟩, ⟨hanyFails, -⟩, -⟩ :=
    @extracts_contractEvents ⟨1⟩ event receipt rfl hlegible
  rw [hown] at hfails hholds
  refine ⟨rfl, hlegible, ?_, hanyFails.mpr ?_⟩
  · cases hresult : contractEvents ⟨1⟩ event receipt with
    | error error =>
        obtain ⟨broken, hbroken, words, data, hread, hbytes, hdefect⟩ :=
          hfails.mp ⟨error, hresult⟩
        obtain rfl := List.mem_singleton.mp hbroken
        cases (hwords _ _ _).symm.trans hread
        cases (hdata _ _ _).symm.trans hbytes
        rcases hdefect with ⟨error, herror⟩ | ⟨error, herror⟩
        · cases htopics.symm.trans herror
        · cases hrest.symm.trans herror
    | ok values =>
        obtain ⟨found, others, ⟨words, data, htext, hbytes, hlog⟩, hothers, rfl⟩ :=
          List.forall₂_cons_left_iff.mp (hholds values hresult)
        cases hothers
        cases (hwords _ _ _).symm.trans htext
        cases (hdata _ _ _).symm.trans hbytes
        cases hread.symm.trans hlog
        rfl
  · refine ⟨log (some ⟨2⟩) [event.topic, 300] 1, ?_, [300], _, hwords _ _ _, hdata _ _ _, .inl ?_⟩
    · simp [receipt, hof]
    · exact ⟨.malformed (.uintTooWide 8), by decide +kernel⟩

end ChainClient
