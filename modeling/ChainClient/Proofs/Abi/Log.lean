import ChainClient.Abi.Event
import ChainClient.Proofs.Abi.Stopping

/-!
# Logs of events

A log is written from values, the value of an indexed parameter as a topic and the others
as data, and read by types. Whether a topic holds its value or a digest is decided when it
is written by the bytes of the value and when it is read by the type: both decide alike.
So the data is read back if it is measured, and so is an indexed value that is static and
fills one word; any other is shown as the word that stands for it.
-/

namespace ChainClient.Abi

namespace Event

/-! ## What is written -/

/-- The values of those parameters that are kept, one value for each parameter. -/
def select (keep : Param → Bool) (params : List Param) (values : List Value) : List Value :=
  ((params.zip values).filter fun entry => keep entry.1).map Prod.snd

/-- The values that are written as topics. -/
def indexedValues (event : Event) (values : List Value) : List Value :=
  select Param.indexed event.inputs values

/-- The values that are written as data. -/
def dataValues (event : Event) (values : List Value) : List Value :=
  select (fun param => !param.indexed) event.inputs values

/-- The topics in front of those of the values. -/
def heading (event : Event) : List Word :=
  if event.anonymous then [] else [event.topic]

theorem mem_of_mem_select {keep : Param → Bool} {params : List Param} {values : List Value}
    {value : Value} (hvalue : value ∈ select keep params values) : value ∈ values := by
  obtain ⟨entry, hentry, rfl⟩ := List.mem_map.mp hvalue
  exact (List.of_mem_zip (List.mem_of_mem_filter hentry)).2

/-- The values that are kept have the types of the parameters that are kept. -/
theorem map_type_select {keep : Param → Bool} {params : List Param} {values : List Value}
    (htypes : values.map Value.type = params.map Param.type) :
    (select keep params values).map Value.type = (params.filter keep).map Param.type := by
  induction params generalizing values with
  | nil => simp [select]
  | cons param params ih =>
      cases values with
      | nil => simp at htypes
      | cons value values =>
          simp only [List.map_cons, List.cons.injEq] at htypes
          obtain ⟨htype, htypes⟩ := htypes
          have hothers := ih htypes
          simp only [select, List.zip_cons_cons, List.filter_cons] at hothers ⊢
          cases keep param with
          | true => simp [htype, hothers]
          | false => simpa using hothers

theorem map_type_indexedValues {event : Event} {values : List Value}
    (htypes : values.map Value.type = event.inputs.map Param.type) :
    (event.indexedValues values).map Value.type = event.indexedTypes :=
  map_type_select htypes

theorem map_type_dataValues {event : Event} {values : List Value}
    (htypes : values.map Value.type = event.inputs.map Param.type) :
    (event.dataValues values).map Value.type = event.dataTypes :=
  map_type_select htypes

/-- The topics behind the heading are those of the values, if there are as many as values. -/
theorem parameterTopics?_heading_append {event : Event} {topics : List Word}
    (hlength : topics.length = event.indexedTypes.length) :
    event.parameterTopics? (event.heading ++ topics) = some topics := by
  cases hanonymous : event.anonymous <;> simp [parameterTopics?, heading, hanonymous, hlength]

end Event

/-! ## Values as topics -/

namespace Value

/-- What the log shows of an indexed value: the value itself if its type is static and
occupies one word, otherwise the word that stands for it. -/
def shown (value : Value) (topic : Word) : Value :=
  if value.type.isDynamic = false ∧ value.type.extent = Word.size then value
  else .fixedBytes topic.toBytes

theorem block_singleton_of_isStatic {value : Value} (hstatic : value.isDynamic = false) :
    block [value] = value.contents := by
  rw [block_eq_append, place_cons_of_isStatic hstatic]
  simp [place]

/-- There is no array of any length within a static value. -/
theorem isSolid_and_isMeasured_of_isStatic {value : Value} (hvalid : value.IsValid)
    (hstatic : value.isDynamic = false) : value.isSolid = true ∧ value.isMeasured = true := by
  induction value with
  | fixedArray element values ih =>
      obtain ⟨-, helements⟩ := isValid_fixedArray.mp hvalid
      rw [isDynamic] at hstatic
      have hplain : ∀ value ∈ values, value.isSolid = true ∧ value.isMeasured = true := by
        intro value hvalue
        obtain ⟨htype, hvalid⟩ := helements value hvalue
        exact ih value hvalue hvalid (by rw [isDynamic_of_type_eq htype, hstatic])
      rw [isSolid, isMeasured, areSolid_iff, areMeasured_iff]
      exact ⟨fun value hvalue => (hplain value hvalue).1,
        fun value hvalue => (hplain value hvalue).2⟩
  | tuple members ih =>
      have hmembers := isValid_tuple.mp hvalid
      rw [isDynamic] at hstatic
      have hplain : ∀ member ∈ members, member.isSolid = true ∧ member.isMeasured = true :=
        fun member hmember =>
          ih member hmember (hmembers member hmember) (isDynamic_of_mem hstatic hmember)
      rw [isSolid, isMeasured, areSolid_iff, areMeasured_iff]
      exact ⟨fun member hmember => (hplain member hmember).1,
        fun member hmember => (hplain member hmember).2⟩
  | array element values => simp [isDynamic] at hstatic
  | _ => exact ⟨rfl, rfl⟩

/-- Topics hold the values of a type themselves exactly if it is static and occupies one
word: the size the type announces is exact, since the value is written in that size. -/
theorem fitsTopic_type {value : Value} (hvalid : value.IsValid)
    (hbound : (block [value]).length < AbiType.sizeCount) :
    value.type.fitsTopic =
      .ok (decide (value.type.isDynamic = false ∧ value.type.extent = Word.size)) := by
  rw [AbiType.fitsTopic]
  cases hdynamic : value.isDynamic with
  | true => simp [hdynamic]
  | false =>
      rw [block_singleton_of_isStatic hdynamic, length_contents_of_isStatic hvalid hdynamic]
        at hbound
      simp [hdynamic, headSize?_type hvalid hbound, headLength_eq_extent hvalid, beq_eq_decide]

end Value

open Value

theorem encode_singleton {value : Value} (hvalid : value.IsValid) :
    encode [value] = .ok (block [value]) :=
  encode_eq_ok_iff.mpr ⟨List.forall_mem_singleton.mpr hvalid, rfl⟩

theorem exists_encodeTopic_eq_ok {value : Value} (hvalid : value.IsValid) :
    ∃ topic, encodeTopic value = .ok topic := by
  have hencode := encode_singleton hvalid
  rw [IsValid] at hvalid
  simp only [encodeTopic, hvalid, bind, Except.bind]
  split
  next => exact ⟨_, rfl⟩
  next => exact ⟨_, rfl⟩
  next =>
    rw [hencode]
    dsimp only
    split
    next => exact ⟨_, rfl⟩
    next => exact ⟨_, rfl⟩

/-- The topic of a static value that fills one word is this word. -/
theorem toBytes_of_encodeTopic {value : Value} {topic : Word} (hvalid : value.IsValid)
    (hstatic : value.isDynamic = false) (hextent : value.type.extent = Word.size)
    (htopic : encodeTopic value = .ok topic) : topic.toBytes = block [value] := by
  have hencode := encode_singleton hvalid
  have hlength : (block [value]).length = Word.size := by
    rw [block_singleton_of_isStatic hstatic, length_contents_of_isStatic hvalid hstatic,
      headLength_eq_extent hvalid, hextent]
  rw [IsValid] at hvalid
  simp only [encodeTopic, hvalid, bind, Except.bind] at htopic
  split at htopic
  next => simp [isDynamic] at hstatic
  next => simp [isDynamic] at hstatic
  next =>
    simp only [hencode, hlength, hstatic, decide_true, Bool.not_false, Bool.and_self, if_true,
      Except.ok.injEq] at htopic
    rw [← htopic, Word.toBytes_ofBytes hlength]

/-- A topic shows its value. -/
theorem decodeTopic_of_encodeTopic {value : Value} {topic : Word} (hvalid : value.IsValid)
    (hbound : (block [value]).length < AbiType.sizeCount) (htopic : encodeTopic value = .ok topic) :
    decodeTopic value.type topic = .ok [value.shown topic] := by
  rw [decodeTopic, shown, fitsTopic_type hvalid hbound]
  simp only [bind, Except.bind, decide_eq_true_eq]
  split
  next hfits =>
    obtain ⟨hstatic, hextent⟩ := hfits
    rw [isDynamic_type] at hstatic
    obtain ⟨hsolid, hmeasured⟩ := isSolid_and_isMeasured_of_isStatic hvalid hstatic
    rw [toBytes_of_encodeTopic hvalid hstatic hextent htopic]
    exact decode_block (List.forall_mem_singleton.mpr hvalid)
      (List.forall_mem_singleton.mpr hsolid) (List.forall_mem_singleton.mpr hmeasured) hbound
  next => rfl

/-- Topics show the values they were written from, each read by the type of its value. -/
theorem decodeTopics_of_encodeTopic {values : List Value} {topics : List Word}
    (htopics : List.Forall₂ (fun value topic => encodeTopic value = .ok topic) values topics)
    (hvalid : ∀ value ∈ values, value.IsValid)
    (hbound : ∀ value ∈ values, (block [value]).length < AbiType.sizeCount) :
    decodeTopics (values.map Value.type) topics = .ok (List.zipWith shown values topics) := by
  induction htopics with
  | nil => rfl
  | cons htopic _ ih =>
      rw [List.forall_mem_cons] at hvalid hbound
      rw [List.map_cons, decodeTopics, decodeTopic_of_encodeTopic hvalid.1 hbound.1 htopic,
        ih hvalid.2 hbound.2]
      rfl

/-! ## Logs -/

/-- The log that is written from valid values of the types of an event's parameters is
read as these values exactly if those of the data are measured, and otherwise reading it
stops, if no array of the data has elements of a hollow type. -/
theorem Event.decodeLog_encoded {event : Event} {values : List Value}
    (htypes : values.map Value.type = event.inputs.map Param.type)
    (hvalid : ∀ value ∈ values, value.IsValid)
    (hsolid : ∀ value ∈ event.dataValues values, value.isSolid = true)
    (hindexed : ∀ value ∈ event.indexedValues values, ∀ encoded,
      encode [value] = .ok encoded → encoded.length < 2 ^ 63)
    (hdata : ∀ data, encode (event.dataValues values) = .ok data → data.length < 2 ^ 63) :
    ∃ topics data, (event.indexedValues values).mapM encodeTopic = .ok topics ∧
      encode (event.dataValues values) = .ok data ∧
      event.decodeLog (event.heading ++ topics) data =
        if ∀ value ∈ event.dataValues values, value.isMeasured = true then
          .ok (some ⟨List.zipWith shown (event.indexedValues values) topics,
            event.dataValues values⟩)
        else .error .overflow := by
  have hvalidIndexed : ∀ value ∈ event.indexedValues values, value.IsValid :=
    fun value hvalue => hvalid value (mem_of_mem_select hvalue)
  have hvalidData : ∀ value ∈ event.dataValues values, value.IsValid :=
    fun value hvalue => hvalid value (mem_of_mem_select hvalue)
  obtain ⟨topics, htopics⟩ :=
    exists_mapM_eq_ok fun value hvalue => exists_encodeTopic_eq_ok (hvalidIndexed value hvalue)
  have hencode : encode (event.dataValues values) = .ok (block (event.dataValues values)) :=
    encode_eq_ok_iff.mpr ⟨hvalidData, rfl⟩
  have hwritten := mapM_eq_ok_iff.mp htopics
  have hlength : topics.length = event.indexedTypes.length := by
    rw [← map_type_indexedValues htypes, List.length_map, hwritten.length_eq]
  have htopicsRead : decodeTopics event.indexedTypes topics =
      .ok (List.zipWith shown (event.indexedValues values) topics) := by
    rw [← map_type_indexedValues htypes]
    refine decodeTopics_of_encodeTopic hwritten hvalidIndexed fun value hvalue => ?_
    have hshort := hindexed value hvalue _ (encode_singleton (hvalidIndexed value hvalue))
    exact hshort.trans (by decide)
  have hdataRead : decode (block (event.dataValues values)) event.dataTypes =
      if ∀ value ∈ event.dataValues values, value.isMeasured = true then
        .ok (event.dataValues values)
      else .error .overflow := by
    rw [← map_type_dataValues htypes]
    exact decode_block_eq hvalidData hsolid ((hdata _ hencode).trans (by decide))
  refine ⟨topics, block (event.dataValues values), htopics, hencode, ?_⟩
  rw [decodeLog, parameterTopics?_heading_append hlength]
  simp only [htopicsRead, hdataRead]
  split <;> rfl

/-- Between a text and an array as data, a number and a tuple of one word are shown by
their topics; a text, two words, and an empty tuple are not. -/
theorem Event.decodeLog_encoded_mixed :
    let pair : AbiType := .fixedArray (.uint 8) 2
    let cell : AbiType := .tuple [.fixedArray (.uint 8) 1]
    let event : Event :=
      ⟨"Moved", [⟨"count", .uint 8, true, none, []⟩, ⟨"note", .string, false, none, []⟩,
        ⟨"box", cell, true, none, []⟩, ⟨"key", .string, true, none, []⟩,
        ⟨"span", pair, true, none, []⟩, ⟨"parts", .array .bytes, false, none, []⟩,
        ⟨"unit", .tuple [], true, none, []⟩], false⟩
    let values : List Value :=
      [.uint 7 8, .string "wé", .tuple [.fixedArray (.uint 8) [.uint 9 8]], .string "key",
        .fixedArray (.uint 8) [.uint 1 8, .uint 2 8], .array .bytes [.bytes [], .bytes [1, 2]],
        .tuple []]
    values.map Value.type = event.inputs.map Param.type ∧ (∀ value ∈ values, value.IsValid) ∧
      event.dataValues values = [.string "wé", .array .bytes [.bytes [], .bytes [1, 2]]] ∧
      ∃ count box key span unit data,
        (event.indexedValues values).mapM encodeTopic = .ok [count, box, key, span, unit] ∧
        encode (event.dataValues values) = .ok data ∧
        event.decodeLog [event.topic, count, box, key, span, unit] data =
          .ok (some ⟨[.uint 7 8, .tuple [.fixedArray (.uint 8) [.uint 9 8]],
            .fixedBytes key.toBytes, .fixedBytes span.toBytes, .fixedBytes unit.toBytes],
            event.dataValues values⟩) := by
  intro pair cell event values
  have htypes : values.map Value.type = event.inputs.map Param.type := by decide +kernel
  have hvalid : ∀ value ∈ values, value.check = .ok () := by decide +kernel
  have hindexed : event.indexedValues values =
      [.uint 7 8, .tuple [.fixedArray (.uint 8) [.uint 9 8]], .string "key",
        .fixedArray (.uint 8) [.uint 1 8, .uint 2 8], .tuple []] := by decide +kernel
  have hdata : event.dataValues values =
      [.string "wé", .array .bytes [.bytes [], .bytes [1, 2]]] := by decide +kernel
  have hindexedShort : ∀ value ∈ event.indexedValues values, (block [value]).length < 2 ^ 63 := by
    decide +kernel
  have hdataShort : (block (event.dataValues values)).length < 2 ^ 63 := by decide +kernel
  obtain ⟨topics, data, htopics, hencode, hlog⟩ := Event.decodeLog_encoded htypes hvalid
    (by decide +kernel)
    (fun value hvalue encoded hencode => by
      rw [← (encode_eq_ok_iff.mp hencode).2]
      exact hindexedShort value hvalue)
    (fun data hencode => by
      rw [← (encode_eq_ok_iff.mp hencode).2]
      exact hdataShort)
  rw [if_pos (by decide +kernel)] at hlog
  rw [hindexed] at htopics hlog
  have hwritten := mapM_eq_ok_iff.mp htopics
  match topics, hwritten.length_eq with
  | [count, box, key, span, unit], _ =>
      rw [hindexed]
      exact ⟨htypes, hvalid, hdata, count, box, key, span, unit, data, htopics, hencode, hlog⟩

/-- An event whose data is the empty array of pairs of the longest array and a flag is
logged, and the log is not read. -/
theorem Event.decodeLog_ne_encoded :
    let pairs : AbiType :=
      .array (.tuple [.fixedArray (.uint 256) 18446744073709551615, .bool])
    let event : Event := ⟨"E", [⟨"p", pairs, false, none, []⟩], true⟩
    let data := Value.lengthWord 32 ++ Value.lengthWord 0
    encode [.array (.tuple [.fixedArray (.uint 256) 18446744073709551615, .bool]) []] = .ok data ∧
      event.decodeLog [] data = .error .overflow := by
  decide +kernel

end ChainClient.Abi
