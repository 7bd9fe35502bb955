import ChainClient.Proofs.Abi.HeadSize
import ChainClient.Proofs.Abi.Log

/-!
# Opaque topics

A contract logs an indexed value of a dynamic or composite type by its digest. Reading a log
goes by the size of the type instead: a topic comes back as the word it is if its type is
dynamic or does not occupy one word. A composite type that does occupy one word holds a
single plain type, in arrays of one element and beside empty tuples. Its topic is taken for
the data of the type, a digest or not. A static type without a size stops the reading.
-/

namespace ChainClient.Abi

/-! ## Types of one word -/

namespace AbiType

/-- Whether a type is a tuple or an array whose length is part of the type. -/
def isComposite : AbiType → Bool
  | .fixedArray _ _ | .tuple _ => true
  | _ => false

/-- The type is a plain one of one word, which may stand in arrays of one element and in
tuples beside members that hold nothing. -/
inductive IsOneWord : AbiType → Prop where
  | plain {type : AbiType} (hstatic : type.isDynamic = false) (hplain : type.isComposite = false) :
      IsOneWord type
  | fixedArray {element : AbiType} (helement : IsOneWord element) :
      IsOneWord (.fixedArray element 1)
  | tuple {front back : List AbiType} {member : AbiType} (hmember : IsOneWord member)
      (hfront : areHollow front = true) (hback : areHollow back = true) :
      IsOneWord (.tuple (front ++ member :: back))

attribute [local simp] isDynamic anyDynamic extent extents isHollow areHollow isWellFormed
  areWellFormed

theorem extents_append (first second : List AbiType) :
    extents (first ++ second) = extents first + extents second := by
  simp only [extents_eq_sum, List.map_append, List.sum_append]

theorem isDynamic_of_mem {types : List AbiType} (hstatic : anyDynamic types = false)
    {type : AbiType} (htype : type ∈ types) : type.isDynamic = false := by
  rw [anyDynamic_eq_any, List.any_eq_false] at hstatic
  exact Bool.eq_false_iff.mpr (hstatic type htype)

/-- A type is hollow if it is static and occupies nothing. -/
theorem isHollow_iff {type : AbiType} (hwell : type.isWellFormed = true) :
    type.isHollow = true ↔ type.isDynamic = false ∧ type.extent = 0 := by
  induction type with
  | fixedArray element length ih =>
      simp only [isWellFormed, Bool.and_eq_true, decide_eq_true_eq] at hwell
      obtain ⟨⟨hnonzero, -⟩, hwell⟩ := hwell
      rw [isHollow, ih hwell, isDynamic, and_congr_right_iff]
      intro hstatic
      rw [extent, if_neg (by simp [hstatic]), Nat.mul_eq_zero, or_iff_left hnonzero]
  | tuple members ih =>
      rw [isWellFormed, areWellFormed_iff] at hwell
      rw [isHollow, areHollow_iff, isDynamic]
      constructor
      · intro hhollow
        have hmembers := fun member hmember =>
          (ih member hmember (hwell member hmember)).mp (hhollow member hmember)
        have hstatic : anyDynamic members = false := by
          rw [anyDynamic_eq_any, List.any_eq_false]
          exact fun member hmember => Bool.eq_false_iff.mp (hmembers member hmember).1
        refine ⟨hstatic, ?_⟩
        rw [extent, if_neg (by simp [hstatic]), extents_eq_sum, List.sum_eq_zero_iff]
        exact List.forall_mem_map.mpr fun member hmember => (hmembers member hmember).2
      · rintro ⟨hstatic, hextent⟩
        rw [extent, if_neg (by simp [hstatic]), extents_eq_sum, List.sum_eq_zero_iff,
          List.forall_mem_map] at hextent
        exact fun member hmember => (ih member hmember (hwell member hmember)).mpr
          ⟨isDynamic_of_mem hstatic hmember, hextent member hmember⟩
  | _ => simp [Word.size]

theorem areHollow_iff_extents {types : List AbiType}
    (hwell : ∀ type ∈ types, type.isWellFormed = true) :
    areHollow types = true ↔ anyDynamic types = false ∧ extents types = 0 := by
  have hwellTuple : (tuple types).isWellFormed = true := areWellFormed_iff.mpr hwell
  have htuple := isHollow_iff hwellTuple
  rw [isHollow, isDynamic] at htuple
  rw [htuple, and_congr_right_iff]
  intro hstatic
  rw [extent, if_neg (by simp [hstatic])]

/-- Heads consist of whole words. -/
theorem dvd_extent (type : AbiType) : Word.size ∣ type.extent := by
  induction type with
  | fixedArray element length ih =>
      rw [extent]
      split
      next => exact Nat.dvd_refl _
      next => exact Nat.dvd_mul_right_of_dvd ih length
  | tuple members ih =>
      rw [extent]
      split
      next => exact Nat.dvd_refl _
      next =>
        rw [extents_eq_sum]
        exact List.dvd_sum (List.forall_mem_map.mpr ih)
  | _ => exact Nat.dvd_refl _

/-- Members that occupy one word together are one that does between hollow ones. -/
theorem exists_member_of_extents {types : List AbiType}
    (hwell : ∀ type ∈ types, type.isWellFormed = true) (hstatic : anyDynamic types = false)
    (hextents : extents types = Word.size) :
    ∃ front member back, types = front ++ member :: back ∧ member.extent = Word.size ∧
      areHollow front = true ∧ areHollow back = true := by
  induction types with
  | nil => simp [Word.size] at hextents
  | cons type types ih =>
      obtain ⟨htype, hothers⟩ := List.forall_mem_cons.mp hwell
      rw [anyDynamic, Bool.or_eq_false_iff] at hstatic
      rw [extents] at hextents
      obtain ⟨words, hwords⟩ := dvd_extent type
      simp only [Word.size] at hwords hextents
      by_cases hnone : type.extent = 0
      · obtain ⟨front, member, back, rfl, hmember, hfront, hback⟩ :=
          ih hothers hstatic.2 (by simp only [Word.size]; omega)
        have hhollow : type.isHollow = true := (isHollow_iff htype).mpr ⟨hstatic.1, hnone⟩
        refine ⟨type :: front, member, back, rfl, hmember, ?_, hback⟩
        rw [areHollow, hhollow, hfront, Bool.and_self]
      · exact ⟨[], type, types, rfl, by simp only [Word.size]; omega, rfl,
          (areHollow_iff_extents hothers).mpr ⟨hstatic.2, by omega⟩⟩

/-- The types of one word are the static ones that occupy one word. -/
theorem isOneWord_iff {type : AbiType} (hwell : type.isWellFormed = true) :
    type.IsOneWord ↔ type.isDynamic = false ∧ type.extent = Word.size := by
  constructor
  · intro hword
    induction hword with
    | @plain type hstatic hplain =>
        cases type <;> simp_all [isComposite]
    | fixedArray _ ih =>
        simp only [isWellFormed, Bool.and_eq_true] at hwell
        obtain ⟨hstatic, hextent⟩ := ih hwell.2
        exact ⟨hstatic, by rw [extent, if_neg (by simp [hstatic]), hextent, Nat.mul_one]⟩
    | @tuple front back member _ hfront hback ih =>
        rw [isWellFormed, areWellFormed_iff, List.forall_mem_append, List.forall_mem_cons] at hwell
        obtain ⟨hwellFront, hwellMember, hwellBack⟩ := hwell
        obtain ⟨hstatic, hextent⟩ := ih hwellMember
        obtain ⟨hstaticFront, hextentFront⟩ := (areHollow_iff_extents hwellFront).mp hfront
        obtain ⟨hstaticBack, hextentBack⟩ := (areHollow_iff_extents hwellBack).mp hback
        have hmembers : anyDynamic (front ++ member :: back) = false := by
          rw [anyDynamic_eq_any] at hstaticFront hstaticBack ⊢
          rw [List.any_append, List.any_cons, hstaticFront, hstatic, hstaticBack]
          rfl
        refine ⟨hmembers, ?_⟩
        rw [extent, if_neg (by simp [hmembers]), extents_append, extents, hextentFront, hextent,
          hextentBack, Nat.add_zero, Nat.zero_add]
  · rintro ⟨hstatic, hextent⟩
    induction type with
    | fixedArray element length ih =>
        simp only [isWellFormed, Bool.and_eq_true, decide_eq_true_eq] at hwell
        rw [isDynamic] at hstatic
        rw [extent, if_neg (by simp [hstatic])] at hextent
        -- a word is not divided among several elements
        obtain ⟨words, hwords⟩ := dvd_extent element
        rw [hwords, Nat.mul_assoc] at hextent
        have hsingle : words * length = 1 :=
          Nat.eq_of_mul_eq_mul_left (by decide) (hextent.trans (Nat.mul_one _).symm)
        obtain rfl := Nat.eq_one_of_mul_eq_one_right hsingle
        obtain rfl := Nat.eq_one_of_mul_eq_one_left hsingle
        exact .fixedArray (ih hwell.2 hstatic (hwords.trans (Nat.mul_one _)))
    | tuple members ih =>
        rw [isWellFormed, areWellFormed_iff] at hwell
        rw [isDynamic] at hstatic
        rw [extent, if_neg (by simp [hstatic])] at hextent
        obtain ⟨front, member, back, rfl, hmember, hfront, hback⟩ :=
          exists_member_of_extents hwell hstatic hextent
        have hmem : member ∈ front ++ member :: back := by simp
        exact .tuple (ih member hmem (hwell member hmem) (isDynamic_of_mem hstatic hmem) hmember)
          hfront hback
    | _ => exact .plain hstatic rfl

/-- Heads of one word are those of the types of one word: a size that was cut down is larger. -/
theorem headSize?_eq_word_iff {type : AbiType} (hwell : type.isWellFormed = true) :
    type.isDynamic = false ∧ type.headSize? = some Word.size ↔ type.IsOneWord := by
  rw [isOneWord_iff hwell, and_congr_right_iff]
  intro hstatic
  constructor
  · intro hsize
    rw [headSize?_eq, Option.ite_none_right_eq_some, Option.some.injEq, cappedExtent,
      largestSize] at hsize
    have hword : Word.size < sizeCount - 1 := by decide
    omega
  · intro hextent
    rw [headSize?_of_extent_lt hwell (by rw [hextent]; decide), hextent]

/-! ## What a topic holds -/

/-- The size of the type is not a word. -/
theorem fitsTopic_eq_ok_false_iff {type : AbiType} :
    type.fitsTopic = .ok false ↔
      type.isDynamic = true ∨ ∃ size, type.headSize? = some size ∧ size ≠ Word.size := by
  rw [fitsTopic]
  cases type.isDynamic with
  | true => simp
  | false => cases type.headSize? <;> simp

theorem fitsTopic_eq_ok_true_iff {type : AbiType} :
    type.fitsTopic = .ok true ↔
      type.isDynamic = false ∧ type.headSize? = some Word.size := by
  rw [fitsTopic]
  cases type.isDynamic with
  | true => simp
  | false => cases type.headSize? <;> simp

theorem fitsTopic_eq_error_of_headSize? {type : AbiType} (hstatic : type.isDynamic = false)
    (hsize : type.headSize? = none) : type.fitsTopic = .error .overflow := by
  rw [fitsTopic, hstatic, hsize]
  rfl

/-- A well-formed type whose topics come back as they are is not a type of one word and has a
size, and these are all. -/
theorem fitsTopic_eq_ok_false_iff_not_isOneWord {type : AbiType}
    (hwell : type.isWellFormed = true) :
    type.fitsTopic = .ok false ↔ ¬ type.IsOneWord ∧ type.headSize? ≠ none := by
  rw [← headSize?_eq_word_iff hwell, ← fitsTopic_eq_ok_true_iff, fitsTopic]
  cases hdynamic : type.isDynamic with
  | true => simp [headSize?_of_isDynamic hdynamic]
  | false => cases type.headSize? <;> simp

end AbiType

/-! ## Topics one by one -/

theorem decodeTopic_of_fitsTopic {type : AbiType} {fits : Bool} (hfits : type.fitsTopic = .ok fits)
    (topic : Word) :
    decodeTopic type topic =
      if fits then decode topic.toBytes [type] else .ok [.fixedBytes topic.toBytes] := by
  rw [decodeTopic, hfits]
  rfl

/-- What is read as a value of a composite type is no byte string. -/
theorem ne_fixedBytes_of_decode {data bytes : Bytes} {type : AbiType}
    (hcomposite : type.isComposite = true) : decode data [type] ≠ .ok [.fixedBytes bytes] := by
  intro hdecode
  obtain ⟨rest, hvalues⟩ := decode_eq_ok_iff.mp hdecode
  obtain ⟨_, value, _, _, _, -, hvalue, -, -, hcons⟩ := yields_decodeMembers_cons.mp hvalues
  obtain ⟨rfl, -⟩ := List.cons.inj hcons
  cases type with
  | fixedArray element length =>
      obtain ⟨values, -, hvalue⟩ := yields_decodeFixedArray.mp hvalue
      cases hvalue
  | tuple members =>
      obtain ⟨values, -, hvalue⟩ := yields_decodeTuple.mp hvalue
      cases hvalue
  | _ => cases hcomposite

/-- One topic among others whose values are known is read by itself. -/
theorem decodeTopics_append_cons {before after : List AbiType} {type : AbiType}
    {front back : List Word} {topic : Word} {earlier later : List Value}
    (hlength : front.length = before.length) (hfront : decodeTopics before front = .ok earlier)
    (hback : decodeTopics after back = .ok later) :
    decodeTopics (before ++ type :: after) (front ++ topic :: back) =
      (decodeTopic type topic).map fun values => earlier ++ (values ++ later) := by
  induction before generalizing front earlier with
  | nil =>
      obtain rfl := List.length_eq_zero_iff.mp hlength
      obtain rfl := Except.ok.inj hfront
      simp only [List.nil_append, decodeTopics, hback, bind, Except.bind]
      cases decodeTopic type topic <;> rfl
  | cons first others ih =>
      cases front with
      | nil => cases hlength
      | cons word words =>
          rw [decodeTopics] at hfront
          obtain ⟨value, hvalue, hothers⟩ := bind_eq_ok_iff.mp hfront
          obtain ⟨values, hvalues, hearlier⟩ := bind_eq_ok_iff.mp hothers
          obtain rfl := Except.ok.inj hearlier
          simp only [List.cons_append, decodeTopics, hvalue, ih (Nat.succ.inj hlength) hvalues,
            bind, Except.bind]
          cases decodeTopic type topic <;> simp [Except.map]

/-! ## Logs -/

/-- Where the other topics and the data of a log are read, the log is read as its one topic
is. -/
theorem Event.decodeLog_eq_map {event : Event} {before after : List AbiType} {type : AbiType}
    {front back : List Word} {topic : Word} {data : Bytes} {earlier later nonIndexed : List Value}
    (htypes : event.indexedTypes = before ++ type :: after)
    (hlength : front.length = before.length ∧ back.length = after.length)
    (hfront : decodeTopics before front = .ok earlier)
    (hback : decodeTopics after back = .ok later)
    (hdata : decode data event.dataTypes = .ok nonIndexed) :
    event.decodeLog (event.heading ++ (front ++ topic :: back)) data =
      (decodeTopic type topic).map fun values =>
        some ⟨earlier ++ (values ++ later), nonIndexed⟩ := by
  have hcount : (front ++ topic :: back).length = event.indexedTypes.length := by
    simp [htypes, hlength]
  rw [decodeLog, parameterTopics?_heading_append hcount]
  simp only [htypes, decodeTopics_append_cons hlength.1 hfront hback, hdata, bind, Except.bind]
  cases decodeTopic type topic <;> rfl

/-- The topic of a parameter whose type is dynamic or composite comes back as the word it is
exactly if the type is dynamic or its head has another size than a word. With a head of one
word the log is read as the topic is when it is taken for the data of the type, and without
a size of the head reading the log stops. If the type is well-formed, the topic comes back
exactly if the type is not one of one word and has a size. -/
theorem Event.decodeLog_digest_iff {event : Event} {before after : List AbiType} {type : AbiType}
    {front back : List Word} {topic : Word} {data : Bytes} {earlier later nonIndexed : List Value}
    (htypes : event.indexedTypes = before ++ type :: after)
    (hkind : type.isDynamic = true ∨ type.isComposite = true)
    (hlength : front.length = before.length ∧ back.length = after.length)
    (hfront : decodeTopics before front = .ok earlier)
    (hback : decodeTopics after back = .ok later)
    (hdata : decode data event.dataTypes = .ok nonIndexed) :
    (event.decodeLog (event.heading ++ (front ++ topic :: back)) data =
        .ok (some ⟨earlier ++ .fixedBytes topic.toBytes :: later, nonIndexed⟩) ↔
      type.isDynamic = true ∨ ∃ size, type.headSize? = some size ∧ size ≠ Word.size) ∧
    (type.isDynamic = false → type.headSize? = some Word.size →
      event.decodeLog (event.heading ++ (front ++ topic :: back)) data =
        (decode topic.toBytes [type]).map fun values =>
          some ⟨earlier ++ (values ++ later), nonIndexed⟩) ∧
    (type.isDynamic = false → type.headSize? = none →
      event.decodeLog (event.heading ++ (front ++ topic :: back)) data = .error .overflow) ∧
    (type.isWellFormed = true →
      (type.isDynamic = true ∨ (∃ size, type.headSize? = some size ∧ size ≠ Word.size) ↔
        ¬ type.IsOneWord ∧ type.headSize? ≠ none)) := by
  have hread : event.decodeLog (event.heading ++ (front ++ topic :: back)) data =
      (decodeTopic type topic).map fun values => some ⟨earlier ++ (values ++ later), nonIndexed⟩ :=
    Event.decodeLog_eq_map htypes hlength hfront hback hdata
  refine ⟨⟨fun hlog => ?_, fun hkept => ?_⟩, fun hstatic hsize => ?_, fun hstatic hsize => ?_,
    fun hwell => ?_⟩
  · rw [← AbiType.fitsTopic_eq_ok_false_iff]
    cases hfits : type.fitsTopic with
    | error error =>
        rw [hread, decodeTopic, hfits] at hlog
        cases hlog
    | ok fits =>
        cases fits with
        | false => rfl
        | true =>
            -- what is decoded is composite, and a digest is not
            obtain ⟨hstatic, -⟩ := AbiType.fitsTopic_eq_ok_true_iff.mp hfits
            have hcomposite : type.isComposite = true := by simpa [hstatic] using hkind
            rw [hread, decodeTopic_of_fitsTopic hfits, if_pos rfl] at hlog
            cases hdecode : decode topic.toBytes [type] with
            | error error =>
                rw [hdecode] at hlog
                cases hlog
            | ok values =>
                rw [hdecode] at hlog
                simp only [Except.map, Except.ok.injEq, Option.some.injEq, EventValues.mk.injEq,
                  and_true, List.append_cancel_left_eq] at hlog
                obtain rfl := List.append_cancel_right (hlog.trans (List.singleton_append).symm)
                exact absurd hdecode (ne_fixedBytes_of_decode hcomposite)
  · rw [hread, decodeTopic_of_fitsTopic (AbiType.fitsTopic_eq_ok_false_iff.mpr hkept)]
    rfl
  · rw [hread, decodeTopic_of_fitsTopic (AbiType.fitsTopic_eq_ok_true_iff.mpr ⟨hstatic, hsize⟩)]
    rfl
  · rw [hread, decodeTopic, AbiType.fitsTopic_eq_error_of_headSize? hstatic hsize]
    rfl
  · rw [← AbiType.fitsTopic_eq_ok_false_iff]
    exact AbiType.fitsTopic_eq_ok_false_iff_not_isOneWord hwell

/-- Between a number and a text, a pair of numbers is logged by any word, and the word comes
back. -/
theorem Event.decodeLog_digest_iff_pair :
    let pair : AbiType := .tuple [.uint 8, .uint 8]
    let event : Event :=
      ⟨"Moved", [⟨"count", .uint 8, true, none, []⟩, ⟨"span", pair, true, none, []⟩,
        ⟨"done", .bool, false, none, []⟩, ⟨"note", .string, true, none, []⟩], false⟩
    let digest : Word := BitVec.allOnes 256
    event.indexedTypes = [.uint 8, pair, .string] ∧
      event.decodeLog [event.topic, 7, digest, 0] (Word.toBytes 1) =
        .ok (some ⟨[.uint 7 8, .fixedBytes digest.toBytes, .fixedBytes (Word.toBytes 0)],
          [.bool true]⟩) := by
  intro pair event digest
  have htypes : event.indexedTypes = [.uint 8, pair, .string] := by decide +kernel
  have hfront : decodeTopics [.uint 8] [7] = .ok [.uint 7 8] := by decide +kernel
  have hback : decodeTopics [.string] [0] = .ok [.fixedBytes (Word.toBytes 0)] := by
    decide +kernel
  have hdata : decode (Word.toBytes 1) event.dataTypes = .ok [.bool true] := by decide +kernel
  have hsealed :
      event.decodeLog (event.heading ++ ([7] ++ digest :: [0])) (Word.toBytes 1) =
          .ok (some ⟨[.uint 7 8] ++ .fixedBytes digest.toBytes :: [.fixedBytes (Word.toBytes 0)],
            [.bool true]⟩) ↔
        pair.isDynamic = true ∨ ∃ size, pair.headSize? = some size ∧ size ≠ Word.size :=
    (Event.decodeLog_digest_iff
      (show event.indexedTypes = [.uint 8] ++ pair :: [.string] from htypes) (.inr rfl)
      ⟨rfl, rfl⟩ hfront hback hdata).1
  exact ⟨htypes, hsealed.mpr (.inr ⟨64, by decide +kernel, by decide⟩)⟩

/-- The digest of an array of one number is taken for the number, and that of a tuple of one
flag makes the log unreadable. -/
theorem Event.decodeLog_ne_digest :
    let digest : Word := BitVec.allOnes 256
    let cell : AbiType := .fixedArray (.uint 256) 1
    (Event.mk "Stored" [⟨"cell", cell, true, none, []⟩] true).decodeLog [digest] [] =
        .ok (some ⟨[.fixedArray (.uint 256) [.uint digest 256]], []⟩) ∧
      (Event.mk "Flagged" [⟨"flag", .tuple [.bool], true, none, []⟩] true).decodeLog [digest] [] =
        .error (.malformed (.invalidBool (2 ^ 256 - 1))) := by
  decide +kernel

end ChainClient.Abi
