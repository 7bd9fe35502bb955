import Mathlib.Data.List.Forall2
import ChainClient.Proofs.Json.Record

/-!
# Parts of a record

What a record says is stated here apart from its reader: which parts it has, written by name
or by position, and what a part denotes that may be missing, null, or a list. The reader of
records, which settles their numbers first, finds the same.
-/

namespace ChainClient.Json

/-- The value is a record of the named parts. They are the members of an object, or the items
of an array in the order of the names. A part that is written twice makes no record, and
neither does an item too many. -/
inductive HasParts (names : List String) : Json → (String → Option Json) → Prop where
  | named {members : List (String × Json)} {parts : String → Option Json}
      (honce : ∀ name ∈ names, (members.filter fun member => member.1 == name).length ≤ 1)
      (hparts : ∀ name ∈ names, ∀ part, parts name = some part ↔ (name, part) ∈ members) :
      HasParts names (.object members) parts
  | listed {items : List Json} {parts : String → Option Json}
      (hfew : items.length ≤ names.length)
      (hparts : ∀ index : Nat, names[index]?.bind parts = items[index]?) :
      HasParts names (.array items) parts

variable {α : Type}

/-- The value is read as the result once its numbers are settled. -/
def Reads (read : Json → Option α) (json : Json) (result : α) : Prop :=
  read json.settled = some result

/-- A part tells what it denotes, and a missing one tells the default. -/
def Tells (denotes : Json → α → Prop) (default : α) (part : Option Json) (result : α) : Prop :=
  part.elim (result = default) fun json => denotes json result

/-- A part that may be missing or null offers what it denotes otherwise. -/
inductive Offers (denotes : Json → α → Prop) : Option Json → Option α → Prop where
  | missing : Offers denotes none none
  | null : Offers denotes (some .null) none
  | value {json : Json} {result : α} (hvalue : json ≠ .null) (hdenotes : denotes json result) :
      Offers denotes (some json) (some result)

/-- An array lists what its items denote, and null lists nothing. -/
inductive Lists (denotes : Json → α → Prop) : Json → List α → Prop where
  | null : Lists denotes .null []
  | array {items : List Json} {results : List α}
      (hitems : List.Forall₂ denotes items results) : Lists denotes (.array items) results

variable {names : List String} {json : Json} {parts : String → Option Json}
  {denotes : Json → α → Prop} {read : Json → Option α}

/-! ## Settled values -/

theorem settledItems_eq_map (items : List Json) : settledItems items = items.map settled := by
  induction items with
  | nil => rfl
  | cons item items ih => rw [settledItems, ih, List.map_cons]

/-- Settling makes nothing null. -/
theorem settled_eq_null_iff : json.settled = .null ↔ json = .null := by
  cases json with
  | number literal =>
      rw [settled]
      split <;> simp
  | _ => simp [settled]

/-! ## Reading parts -/

theorem mem_iff_member?_eq_some {members : List (String × Json)} {name : String} {part : Json}
    (honce : (members.filter fun member => member.1 == name).length ≤ 1) :
    (name, part) ∈ members ↔ (object members).member? name = some part := by
  have hmem : (name, part) ∈ members ↔
      (name, part) ∈ members.filter fun member => member.1 == name := by
    simp [List.mem_filter]
  rw [hmem, member?, ← List.head?_filter]
  cases hfound : members.filter fun member => member.1 == name with
  | nil => simp
  | cons member others =>
      rw [hfound, List.length_cons] at honce
      obtain rfl := List.length_eq_zero_iff.mp (Nat.le_zero.mp (Nat.le_of_succ_le_succ honce))
      have hmember : member ∈ members.filter fun member => member.1 == name := by
        rw [hfound]
        exact List.mem_cons_self
      obtain ⟨other, found⟩ := member
      obtain rfl : other = name := beq_iff_eq.mp (List.mem_filter.mp hmember).2
      simp [eq_comm]

theorem occursTwice_settledMembers (members : List (String × Json)) (name : String) :
    occursTwice (settledMembers members) name = occursTwice members name := by
  rw [occursTwice, occursTwice, settledMembers_eq_map, List.filter_map, List.length_map]
  rfl

/-- An item is found under the name at its position. -/
theorem find?_zip {items : List Json} {name : String} {index : Nat} (hnames : names.Nodup)
    (hname : names[index]? = some name) :
    ((names.zip items).find? fun field => field.1 == name).map Prod.snd = items[index]? := by
  induction names generalizing items index with
  | nil => cases hname
  | cons first names ih =>
      obtain ⟨hfirst, hnames⟩ := List.nodup_cons.mp hnames
      cases items with
      | nil => rfl
      | cons item items =>
          cases index with
          | zero =>
              obtain rfl := Option.some.inj hname
              simp
          | succ index =>
              have hother : (first == name) = false :=
                beq_false_of_ne fun heq => hfirst (heq ▸ List.mem_of_getElem? hname)
              rw [List.zip_cons_cons, List.find?_cons, hother]
              exact ih hnames hname

/-- The reader finds the parts of a record. -/
theorem HasParts.record? (hnames : names.Nodup) (hparts : HasParts names json parts) :
    ∃ record, json.settled.record? names = some record ∧
      ∀ name ∈ names, record.field? name = (parts name).map settled := by
  cases hparts with
  | @named members _ honce hparts =>
      -- the first member of a name is the only one
      have htwice : names.any (occursTwice (settledMembers members)) = false := by
        rw [List.any_eq_false]
        intro name hname
        rw [occursTwice_settledMembers, occursTwice, decide_eq_true_iff, Nat.not_lt]
        exact honce name hname
      refine ⟨_, if_neg (Bool.eq_false_iff.mp htwice), fun name hname => ?_⟩
      have hpart : parts name = (object members).member? name := by
        refine Option.ext fun part => ?_
        rw [hparts name hname, mem_iff_member?_eq_some (honce name hname)]
      rw [field?_settled hname, hpart]
  | @listed items _ hfew hparts =>
      rw [settled, Json.record?, if_neg (by rw [settledItems_eq_map, List.length_map]; omega)]
      refine ⟨_, rfl, fun name hname => ?_⟩
      obtain ⟨index, hindex⟩ := List.getElem?_of_mem hname
      have hpart := hparts index
      rw [hindex, Option.bind_some] at hpart
      rw [Record.field?, find?_zip hnames hindex, settledItems_eq_map, List.getElem?_map, hpart]

/-- What the reader takes for a record has parts. -/
theorem exists_hasParts {record : Record} (hnames : names.Nodup)
    (hrecord : json.settled.record? names = some record) :
    ∃ parts, HasParts names json parts ∧
      ∀ name ∈ names, record.field? name = (parts name).map settled := by
  -- it is enough to find parts: the record that they give is the one that was found
  have hfound : ∀ parts, HasParts names json parts → ∃ parts, HasParts names json parts ∧
      ∀ name ∈ names, record.field? name = (parts name).map settled := by
    intro parts hparts
    obtain ⟨other, hother, hfields⟩ := hparts.record? hnames
    obtain rfl := Option.some.inj (hrecord.symm.trans hother)
    exact ⟨parts, hparts, hfields⟩
  cases json with
  | object members =>
      rw [settled, Json.record?] at hrecord
      split at hrecord
      next => cases hrecord
      next htwice =>
        have honce : ∀ name ∈ names,
            (members.filter fun member => member.1 == name).length ≤ 1 := by
          rw [Bool.not_eq_true, List.any_eq_false] at htwice
          intro name hname
          have hname := htwice name hname
          rwa [occursTwice_settledMembers, occursTwice, decide_eq_true_iff, Nat.not_lt] at hname
        exact hfound _ (.named honce fun name hname part =>
          (mem_iff_member?_eq_some (honce name hname)).symm)
  | array items =>
      rw [settled, Json.record?, settledItems_eq_map, List.length_map] at hrecord
      split at hrecord
      next => cases hrecord
      next hfew =>
        refine hfound (fun name => items[names.idxOf name]?) (.listed (by omega) fun index => ?_)
        by_cases hindex : index < names.length
        · rw [List.getElem?_eq_getElem hindex, Option.bind_some, hnames.idxOf_getElem]
        · rw [List.getElem?_eq_none (by omega), List.getElem?_eq_none (by omega), Option.bind_none]
  | number literal =>
      rw [settled] at hrecord
      split at hrecord <;> cases hrecord
  | _ => cases hrecord

/-- What is read from a record says something of its parts. -/
theorem bind_record?_eq_some_iff {next : Record → Option α} {result : α}
    {means : (String → Option Json) → Prop} (hnames : names.Nodup)
    (hnext : ∀ record parts, (∀ name ∈ names, record.field? name = (parts name).map settled) →
      (next record = some result ↔ means parts)) :
    (json.settled.record? names).bind next = some result ↔
      ∃ parts, HasParts names json parts ∧ means parts := by
  rw [Option.bind_eq_some_iff]
  constructor
  · rintro ⟨record, hrecord, hresult⟩
    obtain ⟨parts, hparts, hfields⟩ := exists_hasParts hnames hrecord
    exact ⟨parts, hparts, (hnext record parts hfields).mp hresult⟩
  · rintro ⟨parts, hparts, hmeans⟩
    obtain ⟨record, hrecord, hfields⟩ := hparts.record? hnames
    exact ⟨record, hrecord, (hnext record parts hfields).mpr hmeans⟩

theorem withDefault_eq_some_iff {record : Record} {name : String} {part : Option Json}
    {default result : α} (hdenotes : ∀ {json result}, Reads read json result ↔ denotes json result)
    (hfield : record.field? name = part.map settled) :
    record.withDefault name default read = some result ↔ Tells denotes default part result := by
  rw [Record.withDefault, hfield]
  cases part with
  | none => simp [Tells, eq_comm]
  | some json => exact hdenotes

theorem offers_iff {result : Option α}
    (hdenotes : ∀ {json result}, Reads read json result ↔ denotes json result) :
    Reads (nullable read) json result ↔ Offers denotes (some json) result := by
  rw [Reads]
  by_cases hnull : json = .null
  · subst hnull
    change some none = some result ↔ _
    constructor
    · rintro ⟨⟩
      exact .null
    · intro hoffers
      cases hoffers with
      | null => rfl
      | value hvalue => exact absurd rfl hvalue
  · have hread : nullable read json.settled = (read json.settled).map some := by
      unfold nullable
      split
      next hsettled => exact absurd (settled_eq_null_iff.mp hsettled) hnull
      next => rfl
    rw [hread, Option.map_eq_some_iff]
    constructor
    · rintro ⟨value, hvalue, rfl⟩
      exact .value hnull (hdenotes.mp hvalue)
    · intro hoffers
      cases hoffers with
      | null => exact absurd rfl hnull
      | value _ hvalue => exact ⟨_, hdenotes.mpr hvalue, rfl⟩

theorem withDefault_nullable_eq_some_iff {record : Record} {name : String} {part : Option Json}
    {result : Option α} (hdenotes : ∀ {json result}, Reads read json result ↔ denotes json result)
    (hfield : record.field? name = part.map settled) :
    record.withDefault name none (nullable read) = some result ↔ Offers denotes part result := by
  rw [Record.withDefault, hfield]
  cases part with
  | none =>
      change some none = some result ↔ _
      constructor
      · rintro ⟨⟩
        exact .missing
      · rintro ⟨⟩
        rfl
  | some json => exact offers_iff hdenotes

theorem lists_iff {results : List α}
    (hdenotes : ∀ {json result}, Reads read json result ↔ denotes json result) :
    Reads (listOrNull read) json results ↔ Lists denotes json results := by
  have hitems {items : List Json} :
      (items.map settled).mapM read = some results ↔ List.Forall₂ denotes items results := by
    induction items generalizing results with
    | nil => simp [eq_comm]
    | cons item items ih =>
        simp only [List.map_cons, List.mapM_cons, Option.bind_eq_bind, Option.bind_eq_some_iff,
          Option.pure_def, Option.some.injEq, List.forall₂_cons_left_iff, ih, ← hdenotes, Reads]
        constructor
        · rintro ⟨result, hresult, others, hothers, rfl⟩
          exact ⟨result, others, hresult, hothers, rfl⟩
        · rintro ⟨result, others, hresult, hothers, rfl⟩
          exact ⟨result, hresult, others, hothers, rfl⟩
  constructor
  · intro hread
    cases json with
    | null =>
        cases hread
        exact .null
    | array items =>
        rw [Reads, settled, settledItems_eq_map] at hread
        exact .array (hitems.mp hread)
    | number literal =>
        rw [Reads, settled] at hread
        split at hread <;> cases hread
    | _ => cases hread
  · intro hlists
    cases hlists with
    | null => rfl
    | array hlisted =>
        rw [Reads, settled, settledItems_eq_map]
        exact hitems.mpr hlisted

end ChainClient.Json
