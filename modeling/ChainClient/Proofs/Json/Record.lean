import Mathlib.Algebra.Ring.Nat
import Mathlib.Data.List.Nodup
import Mathlib.Data.List.TakeDrop
import Mathlib.Data.List.TakeWhile
import ChainClient.Json.Record
import ChainClient.Json.Settled
import ChainClient.Proofs.Text.Digits

/-!
# Members and integers

Where no key occurs twice, the fields of a record are the members of the object, and
they are settled each for itself. An integer of 64 bits that is written in decimal is
settled, and read as itself.
-/

namespace ChainClient.Json

open Text

/-! ## Members -/

theorem settledMembers_eq_map (members : List (String × Json)) :
    settledMembers members = members.map fun member => (member.1, member.2.settled) := by
  induction members with
  | nil => rfl
  | cons member members ih => rw [settledMembers, ih, List.map_cons]

theorem occursTwice_eq_false {members : List (String × Json)}
    (hnodup : (members.map Prod.fst).Nodup) (name : String) : occursTwice members name = false := by
  have hcount := List.nodup_iff_count_le_one.mp hnodup name
  rw [List.count, List.countP_map, List.countP_eq_length_filter] at hcount
  rw [occursTwice, decide_eq_false_iff_not, Nat.not_lt]
  exact hcount

theorem record?_object {names : List String} {members : List (String × Json)}
    (hnodup : (members.map Prod.fst).Nodup) :
    (object members).record? names =
      some ⟨.named, members.filter fun member => names.contains member.1⟩ := by
  rw [record?, if_neg]
  simp [occursTwice_eq_false hnodup]

theorem field?_object {names : List String} {members : List (String × Json)} {name : String}
    (hname : name ∈ names) :
    Record.field? ⟨.named, members.filter fun member => names.contains member.1⟩ name =
      (object members).member? name := by
  have hfield : (fun member : String × Json => names.contains member.1 && member.1 == name) =
      fun member => member.1 == name := by
    funext member
    by_cases hmember : member.1 = name
    · simp [hmember, hname]
    · simp [hmember]
  simp only [Record.field?, member?, List.find?_filter, Bool.decide_and, Bool.decide_eq_true,
    hfield]

theorem record?_settled {names : List String} {members : List (String × Json)}
    (hnodup : (members.map Prod.fst).Nodup) :
    (object members).settled.record? names =
      some ⟨.named, (settledMembers members).filter fun member => names.contains member.1⟩ := by
  rw [settled]
  apply record?_object
  rw [settledMembers_eq_map, List.map_map]
  exact hnodup

theorem member?_settled (members : List (String × Json)) (name : String) :
    (object (settledMembers members)).member? name =
      ((object members).member? name).map settled := by
  simp only [member?, settledMembers_eq_map, List.find?_map, Option.map_map]
  rfl

theorem field?_settled {names : List String} {members : List (String × Json)} {name : String}
    (hname : name ∈ names) :
    Record.field? ⟨.named, (settledMembers members).filter fun member => names.contains member.1⟩
        name =
      ((object members).member? name).map settled := by
  rw [field?_object hname, member?_settled]

/-- A member says what its field holds, and a missing one stands for the default. -/
theorem withDefault_object {α : Type} {names : List String} {members : List (String × Json)}
    {name : String} (hname : name ∈ names) {default : α} {read : Json → Option α}
    {value missing : Json} {result : α} (hmissing : read missing = some default)
    (hvalue : ((object members).member? name).getD missing = value)
    (hread : read value = some result) :
    Record.withDefault ⟨.named, members.filter fun member => names.contains member.1⟩ name default
      read = some result := by
  rw [Record.withDefault, field?_object hname]
  cases hmember : (object members).member? name with
  | none =>
      rw [hmember, Option.getD_none] at hvalue
      rw [← hread, ← hvalue, hmissing]
  | some found =>
      rw [hmember, Option.getD_some] at hvalue
      rw [← hread, ← hvalue]

theorem withDefault_settled {α : Type} {names : List String} {members : List (String × Json)}
    {name : String} (hname : name ∈ names) (default : α) (read : Json → Option α) :
    Record.withDefault
        ⟨.named, (settledMembers members).filter fun member => names.contains member.1⟩ name
        default read =
      ((object members).member? name).elim (some default) fun value => read value.settled := by
  rw [Record.withDefault, field?_settled hname]
  cases (object members).member? name <;> rfl

/-- If each item is read as one of the results that were wanted, the array is read as all
of them. -/
theorem exists_listOf {α β : Type} {read : Json → Option α} {denotes : Json → β → Prop}
    {means : α → β → Prop} {items : List Json} {wanted : List β}
    (hdenotes : List.Forall₂ denotes items wanted)
    (hread : ∀ goal ∈ wanted, ∀ {item}, denotes item goal →
      ∃ result, read item = some result ∧ means result goal) :
    ∃ results, (array items).listOf read = some results ∧ List.Forall₂ means results wanted := by
  induction hdenotes with
  | nil => exact ⟨[], rfl, .nil⟩
  | cons hitem _ ih =>
      obtain ⟨hfirst, hothers⟩ := List.forall_mem_cons.mp hread
      obtain ⟨result, hresult, hmeans⟩ := hfirst hitem
      obtain ⟨results, hresults, hmeanings⟩ := ih hothers
      rw [listOf] at hresults
      refine ⟨result :: results, ?_, .cons hmeans hmeanings⟩
      simp only [listOf, List.mapM_cons, hresult, hresults]
      rfl

/-! ## Integers -/

theorem toList_toString_int (integer : Int) :
    (toString integer).toList =
      if integer < 0 then '-' :: Nat.toDigits 10 integer.natAbs
      else Nat.toDigits 10 integer.natAbs := by
  cases integer with
  | ofNat number => exact Nat.toList_repr
  | negSucc number =>
      rw [if_pos (Int.negSucc_lt_zero number)]
      change ("-" ++ Nat.repr (number + 1)).toList = _
      rw [String.toList_append, Nat.toList_repr]
      rfl

theorem toDigits_ne_sign_cons {number : Nat} {rest : List Char} :
    Nat.toDigits 10 number ≠ '-' :: rest := by
  intro hdigits
  have hsign : '-' ∉ Nat.toDigits 10 number := not_mem_toDigits (by decide) number
  exact hsign (hdigits ▸ List.mem_cons_self)

theorem digitRun?_of_isDigit {digits : List Char} (hnonempty : digits ≠ [])
    (hdigits : ∀ digit ∈ digits, digit.isDigit = true) : digitRun? digits = some (digits, []) := by
  have hspan : digits.span Char.isDigit = (digits, []) := by
    rw [List.span_eq_takeWhile_dropWhile, List.takeWhile_eq_self_iff.mpr hdigits,
      List.dropWhile_eq_nil_iff.mpr hdigits]
  rw [digitRun?, hspan]
  cases digits with
  | nil => exact absurd rfl hnonempty
  | cons digit rest => rfl

theorem wholePart?_toDigits {number : Nat} (hpos : 0 < number) :
    wholePart? (Nat.toDigits 10 number) = some (Nat.toDigits 10 number, []) := by
  have hhead := head?_toDigits_ne_zero hpos
  unfold wholePart?
  split
  next hdigits => simp [hdigits] at hhead
  next => exact digitRun?_of_isDigit Nat.toDigits_ne_nil isDigit_of_mem_toDigits

/-- The numeral of an integer has neither a fraction nor an exponent. -/
theorem parse?_toString_int {integer : Int} (hnonzero : integer ≠ 0) :
    Numeral.parse? (toString integer) =
      some ⟨decide (integer < 0), Nat.toDigits 10 integer.natAbs, [], []⟩ := by
  have hwhole := wholePart?_toDigits (Int.natAbs_pos.mpr hnonzero)
  have hnumeral : numeral? (toString integer).toList =
      some (⟨decide (integer < 0), Nat.toDigits 10 integer.natAbs, [], []⟩, []) := by
    rw [toList_toString_int]
    by_cases hnegative : integer < 0
    · simp [numeral?, hwhole, hnegative, fraction?, exponent?]
    · rw [if_neg hnegative]
      unfold numeral?
      split
      next hsign =>
        split at hsign
        next hdigits => exact absurd hdigits toDigits_ne_sign_cons
        next =>
          obtain ⟨rfl, rfl⟩ := Prod.mk.inj hsign
          simp [hwhole, hnegative, fraction?, exponent?]
  rw [Numeral.parse?, hnumeral]

/-- A written integer is itself as long as it fits 128 bits. -/
theorem integer?_written (isNegative : Bool) (size : Nat) :
    Numeral.integer? ⟨isNegative, Nat.toDigits 10 size, [], []⟩ =
      if isNegative then (if size ≤ 2 ^ 127 then some (-(size : Int)) else none)
      else if size < 2 ^ 128 then some (size : Int) else none := by
  have hpowers : Nat.pow 2 127 = 2 ^ 127 ∧ Nat.pow 2 128 = 2 ^ 128 := ⟨rfl, rfl⟩
  simp only [Numeral.integer?, Numeral.written?, digits?_toDigits, List.isEmpty_nil, if_true,
    List.append_nil, Option.map_some, bind, Option.bind_some, hpowers]

theorem integer?_toDigits (integer : Int64) :
    Numeral.integer? ⟨decide (integer.toInt < 0), Nat.toDigits 10 integer.toInt.natAbs, [], []⟩ =
      some integer.toInt := by
  have hlow := integer.le_toInt
  have hhigh := integer.toInt_lt
  rw [integer?_written]
  by_cases hnegative : integer.toInt < 0
  · rw [if_pos (decide_eq_true hnegative), if_pos (by omega), Option.some.injEq]
    omega
  · rw [if_neg (by simp [hnegative]), if_pos (by omega), Option.some.injEq]
    omega

/-- A written integer of 64 bits is settled. -/
theorem settled_toString {integer : Int64} (hnonzero : integer ≠ 0) :
    (number (toString integer.toInt)).settled = number (toString integer.toInt) := by
  have hnonzero : integer.toInt ≠ 0 := fun hzero => hnonzero (Int64.toInt_inj.mp hzero)
  rw [settled, parse?_toString_int hnonzero]
  simp only [Numeral.settled, integer?_toDigits]

/-- An integer of 64 bits that is written in decimal is read as itself. -/
theorem asInt64?_toString (integer : Int64) :
    (number (toString integer.toInt)).asInt64? = some integer := by
  have hpower : Nat.pow 2 63 = 2 ^ 63 := rfl
  have hlow := integer.le_toInt
  have hhigh := integer.toInt_lt
  rw [asInt64?, toList_toString_int]
  by_cases hnegative : integer.toInt < 0
  · have hmagnitude : -(integer.toInt.natAbs : Int) = integer.toInt := by omega
    have hfits : 0 < integer.toInt.natAbs ∧ integer.toInt.natAbs ≤ 2 ^ 63 := by omega
    simp only [if_pos hnegative, digits?_toDigits, hpower, Option.filter_some,
      decide_eq_true hfits, if_true]
    change some (Int64.ofInt (-(integer.toInt.natAbs : Int))) = some integer
    rw [hmagnitude, Int64.ofInt_toInt]
  · have hmagnitude : (integer.toInt.natAbs : Int) = integer.toInt := by omega
    have hfits : integer.toInt.natAbs < 2 ^ 63 := by omega
    rw [if_neg hnegative]
    split
    next hdigits => exact absurd hdigits toDigits_ne_sign_cons
    next =>
      rw [digits?_toDigits, hpower, Option.filter_some, if_pos (decide_eq_true hfits)]
      change some (Int64.ofInt (integer.toInt.natAbs : Int)) = some integer
      rw [hmagnitude, Int64.ofInt_toInt]

end ChainClient.Json
