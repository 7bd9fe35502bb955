import ChainClient.Proofs.Abi.Induction

/-!
# Weights of values

The weight of a value is the number of words of data that stand for it when no two
parts of it share a word. Offsets weigh nothing. Elements without a head of their
own would make an array of any length weigh as little as an empty one, so they
weigh one word each. Nothing is written for them, so an array that has some weighs
more than what is written for it; a solid value has no such array. The decoder asks
for the size of the elements of every array, and a measured value has an answer for
each.
-/

namespace ChainClient.Abi

/-- The number of words that so many bytes occupy. -/
def wordCount (length : Nat) : Nat :=
  (length + (Word.size - 1)) / Word.size

/-- A static type whose values occupy nothing in the head of a block. -/
def AbiType.isHeadless (type : AbiType) : Bool :=
  !type.isDynamic && type.headSize? == some 0

theorem AbiType.headSize?_of_isDynamic {type : AbiType} (hdynamic : type.isDynamic = true) :
    type.headSize? = some Word.size := by
  cases type with
  | fixedArray element length => simp_all [AbiType.isDynamic, AbiType.headSize?]
  | tuple members => simp_all [AbiType.isDynamic, AbiType.headSize?]
  | _ => rfl

mutual

/-- Whether a type is built of empty tuples only. -/
def AbiType.isHollow : AbiType → Bool
  | .fixedArray element _ => AbiType.isHollow element
  | .tuple members => AbiType.areHollow members
  | _ => false

def AbiType.areHollow : List AbiType → Bool
  | [] => true
  | type :: types => AbiType.isHollow type && AbiType.areHollow types

end

theorem AbiType.areHollow_iff {types : List AbiType} :
    AbiType.areHollow types = true ↔ ∀ type ∈ types, type.isHollow = true := by
  induction types with
  | nil => simp [AbiType.areHollow]
  | cons type types ih =>
      rw [AbiType.areHollow, List.forall_mem_cons, Bool.and_eq_true, ih]

namespace Value

mutual

/-- The number of words of a value. -/
def weight : Value → Nat
  | .bytes value => 1 + wordCount value.length
  | .string value => 1 + wordCount (Bytes.ofText value).length
  | .fixedArray _ values => weights values
  | .array element values =>
      1 + weights values + if element.isHeadless then values.length else 0
  | .tuple members => weights members
  | _ => 1

def weights : List Value → Nat
  | [] => 0
  | value :: values => weight value + weights values

end

mutual

/-- Whether no array in a value has elements of a hollow type. -/
def isSolid : Value → Bool
  | .fixedArray _ values => areSolid values
  | .array element values => (values.isEmpty || !element.isHollow) && areSolid values
  | .tuple members => areSolid members
  | _ => true

def areSolid : List Value → Bool
  | [] => true
  | value :: values => isSolid value && areSolid values

end

mutual

/-- Whether the elements of every array in a value have a head of some size. Any element
of a short enough array shows that they have, so that only an empty array may fail. -/
def isMeasured : Value → Bool
  | .fixedArray _ values => areMeasured values
  | .array element values => element.headSize?.isSome && areMeasured values
  | .tuple members => areMeasured members
  | _ => true

def areMeasured : List Value → Bool
  | [] => true
  | value :: values => isMeasured value && areMeasured values

end

theorem weights_eq_sum (values : List Value) : weights values = (values.map weight).sum := by
  induction values with
  | nil => rfl
  | cons value values ih => rw [weights, ih, List.map_cons, List.sum_cons]

@[simp] theorem areSolid_iff {values : List Value} :
    areSolid values = true ↔ ∀ value ∈ values, value.isSolid = true := by
  induction values with
  | nil => simp [areSolid]
  | cons value values ih => rw [areSolid, List.forall_mem_cons, Bool.and_eq_true, ih]

@[simp] theorem areMeasured_iff {values : List Value} :
    areMeasured values = true ↔ ∀ value ∈ values, value.isMeasured = true := by
  induction values with
  | nil => simp [areMeasured]
  | cons value values ih => rw [areMeasured, List.forall_mem_cons, Bool.and_eq_true, ih]

end Value

end ChainClient.Abi
