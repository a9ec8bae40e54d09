/-
Module: ModelDistribution.Foundation.DerivedDecoding
Layer: Foundation
Purpose: What derived decoders of structs and of tagged variants accept. Members of an object are found
  by name, each of them once, and unknown ones are passed over; an array gives the fields in order. A
  value that is kept as it is has its members ordered by key, of several with one key the last.
Imports: ModelDistribution.Foundation.JsonReader
Trusted boundary: human-reviewed spec
Main exports: Json.sole, Json.members, Json.tagged, Json.isUnit, Json.asBool?, Json.asBytes?,
  Json.ordered, mapM_decode, asBytes?_bytes, within_ordered
-/
import ModelDistribution.Foundation.JsonReader

namespace ModelDistribution.Foundation

/-- What a decoder gives back of every item, it gives back of a list of them. -/
theorem mapM_decode {α β : Type} {encode : α → β} {decode : β → Option α} {items : List α}
    (back : ∀ item ∈ items, decode (encode item) = some item) :
    (items.map encode).mapM decode = some items := by
  induction items with
  | nil => rfl
  | cons item items ih =>
      have first := back item List.mem_cons_self
      have others := ih fun other mem => back other (List.mem_cons_of_mem item mem)
      simp [List.mapM_cons, first, others]

namespace Json

/-! ### Fields -/

/-- The member under a name that occurs once. -/
def sole (fields : List (String × Json)) (name : String) : Option Json :=
  match fields.filter fun field => field.1 = name with
  | [(_, value)] => some value
  | _ => none

/-- The values of the named fields: the members of an object under the names, or the items of an array
of as many. -/
def members (names : List String) : Json → Option (List Json)
  | .object fields => names.mapM (sole fields)
  | .array items => if items.length = names.length then some items else none
  | _ => none

/-- The name of a variant and its content: the tag of an object with the other members, or the first
item of an array with the others. -/
def tagged (tag : String) : Json → Option (String × Json)
  | .object fields =>
      match sole fields tag with
      | some (.string name) => some (name, .object (fields.filter fun field => field.1 ≠ tag))
      | _ => none
  | .array (.string name :: items) => some (name, .array items)
  | _ => none

/-- The content of a variant without fields. -/
def isUnit : Json → Bool
  | .object _ => true
  | .array items => items.isEmpty
  | _ => false

/-! ### Leaves -/

def asString? (value : Json) : Option String := value.asString.toOption

def asUInt64? (value : Json) : Option UInt64 := value.asUInt64.toOption

def asUInt32? (value : Json) : Option UInt32 := value.asUInt32.toOption

def asBool? : Json → Option Bool
  | .bool value => some value
  | _ => none

def asUInt8? : Json → Option UInt8
  | .number (.integer value) =>
      if 0 ≤ value ∧ value < 2 ^ 8 then some (UInt8.ofNat value.toNat) else none
  | _ => none

def asBytes? : Json → Option (List UInt8)
  | .array items => items.mapM asUInt8?
  | _ => none

def asArray? : Json → Option (List Json)
  | .array items => some items
  | _ => none

/-! ### Values that are kept -/

/-- Add a member to members that are ordered by key, or replace the one under its key. -/
def insertMember (key : String) (value : Json) : List (String × Json) → List (String × Json)
  | [] => [(key, value)]
  | (other, old) :: fields =>
      if key < other then (key, value) :: (other, old) :: fields
      else if key = other then (key, value) :: fields
      else (other, old) :: insertMember key value fields

mutual

/-- The value with the members of its objects ordered. -/
def ordered : Json → Json
  | .null => .null
  | .bool value => .bool value
  | .number value => .number value
  | .string value => .string value
  | .array items => .array (orderedItems items)
  | .object fields => .object (orderedFields [] fields)

def orderedItems : List Json → List Json
  | [] => []
  | item :: items => ordered item :: orderedItems items

/-- Add the members one after another. -/
def orderedFields (before : List (String × Json)) : List (String × Json) → List (String × Json)
  | [] => before
  | (key, value) :: fields => orderedFields (insertMember key (ordered value) before) fields

end

/-! ### Reading back -/

@[simp] theorem asUInt8?_ofNat (byte : UInt8) : asUInt8? (ofNat byte.toNat) = some byte := by
  have small := byte.toNat_lt
  simp only [ofNat, asUInt8?, Int.toNat_natCast, UInt8.ofNat_toNat, ite_eq_left_iff]
  omega

@[simp] theorem asBytes?_bytes (data : List UInt8) : asBytes? (bytes data) = some data :=
  mapM_decode fun byte _ => asUInt8?_ofNat byte

@[simp] theorem asUInt64_ofNat (word : UInt64) : asUInt64 (ofNat word.toNat) = .ok word := by
  have small := word.toNat_lt
  have range : (0 : Int) ≤ word.toNat ∧ (word.toNat : Int) < 2 ^ 64 := by omega
  rw [ofNat, asUInt64, if_pos range]
  simp

@[simp] theorem asUInt32_ofNat (word : UInt32) : asUInt32 (ofNat word.toNat) = .ok word := by
  have small := word.toNat_lt
  have range : (0 : Int) ≤ word.toNat ∧ (word.toNat : Int) < 2 ^ 32 := by omega
  rw [ofNat, asUInt32, if_pos range]
  simp

@[simp] theorem asUInt64?_ofNat (word : UInt64) : asUInt64? (ofNat word.toNat) = some word := by
  rw [asUInt64?, asUInt64_ofNat]
  rfl

@[simp] theorem asUInt32?_ofNat (word : UInt32) : asUInt32? (ofNat word.toNat) = some word := by
  rw [asUInt32?, asUInt32_ofNat]
  rfl

@[simp] theorem asString?_string (text : String) : asString? (string text) = some text := rfl

section Within

variable {P : JsonNumber → Prop} {limit : Nat}

theorem withinFields_insertMember {key : String} {value : Json} {fields : List (String × Json)}
    (inside : Within P limit value) (others : WithinFields P limit fields) :
    WithinFields P limit (insertMember key value fields) := by
  induction fields with
  | nil => exact ⟨inside, trivial⟩
  | cons field fields ih =>
      rcases field with ⟨other, old⟩
      rw [insertMember]
      split
      · exact ⟨inside, others⟩
      · split
        · exact ⟨inside, others.2⟩
        · exact ⟨others.1, ih others.2⟩

mutual

/-- Ordering the members changes neither the numbers nor the nesting. -/
theorem within_ordered : ∀ (value : Json) {limit : Nat}, Within P limit value →
    Within P limit value.ordered
  | .null, _, _ => by simp [ordered, Within]
  | .bool _, _, _ => by simp [ordered, Within]
  | .number value, _, within => within
  | .string _, _, _ => by simp [ordered, Within]
  | .array items, 0, within => within.elim
  | .array items, limit + 1, within => withinItems_ordered items within
  | .object fields, 0, within => within.elim
  | .object fields, limit + 1, within => withinFields_ordered fields [] within trivial

theorem withinItems_ordered : ∀ (items : List Json) {limit : Nat}, WithinItems P limit items →
    WithinItems P limit (orderedItems items)
  | [], _, _ => trivial
  | item :: items, _, within =>
      ⟨within_ordered item within.1, withinItems_ordered items within.2⟩

theorem withinFields_ordered : ∀ (fields before : List (String × Json)) {limit : Nat},
    WithinFields P limit fields → WithinFields P limit before →
    WithinFields P limit (orderedFields before fields)
  | [], _, _, _, earlier => earlier
  | (_, value) :: fields, _, _, within, earlier =>
      withinFields_ordered fields _ within.2
        (withinFields_insertMember (within_ordered value within.1) earlier)

end

end Within

end Json

end ModelDistribution.Foundation
