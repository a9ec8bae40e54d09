/-
Module: ModelDistribution.Foundation.Json
Layer: Foundation
Purpose: JSON values as a generic data tree, and the decoders that derived struct readers are made
  of: required object fields by name and typed leaves.
Imports: Mathlib.Algebra.Group.Int.Defs
Trusted boundary: human-reviewed spec
Main exports: JsonNumber, Json, Json.get?, Json.ofFloat32, Json.asString, Json.asUInt64,
  Json.asUInt32, Json.asStrings, Json.field
-/
import Mathlib.Algebra.Group.Int.Defs

namespace ModelDistribution.Foundation

/-- JSON numbers: integers, and floats of either precision. -/
inductive JsonNumber where
  | integer (value : Int)
  | single (value : Float32)
  | double (value : Float)

/-- A JSON value. -/
inductive Json where
  | null
  | bool (value : Bool)
  | number (value : JsonNumber)
  | string (value : String)
  | array (items : List Json)
  | object (fields : List (String × Json))

namespace Json

def ofNat (n : Nat) : Json := .number (.integer n)

/-- A single-precision float is a number when finite and `null` otherwise. -/
def ofFloat32 (value : Float32) : Json :=
  if value.isFinite then .number (.single value) else .null

/-- The member of an object under a key; other values have no members. -/
def get? : Json → String → Option Json
  | .object fields, key => (fields.find? fun field => field.1 = key).map Prod.snd
  | _, _ => none

/-- How decoding errors describe a value they did not expect. -/
def unexpected : Json → String
  | .null => "null"
  | .bool value => s!"boolean `{value}`"
  | .number (.integer value) => s!"integer `{value}`"
  | .number (.single value) => s!"floating point `{value}`"
  | .number (.double value) => s!"floating point `{value}`"
  | .string value => s!"string {value.quote}"
  | .array _ => "sequence"
  | .object _ => "map"

def invalidType {α : Type} (value : Json) (expected : String) : Except String α :=
  .error s!"invalid type: {value.unexpected}, expected {expected}"

def asString : Json → Except String String
  | .string value => .ok value
  | other => other.invalidType "a string"

def asUInt64 : Json → Except String UInt64
  | .number (.integer value) =>
      if 0 ≤ value ∧ value < 2 ^ 64 then .ok (UInt64.ofNat value.toNat)
      else .error s!"invalid value: integer `{value}`, expected u64"
  | other => other.invalidType "u64"

def asUInt32 : Json → Except String UInt32
  | .number (.integer value) =>
      if 0 ≤ value ∧ value < 2 ^ 32 then .ok (UInt32.ofNat value.toNat)
      else .error s!"invalid value: integer `{value}`, expected u32"
  | other => other.invalidType "u32"

def asStrings : Json → Except String (List String)
  | .array items => items.mapM asString
  | other => other.invalidType "a sequence"

/-- A required object field, read with the decoder of its type. -/
def field {α : Type} (value : Json) (name : String) (decode : Json → Except String α) :
    Except String α :=
  match value.get? name with
  | some member => decode member
  | none => .error s!"missing field `{name}`"

/-! ### Reading members of an object -/

theorem get?_cons (key name : String) (value : Json) (fields : List (String × Json)) :
    (object ((key, value) :: fields)).get? name =
      if key = name then some value else (object fields).get? name := by
  by_cases same : key = name <;> simp [get?, same]

theorem get?_eq_none {fields : List (String × Json)} {name : String}
    (absent : name ∉ fields.map Prod.fst) : (object fields).get? name = none := by
  simp only [get?, Option.map_eq_none_iff, List.find?_eq_none, decide_eq_true_eq]
  exact fun field mem same => absent (List.mem_map.mpr ⟨field, mem, same⟩)

theorem field_of_get? {α : Type} {value member : Json} {name : String}
    (decode : Json → Except String α) (found : value.get? name = some member) :
    value.field name decode = decode member := by
  rw [field, found]

/-- A required field that is not there is reported by its name. -/
theorem field_missing {α : Type} {value : Json} {name : String} (decode : Json → Except String α)
    (absent : value.get? name = none) :
    value.field name decode = .error s!"missing field `{name}`" := by
  rw [field, absent]

end Json

end ModelDistribution.Foundation
