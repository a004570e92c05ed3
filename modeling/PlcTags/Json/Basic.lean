/-!
# JSON values

A value keeps the members of an object in the order in which they stand, repeated
names included, so that a reader can refuse repetitions.  A number is an integer or,
with a point, an exponent or too many digits, something that no reader here takes.

Records are read from objects by the names of their fields, or from arrays by their
places.
-/

namespace PlcTags

inductive Json where
  | null
  | bool (value : Bool)
  | int (value : Int)
  /-- A number that is not an integer of at most 64 bits, as it is written. -/
  | inexact (literal : String)
  | string (value : String)
  | array (items : List Json)
  | object (members : List (String × Json))
  deriving Repr, Inhabited

namespace Json

/-! ## Single values -/

def bool? : Json → Option Bool
  | bool value => some value
  | _ => none

def string? : Json → Option String
  | string value => some value
  | _ => none

/-- An integer in a range. -/
def int? (least greatest : Int) : Json → Option Int
  | int value => if least ≤ value ∧ value ≤ greatest then some value else none
  | _ => none

/-- The least signed integer of 64 bits. -/
def minInt64 : Int := -0x8000000000000000

/-- The greatest signed integer of 64 bits. -/
def maxInt64 : Int := 0x7FFFFFFFFFFFFFFF

/-- The greatest unsigned integer of 64 bits. -/
def maxNat64 : Int := 0xFFFFFFFFFFFFFFFF

/-- A signed integer of 64 bits. -/
def int64? : Json → Option Int :=
  int? minInt64 maxInt64

/-- An unsigned integer of 64 bits. -/
def nat64? (json : Json) : Option Nat :=
  (json.int? 0 maxNat64).map Int.toNat

/-- A word of a closed vocabulary: a string, or an object with the word as its only
name and no value. -/
def word? : Json → Option String
  | string value => some value
  | object [(value, null)] => some value
  | _ => none

/-- A value that may be null. -/
def nullable? {α : Type} (read : Json → Option α) : Json → Option (Option α)
  | null => some none
  | json => some <$> read json

/-- The items of an array, each read the same way. -/
def list? {α : Type} (read : Json → Option α) : Json → Option (List α)
  | array items => items.mapM read
  | _ => none

/-- The last member of an object with this name. -/
def member? (name : String) : Json → Option Json
  | object members => (members.reverse.find? (·.1 == name)).map (·.2)
  | _ => none

/-! ## Records -/

/-- The fields of a record that are present. -/
structure Fields where
  values : List (String × Json)
  /-- The fields come from an array, by their places. -/
  byPlace : Bool

/-- Whether no name stands twice. -/
def distinctNames : List (String × Json) → Bool
  | [] => true
  | (name, _) :: rest => !rest.any (·.1 == name) && distinctNames rest

/-- The fields with the given names.  Other members of an object are passed over; a
field that stands twice, or more items than fields, is no record. -/
def fields? (names : List String) : Json → Option Fields
  | object members =>
    let known := members.filter fun (name, _) => names.contains name
    if distinctNames known then some ⟨known, false⟩ else none
  | array items =>
    if items.length ≤ names.length then some ⟨names.zip items, true⟩ else none
  | _ => none

namespace Fields

def get? (fields : Fields) (name : String) : Option Json :=
  fields.values.lookup name

/-- A field that must be there. -/
def required {α : Type} (fields : Fields) (name : String) (read : Json → Option α) : Option α :=
  (fields.get? name).bind read

/-- A field that has a value of its own when it is not there. -/
def withDefault {α : Type} (fields : Fields) (name : String) (value : α)
    (read : Json → Option α) : Option α :=
  match fields.get? name with
  | some json => read json
  | none => some value

/-- A field that may be null; it may be missing from an object. -/
def optional {α : Type} (fields : Fields) (name : String) (read : Json → Option α) :
    Option (Option α) :=
  match fields.get? name with
  | some json => nullable? read json
  | none => if fields.byPlace then none else some none

end Fields

end Json

end PlcTags
