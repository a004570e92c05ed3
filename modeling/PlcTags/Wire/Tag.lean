import PlcTags.Json.Check
import PlcTags.Tag.Record

/-!
# Tags, diagnostics and records as JSON

The values of the closed vocabularies are their words, exactly as they are written.
What a tag or a record may leave out has an empty text or a false mark in its place.
A diagnostic shows its line and its tag only where it has them.
-/

namespace PlcTags

open Json (Fields)

/-- The value of a closed vocabulary that a JSON word names. -/
def Json.vocabulary? {α : Type} (ofWord? : String → Option α) (json : Json) : Option α :=
  json.word?.bind ofWord?

/-! ## Diagnostics -/

namespace Diagnostic

def toJson (diagnostic : Diagnostic) : Json :=
  .object ([
    ("severity", .string diagnostic.severity.word),
    ("code", .string diagnostic.code.word),
    ("message", .string diagnostic.message)] ++
    (match diagnostic.line with
      | some line => [("line", .int line)]
      | none => []) ++
    (match diagnostic.tag with
      | some tag => [("tag", .string tag)]
      | none => []))

def ofJson? (json : Json) : Option Diagnostic := do
  let fields ← json.fields? ["severity", "code", "message", "line", "tag"]
  let severity ← fields.required "severity" (Json.vocabulary? Severity.ofWord?)
  let code ← fields.required "code" (Json.vocabulary? Code.ofWord?)
  let message ← fields.required "message" Json.string?
  let line ← fields.optional "line" Json.nat64?
  let tag ← fields.optional "tag" Json.string?
  return { severity, code, message, line, tag }

def listToJson (diagnostics : List Diagnostic) : Json :=
  .array (diagnostics.map toJson)

end Diagnostic

/-! ## Tags -/

namespace Tag

def fieldNames : List String :=
  ["name", "dataType", "address", "scope", "category", "defaultValue", "description", "vendor",
    "isGenerated"]

def toMembers (tag : Tag) : List (String × Json) := [
  ("name", .string tag.name),
  ("dataType", .string tag.dataType.word),
  ("address", .string tag.address),
  ("scope", .string tag.scope.word),
  ("category", .string tag.category.word),
  ("defaultValue", .string tag.defaultValue),
  ("description", .string tag.description),
  ("vendor", .string tag.vendor.word),
  ("isGenerated", .bool tag.isGenerated)]

def toJson (tag : Tag) : Json :=
  .object tag.toMembers

/-- A tag from its fields among others. -/
def ofFields? (fields : Fields) : Option Tag := do
  let name ← fields.required "name" Json.string?
  let dataType ← fields.required "dataType" (Json.vocabulary? DataType.ofWord?)
  let address ← fields.withDefault "address" "" Json.string?
  let scope ← fields.required "scope" (Json.vocabulary? Scope.ofWord?)
  let category ← fields.required "category" (Json.vocabulary? Category.ofWord?)
  let defaultValue ← fields.withDefault "defaultValue" "" Json.string?
  let description ← fields.withDefault "description" "" Json.string?
  let vendor ← fields.required "vendor" (Json.vocabulary? Vendor.ofWord?)
  let isGenerated ← fields.withDefault "isGenerated" false Json.bool?
  return { name, dataType, address, scope, category, defaultValue, description, vendor,
           isGenerated }

def ofJson? (json : Json) : Option Tag :=
  (json.fields? fieldNames).bind ofFields?

/-- The check of what `ofJson?` reads. -/
def check : Json.Check := .record [
  { name := "name", check := .text },
  { name := "dataType", check := .word fun word => (DataType.ofWord? word).isSome },
  { name := "address", isRequired := false, check := .text },
  { name := "scope", check := .word fun word => (Scope.ofWord? word).isSome },
  { name := "category", check := .word fun word => (Category.ofWord? word).isSome },
  { name := "defaultValue", isRequired := false, check := .text },
  { name := "description", isRequired := false, check := .text },
  { name := "vendor", check := .word fun word => (Vendor.ofWord? word).isSome },
  { name := "isGenerated", isRequired := false, check := .flag }]

end Tag

/-! ## Records -/

namespace VendorRecord

def toJson (record : VendorRecord) : Json :=
  .object ([
    ("vendor", .string record.vendor.word),
    ("name", .string record.name),
    ("dataType", .string record.dataType),
    ("address", .string record.address),
    ("scope", .string record.scope),
    ("defaultValue", .string record.defaultValue),
    ("description", .string record.description)] ++
    (if record.issues.isEmpty then [] else [("issues", Diagnostic.listToJson record.issues)]))

def ofJson? (json : Json) : Option VendorRecord := do
  let fields ← json.fields?
    ["vendor", "name", "dataType", "address", "scope", "defaultValue", "description", "issues"]
  let vendor ← fields.required "vendor" (Json.vocabulary? Vendor.ofWord?)
  let name ← fields.required "name" Json.string?
  let dataType ← fields.required "dataType" Json.string?
  let address ← fields.required "address" Json.string?
  let scope ← fields.required "scope" Json.string?
  let defaultValue ← fields.withDefault "defaultValue" "" Json.string?
  let description ← fields.withDefault "description" "" Json.string?
  let issues ← fields.withDefault "issues" [] (Json.list? Diagnostic.ofJson?)
  return { vendor, name, dataType, address, scope, defaultValue, description, issues }

end VendorRecord

/-! ## Addresses -/

namespace Address

def locationToJson (location : Location) : Json :=
  let (width, bit) : String × Json := match location.width with
    | .bit index => ("bit", .int index)
    | .byte => ("byte", .null)
    | .word => ("word", .null)
    | .doubleWord => ("dword", .null)
  .object [("area", .string location.area.word), ("byte", .int location.byte),
    ("width", .string width), ("bit", bit)]

def toJson (address : Address) : Json :=
  .object [
    ("normalized", .string address.normalized),
    ("area", .string address.area.word),
    ("physical", (address.location?.map locationToJson).getD .null),
    ("accepts", .array (address.accepts.map fun dataType => .string dataType.word))]

end Address

end PlcTags
