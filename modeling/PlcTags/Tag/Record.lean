import PlcTags.Tag.Translate

/-!
# Records in a vendor's words

A tag as its vendor spells it: the vendor's name of the type and word of the scope,
and the address in canonical spelling, with the problems of the combination beside
it.  A record is read back into a tag.
-/

namespace PlcTags

structure VendorRecord where
  vendor : Vendor
  name : String
  dataType : String
  address : String
  scope : String
  defaultValue : String := ""
  description : String := ""
  issues : List Diagnostic := []
  deriving Repr

/-- The record of a tag; there always is one. -/
def Tag.toRecord (tag : Tag) : VendorRecord :=
  let prepared := tag.prepare
  { vendor := tag.vendor
    name := tag.name
    dataType := tag.vendor.typeName tag.dataType
    address := prepared.tag.address
    scope := tag.vendor.scopeWord tag.scope
    defaultValue := tag.defaultValue
    description := tag.description
    issues := prepared.issues }

/-- The tag of a record.  A word that names no scope counts as local, and the category
follows from the scope and the address. -/
def VendorRecord.toTag (record : VendorRecord) : Except TranslateError Tag := do
  let dataType ← match record.vendor.readType? record.dataType with
    | some dataType => .ok dataType
    | none => .error (.unknownType record.vendor record.dataType)
  let scope := (record.vendor.readScope? record.scope).getD .local
  let address ←
    if Text.isAllBlank record.address then .ok none
    else match Address.parse record.vendor record.address with
      | .ok address => .ok (some address)
      | .error fault => .error (.unreadable fault)
  return {
    name := Text.trimmed record.name
    dataType := dataType
    address := (address.map Address.normalized).getD ""
    scope := scope
    category := Category.infer scope (address.map Address.area)
    defaultValue := record.defaultValue
    description := record.description
    vendor := record.vendor }

end PlcTags
