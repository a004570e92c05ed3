import PlcTags.Tag.Prepare

/-!
# Entries of containers

An entry is one tag of a container, its fields as they are written.  An entry of an
unknown type gives no tag, only a problem; an unknown usage counts as local.  Addresses
are not checked here: an address that the vendor does not have stays as it is.
-/

namespace PlcTags.Container

structure Entry where
  name : String
  typeName : String
  address : String
  scope : String
  defaultValue : String
  description : String
  /-- The line of the entry, in a table. -/
  line : Option Nat
  deriving DecidableEq, Repr

/-- The tags of a container and the problems of its entries. -/
structure Decoded where
  tags : List Tag := []
  issues : List Diagnostic := []
  deriving Repr

namespace Entry

def trimmedName (entry : Entry) : String :=
  Text.trimmed entry.name

def issue (entry : Entry) (severity : Severity) (message : String) : Diagnostic :=
  { severity, code := .untranslatableType, message, line := entry.line,
    tag := some entry.trimmedName }

/-- The scope of the entry: local without a usage, and local for a usage that no one
knows, which is reported. -/
def readScope (entry : Entry) (vendor : Vendor) : Scope × List Diagnostic :=
  if Text.isAllBlank entry.scope then (.local, [])
  else match vendor.readScope? entry.scope with
    | some scope => (scope, [])
    | none =>
      (.local, [entry.issue .warning
        ("unknown usage '" ++ Text.trimmed entry.scope ++ "', treated as local")])

/-- The tag of the entry, if its type is known, and its problems. -/
def read (entry : Entry) (vendor : Vendor) : Option Tag × List Diagnostic :=
  match vendor.readType? entry.typeName with
  | none =>
    (none, [entry.issue .error
      (vendor.word ++ " has no data type '" ++ Text.trimmed entry.typeName ++ "'")])
  | some dataType =>
    let (scope, issues) := entry.readScope vendor
    let address := vendor.addressFromContainer entry.address
    let area := (Address.parse vendor address).toOption.map Address.area
    (some
      { name := entry.trimmedName
        dataType
        address
        scope
        category := Category.infer scope area
        defaultValue := Text.trimmed entry.defaultValue
        description := Text.trimmed entry.description
        vendor }, issues)

end Entry

/-- What the entries of a container amount to. -/
def Decoded.ofEntries (vendor : Vendor) (entries : List Entry) : Decoded where
  tags := entries.filterMap fun entry => (entry.read vendor).1
  issues := entries.flatMap fun entry => (entry.read vendor).2

end PlcTags.Container
