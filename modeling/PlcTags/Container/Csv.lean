import PlcTags.Container.Entry
import PlcTags.Container.Error
import PlcTags.Table.Attribute
import PlcTags.Table.Column
import PlcTags.Table.Preamble

/-!
# Tag tables

Tags as a delimited table.  Each vendor's table is written in that vendor's layout; any
table whose headers name the columns is read.
-/

namespace PlcTags.Container.Csv

open Table (Column)

/-! ## Writing -/

/-- The attributes of a tag: its usage and, unless that is empty, its default. -/
def attributesCell (tag : Tag) : String :=
  "(Usage := " ++ tag.vendor.scopeWord tag.scope ++
    (if tag.defaultValue.isEmpty then ""
      else ", Default := " ++ String.ofList (Table.writeValue tag.defaultValue.toList)) ++ ")"

/-- The cell of a tag in a column of a vendor's table. -/
def cell (vendor : Vendor) (tag : Tag) : Column → String
  | .recordKind => "TAG"
  | .program => ""
  | .path => "Default tag table"
  | .name => tag.name
  | .description => tag.description
  | .dataType => vendor.typeName tag.dataType
  | .address => vendor.containerAddress tag.address
  | .attributes => attributesCell { tag with vendor }
  | .default => tag.defaultValue
  | .usage => vendor.scopeWord tag.scope

/-- The records of a table: the lines before the header, the header, and one record for
each tag. -/
def rows (vendor : Vendor) (tags : List Tag) : List (List String) :=
  let layout := Table.layoutOf vendor
  layout.preamble ++ layout.columns.map Prod.snd ::
    tags.map fun tag => layout.columns.map fun (column, _) => cell vendor tag column

def encode (vendor : Vendor) (tags : List Tag) : String :=
  String.ofList (Table.writeRecords (Table.layoutOf vendor).delimiter
    ((rows vendor tags).map (·.map String.toList)))

/-! ## Reading -/

/-- The columns that every table must have, with what they are called. -/
def requiredColumns : List (Column × String) :=
  [(.name, "name"), (.dataType, "data type")]

/-- Whether a record describes a tag: it is not empty, and its kind, if the table tells
the kind, is a tag or an alias. -/
def isTagRecord (columns : List (Option Column)) (fields : List String) : Bool :=
  !fields.all String.isEmpty &&
    match Table.cell? columns fields .recordKind with
    | some kind => ["tag", "alias"].contains kind.toLower
    | none => true

/-- The value of an attribute, whatever the case of its name. -/
def attribute? (attributes : List (String × String)) (name : String) : Option String :=
  (attributes.find? (·.1.toLower == name.toLower)).map (·.2)

/-- The entry of a record of line `row`; it must have a name. -/
def entryOf (columns : List (Option Column)) (row : Nat) (fields : List String) :
    Except Error Entry :=
  let cell (column : Column) : String := (Table.cell? columns fields column).getD ""
  let attributes := Table.attributesOf (cell .attributes).toList
  let cellOrAttribute (column : Column) (name : String) : String :=
    if (cell column).isEmpty then (attribute? attributes name).getD "" else cell column
  if (cell .name).isEmpty then .error ⟨.row row, .emptyName⟩
  else .ok
    { name := cell .name
      typeName := cell .dataType
      address := cell .address
      scope := cellOrAttribute .usage "Usage"
      defaultValue := cellOrAttribute .default "Default"
      description := cell .description
      line := some row }

/-- The entries of the records after a header on line `headerLine`. -/
def entriesOf (columns : List (Option Column)) (headerLine : Nat) (records : List Table.Record) :
    Except Error (List Entry) :=
  (records.filter fun record => isTagRecord columns record.fields).mapM fun record =>
    entryOf columns (record.line + headerLine - 1) record.fields

/-- A byte order mark at the beginning of a text is not part of its first field. -/
def withoutMark : List Char → List Char
  | c :: rest => if c.toNat = 0xFEFF then rest else c :: rest
  | [] => []

/-- The entries of a table. -/
def entries (text : String) : Except Error (List Entry) :=
  match Table.header? (Markup.withoutMarks text.toList) with
  | none => .error ⟨.document, .noHeader⟩
  | some (headerLine, body) =>
    let delimiter := Table.delimiterOf (Table.cutLine body).1
    match Table.records delimiter (withoutMark body) with
    | [] => .error ⟨.document, .noHeader⟩
    | header :: records =>
      let columns := Table.columnsOf header.fields
      match requiredColumns.find? fun (column, _) => !columns.contains (some column) with
      | some (_, label) => .error ⟨.row headerLine, .missingColumn label⟩
      | none => entriesOf columns headerLine records

end PlcTags.Container.Csv
