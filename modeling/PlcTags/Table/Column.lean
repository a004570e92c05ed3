import PlcTags.Table.Record
import PlcTags.Tag.Vocabulary

/-!
# Columns of a tag table

The columns of a tag table are recognised by their headers, whatever their order.  What
a vendor writes is a layout: the delimiter, the lines before the header, and the columns
with their headers.
-/

namespace PlcTags.Table

/-- What the cells of a column mean. -/
inductive Column where
  /-- What the record is: a tag, an alias, a comment. -/
  | recordKind
  | program
  | path
  | name
  | description
  | dataType
  | address
  /-- A list such as `(Usage := Input, Default := 0)`. -/
  | attributes
  | default
  | usage
  deriving DecidableEq, Repr

/-! ## Headers -/

/-- A header without everything but its letters and digits, in lower case. -/
def headerKey (header : String) : String :=
  String.ofList ((header.toList.filter Char.isAlphanum).map Char.toLower)

/-- The column of a header.  In tables that tell the kind of each record, `type` is that
kind and `scope` the program. -/
def columnOf? (hasRecordKind : Bool) (key : String) : Option Column :=
  match key with
  | "name" | "tagname" | "tag" | "symbol" | "variable" => some .name
  | "datatype" | "datatypename" => some .dataType
  | "type" => if hasRecordKind then some .recordKind else some .dataType
  | "address" | "specifier" | "logicaladdress" | "ioaddress" | "location" => some .address
  | "description" | "comment" => some .description
  | "default" | "defaultvalue" | "initvalue" | "initialvalue" | "startvalue" => some .default
  | "scope" => if hasRecordKind then some .program else some .usage
  | "usage" => some .usage
  | "attributes" => some .attributes
  | "path" => some .path
  | _ => none

/-- The columns of a header record.  A table with both a `type` and a `datatype` tells
the kind of its records. -/
def columnsOf (headers : List String) : List (Option Column) :=
  let keys := headers.map headerKey
  keys.map (columnOf? (keys.contains "type" && keys.contains "datatype"))

/-- The cell of a record in the first column of a kind, if the table has one; a record
that is too short has an empty cell there. -/
def cell? (columns : List (Option Column)) (fields : List String) (column : Column) :
    Option String :=
  (columns.findIdx? (· == some column)).map fun index => (fields[index]?).getD ""

/-! ## Layouts -/

structure Layout where
  delimiter : Char
  preamble : List (List String)
  columns : List (Column × String)
  deriving Repr

/-- The table that a vendor's tools read. -/
def layoutOf : Vendor → Layout
  | .rockwell =>
    { delimiter := ','
      preamble := [["remark", "CSV-Import-Export"], ["remark", "Exported by tagsync"], ["0.3"]]
      columns := [(.recordKind, "TYPE"), (.program, "SCOPE"), (.name, "NAME"),
        (.description, "DESCRIPTION"), (.dataType, "DATATYPE"), (.address, "SPECIFIER"),
        (.attributes, "ATTRIBUTES")] }
  | .siemens =>
    { delimiter := ','
      preamble := []
      columns := [(.name, "Name"), (.path, "Path"), (.dataType, "Data Type"),
        (.address, "Logical Address"), (.description, "Comment"), (.default, "Default Value"),
        (.usage, "Usage")] }
  | .beckhoff =>
    { delimiter := ';'
      preamble := []
      columns := [(.name, "Name"), (.dataType, "Type"), (.address, "Address"),
        (.default, "InitValue"), (.description, "Comment"), (.usage, "Scope")] }

end PlcTags.Table
