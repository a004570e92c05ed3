import PlcTags.Container.Csv
import PlcTags.Container.Format
import PlcTags.Container.L5x
import PlcTags.Container.Plcopen
import PlcTags.Container.Tia

/-!
# Containers of every vendor and format

Every vendor has a table layout and an XML document of its own.
-/

namespace PlcTags.Container

/-- The container of some tags, written at `date`. -/
def encode (date : String) (vendor : Vendor) (format : Format) (tags : List Tag) : String :=
  match format, vendor with
  | .csv, vendor => Csv.encode vendor tags
  | .xml, .rockwell => L5x.encode date vendor tags
  | .xml, .siemens => Tia.encode vendor tags
  | .xml, .beckhoff => Plcopen.encode date vendor tags

/-- The entries of a vendor's document. -/
def documentEntries (vendor : Vendor) (root : Markup.Element) : Except Error (List Entry) :=
  match vendor with
  | .rockwell => L5x.entries root
  | .siemens => Tia.entries root
  | .beckhoff => Plcopen.entries root

/-- The entries of a container. -/
def entries (vendor : Vendor) (format : Format) (bytes : ByteArray) :
    Except Error (List Entry) :=
  match text bytes with
  | .error fault => .error fault
  | .ok text =>
    match format with
    | .csv => Csv.entries text
    | .xml =>
      match Markup.parse text with
      | .error fault => .error (.ofMarkup fault)
      | .ok root => documentEntries vendor root

/-- The tags of a container. -/
def decode (vendor : Vendor) (format : Format) (bytes : ByteArray) : Except Error Decoded :=
  (entries vendor format bytes).map (Decoded.ofEntries vendor)

end PlcTags.Container
