import PlcTags.Tag.Vocabulary

/-!
# Container formats

Tags are exchanged in two families of containers: delimited tables and XML documents.
-/

namespace PlcTags.Container

inductive Format where
  | csv
  | xml
  deriving DecidableEq, Repr, Inhabited

namespace Format

def all : List Format := [csv, xml]

def word : Format → String
  | csv => "csv"
  | xml => "xml"

/-- Every name of the family: the names of its members count. -/
def names : Format → List String
  | csv => ["csv", "tsv", "txt"]
  | xml => ["xml", "l5x", "plcopen", "tia"]

def ofWord? (word : String) : Option Format :=
  all.find? (·.word == word)

def read (text : String) : Except UnknownWord Format :=
  match all.find? (·.names.contains (looseSpelling text)) with
  | some format => .ok format
  | none => .error ⟨"container format", looseSpelling text⟩

def contentType : Format → String
  | csv => "text/csv; charset=utf-8"
  | xml => "application/xml"

/-- The name of the file that an export of a project is saved under. -/
def fileName (format : Format) (vendor : Vendor) (project : Int) : String :=
  let extension := match format, vendor with
    | csv, _ => "csv"
    | xml, .rockwell => "L5X"
    | xml, _ => "xml"
  "project-" ++ toString project ++ "-" ++ vendor.word ++ "-tags." ++ extension

/-- A blank of ASCII. -/
def isBlankByte (byte : UInt8) : Bool :=
  byte == 0x20 || byte == 0x09 || byte == 0x0A || byte == 0x0C || byte == 0x0D

/-- The bytes without the byte order mark that may stand in front of them. -/
def withoutMark : List UInt8 → List UInt8
  | 0xEF :: 0xBB :: 0xBF :: rest => rest
  | bytes => bytes

/-- The format that bytes seem to be in: XML if the first byte that is not blank opens
a tag. -/
def sniff (bytes : ByteArray) : Format :=
  match (withoutMark bytes.toList).dropWhile isBlankByte with
  | 0x3C :: _ => xml
  | _ => csv

end Format

end PlcTags.Container
