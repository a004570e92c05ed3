import PlcTags.Text.Trim

/-!
# Records of a delimited table

A table is a text of records, and a record a line of fields between delimiters.  A field
that begins with a double quote may hold anything up to the closing quote, and there a
quote is written twice.  A line feed, a carriage return or both end a record; empty
lines are no records.  Fields lose the blanks at their ends.

A record is counted to the line on which the search for it began: blank lines that were
passed over on the way, and the line feed that completes the end of the record before,
do not count for it.
-/

namespace PlcTags.Table

structure Record where
  /-- The line of the record, from 1. -/
  line : Nat
  fields : List String
  deriving DecidableEq, Repr

/-! ## Reading -/

/-- What the next character belongs to. -/
inductive Place where
  | recordStart
  | fieldStart
  | bare
  | quoted
  /-- Behind a quote inside quotes. -/
  | quoteSeen
  deriving DecidableEq, Repr

/-- What a character does. -/
inductive Action where
  | skip
  | add
  | endField
  | endRecord
  deriving DecidableEq, Repr

def isLineEnd (c : Char) : Bool :=
  c == '\n' || c == '\r'

/-- A character outside of quotes, where it neither begins a field nor a record. -/
def readBare (delimiter c : Char) : Place × Action :=
  if c == delimiter then (.fieldStart, .endField)
  else if isLineEnd c then (.recordStart, .endRecord)
  else (.bare, .add)

def readFieldStart (delimiter c : Char) : Place × Action :=
  if c == '"' then (.quoted, .skip) else readBare delimiter c

def readPlace (delimiter : Char) (place : Place) (c : Char) : Place × Action :=
  match place with
  | .recordStart => if isLineEnd c then (.recordStart, .skip) else readFieldStart delimiter c
  | .fieldStart => readFieldStart delimiter c
  | .bare => readBare delimiter c
  | .quoted => if c == '"' then (.quoteSeen, .skip) else (.quoted, .add)
  | .quoteSeen => if c == '"' then (.quoted, .add) else readBare delimiter c

/-- A record that is being read, its fields and the characters of the last one
backwards. -/
structure Draft where
  line : Nat
  /-- The line feeds that have been read in the whole text. -/
  lineFeeds : Nat
  fields : List (List Char)
  field : List Char

namespace Draft

/-- The draft of the record after `lineFeeds` line feeds. -/
def start (lineFeeds : Nat) : Draft :=
  ⟨lineFeeds + 1, lineFeeds, [], []⟩

def endField (draft : Draft) : Draft :=
  { draft with fields := draft.field.reverse :: draft.fields, field := [] }

def finish (draft : Draft) : Record :=
  ⟨draft.line, draft.endField.fields.reverse.map fun field => String.ofList (Text.trim field)⟩

/-- Counts a character that is a line feed. -/
def count (draft : Draft) (c : Char) : Draft :=
  if c = '\n' then { draft with lineFeeds := draft.lineFeeds + 1 } else draft

end Draft

/-- The records of the rest of a text. -/
def recordsFrom (delimiter : Char) (place : Place) (draft : Draft) : List Char → List Record
  | [] => if place = .recordStart then [] else [draft.finish]
  | c :: rest =>
    let read := readPlace delimiter place c
    let counted := draft.count c
    match read.2 with
    | .skip => recordsFrom delimiter read.1 counted rest
    | .add => recordsFrom delimiter read.1 { counted with field := c :: draft.field } rest
    | .endField => recordsFrom delimiter read.1 counted.endField rest
    | .endRecord => draft.finish :: recordsFrom delimiter read.1 (.start counted.lineFeeds) rest

/-- The records of a text. -/
def records (delimiter : Char) (text : List Char) : List Record :=
  recordsFrom delimiter .recordStart (.start 0) text

/-! ## Writing -/

/-- Whether a field must stand between quotes: it holds a character that means
something. -/
def needsQuotes (delimiter : Char) (field : List Char) : Bool :=
  field.any fun c => c == delimiter || c == '"' || isLineEnd c

def doubleQuotes (field : List Char) : List Char :=
  field.flatMap fun c => if c = '"' then ['"', '"'] else [c]

def writeQuoted (field : List Char) : List Char :=
  '"' :: doubleQuotes field ++ ['"']

def writeField (delimiter : Char) (field : List Char) : List Char :=
  if needsQuotes delimiter field then writeQuoted field else field

/-- A record on a line of its own.  A record of one empty field is written with quotes,
so that its line is not empty. -/
def writeRecord (delimiter : Char) (fields : List (List Char)) : List Char :=
  (match fields with
    | [[]] => writeQuoted []
    | fields => [delimiter].intercalate (fields.map (writeField delimiter))) ++ ['\n']

def writeRecords (delimiter : Char) (records : List (List (List Char))) : List Char :=
  records.flatMap (writeRecord delimiter)

end PlcTags.Table
