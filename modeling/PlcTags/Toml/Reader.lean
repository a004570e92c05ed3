import PlcTags.Toml.Scalar
import PlcTags.Toml.Table
import PlcTags.Toml.Text

/-!
# Reading TOML

A document is read statement by statement: headers, which open tables, and assignments
to names in the table opened last.
-/

namespace PlcTags.Toml

/-! ## Repetition -/

/-- Reads entries one after the other until `finish` takes what is left.  An entry that
takes nothing away ends the reading without a result. -/
def repeatUntil {σ β : Type} (finish : σ → List Char → Option β)
    (entry : σ → List Char → Option (σ × List Char)) (state : σ) (text : List Char) : Option β :=
  match finish state text with
  | some result => some result
  | none =>
    match entry state text with
    | none => none
    | some (state, rest) =>
      if rest.length < text.length then repeatUntil finish entry state rest else none
  termination_by text.length

/-! ## Blanks and comments -/

/-- What follows the blanks, the comment and the break at the end of a line. -/
def lineTail? (text : List Char) : Option (List Char) :=
  let rest := match skipBlanks text with
    | '#' :: rest => rest.dropWhile isPlain
    | rest => rest
  if rest.isEmpty then some [] else lineBreak? rest

/-- What follows blanks, comments and line breaks. -/
def skipGaps (comment : Bool) : List Char → Option (List Char)
  | [] => some []
  | '\n' :: rest => skipGaps false rest
  | '\r' :: '\n' :: rest => skipGaps false rest
  | c :: rest =>
    if comment then if isPlain c then skipGaps true rest else none
    else if isBlank c then skipGaps false rest
    else if c == '#' then skipGaps true rest
    else some (c :: rest)

/-! ## Names -/

def isNameChar (c : Char) : Bool :=
  c.isAlphanum || c == '_' || c == '-'

/-- One part of a name: bare, or a string on one line. -/
def namePart? : List Char → Option (String × List Char)
  | '"' :: rest => (quoted rest).map fun (name, rest) => (String.ofList name, rest)
  | '\'' :: rest => (verbatim rest).map fun (name, rest) => (String.ofList name, rest)
  | text =>
    let name := text.takeWhile isNameChar
    if name.isEmpty then none else some (String.ofList name, text.dropWhile isNameChar)

/-- A name with its path: parts with dots between them. -/
def name? (text : List Char) : Option ((List String × String) × List Char) := do
  let (first, rest) ← namePart? (skipBlanks text)
  repeatUntil
    (fun state rest => match skipBlanks rest with
      | '.' :: _ => none
      | rest => some (state, rest))
    (fun (path, last) rest =>
      (namePart? (skipBlanks (skipBlanks rest).tail)).map fun (next, rest) =>
        ((path ++ [last], next), rest))
    ([], first) rest

/-! ## Values -/

/-- The items of a list after its bracket. -/
def items? (value? : List Char → Option (Json × List Char)) (text : List Char) :
    Option (Json × List Char) :=
  repeatUntil
    (fun items text => match skipGaps false text with
      | some (']' :: rest) => some (.array items, rest)
      | _ => none)
    (fun items text => do
      let text ← skipGaps false text
      let (item, rest) ← value? text
      let rest ← skipGaps false rest
      match rest with
      | ',' :: rest => return (items ++ [item], rest)
      | ']' :: _ => return (items ++ [item], rest)
      | _ => none)
    [] text

/-- An assignment: a name, an equals sign and a value. -/
def assignment? (value? : List Char → Option (Json × List Char)) (text : List Char) :
    Option ((List String × String) × Json × List Char) := do
  let (name, rest) ← name? text
  match skipBlanks rest with
  | '=' :: rest =>
    let (value, rest) ← value? (skipBlanks rest)
    return (name, value, rest)
  | _ => none

/-- The members of a table on one line, after its brace. -/
def inlineMembers? (value? : List Char → Option (Json × List Char)) (text : List Char) :
    Option (Json × List Char) :=
  match skipBlanks text with
  | '\x7d' :: rest => some (.object [], rest)
  | text =>
    repeatUntil
      (fun (state : Members × Bool) text => match state with
        | (members, true) => some (.object (membersToJson members), text)
        | (_, false) => none)
      (fun (members, _) text => do
        let ((path, name), value, rest) ← assignment? value? text
        let members ← assign path name value ⟨.opened, members⟩
        match skipBlanks rest with
        | ',' :: rest => return ((members, false), rest)
        | '\x7d' :: rest => return ((members, true), rest)
        | _ => none)
      ([], false) text

/-- How deep lists and inline tables may be nested. -/
def depthLimit : Nat := 80

/-- The value in front of a text, nested at most so deep. -/
def value? : Nat → List Char → Option (Json × List Char)
  | 0, _ => none
  | depth + 1, text =>
    match text with
    | '[' :: rest => items? (value? depth) rest
    | '\x7b' :: rest => inlineMembers? (value? depth) rest
    | '"' :: _ => (string? text).map fun (content, rest) => (.string content, rest)
    | '\'' :: _ => (string? text).map fun (content, rest) => (.string content, rest)
    | _ => scalar? text

/-! ## Documents -/

/-- What has been read of a document: its tables, and the path to the open one. -/
structure Reading where
  members : Members := []
  path : List String := []

/-- One line: a header, an assignment or neither. -/
def statement? (reading : Reading) (text : List Char) : Option (Reading × List Char) :=
  match skipBlanks text with
  | '[' :: '[' :: rest => do
    let ((path, name), rest) ← name? rest
    match skipBlanks rest with
    | ']' :: ']' :: rest =>
      let members ← openEntry path name ⟨.opened, reading.members⟩
      return (⟨members, path ++ [name]⟩, ← lineTail? rest)
    | _ => none
  | '[' :: rest => do
    let ((path, name), rest) ← name? rest
    match skipBlanks rest with
    | ']' :: rest =>
      let members ← openTable path name ⟨.opened, reading.members⟩
      return (⟨members, path ++ [name]⟩, ← lineTail? rest)
    | _ => none
  | text =>
    match lineTail? text with
    | some rest => some (reading, rest)
    | none => do
      let ((path, name), value, rest) ← assignment? (value? depthLimit) text
      let members ← within false (assign path name value) reading.path ⟨.opened, reading.members⟩
      return ({ reading with members }, ← lineTail? rest)

/-- The content of a document. -/
def parse? (text : String) : Option Json :=
  let text := match text.toList with
    | '\uFEFF' :: rest => rest
    | text => text
  repeatUntil
    (fun (reading : Reading) text =>
      if text.isEmpty then some (.object (membersToJson reading.members)) else none)
    statement? {} text

end PlcTags.Toml
