import PlcTags.Dialect
import PlcTags.Source.Block
import PlcTags.Text.Trim

/-!
# Declarations

The statement `names AT address : TYPE := default` declares one variable for each of
its names.  Reading has two steps: `Statement.read?` finds the parts, and
`Statement.declarations` checks the names.

A text can often be taken apart in several ways.  The names end as early as they can;
at one place the word `AT` is preferred to a colon; and an address reaches as far as
it can.
-/

namespace PlcTags.Source

/-- One declared variable, its attributes as they are written. -/
structure Declaration where
  name : String
  /-- The vendor's name of the type, its words one space apart. -/
  typeName : String
  address : String
  defaultValue : String
  description : String
  block : Block
  line : Nat
  deriving DecidableEq, Repr

/-- Why a statement declares nothing. -/
inductive Unreadable where
  | noDeclaration
  | noType
  | badName (name : String)
  | blockEnded
  deriving DecidableEq, Repr

def Unreadable.message : Unreadable → String
  | noDeclaration => "expected 'name : TYPE'"
  | noType => "missing data type"
  | badName name => "'" ++ name ++ "' is not a valid name"
  | blockEnded => "declaration block ended early"

/-! ## The parts of a statement -/

/-- The parts of a statement as they are written. -/
structure Statement where
  names : List Char
  address : List Char
  typeName : List Char
  defaultValue : List Char
  deriving DecidableEq, Repr

namespace Statement

/-- The type and the default that follow the colon: the type has at least one
character and holds no colon. -/
def typeAndDefault? (text : List Char) : Option (List Char × List Char) :=
  let typeName := text.takeWhile (· != ':')
  if typeName.isEmpty then none
  else match text.dropWhile (· != ':') with
    | [] => some (typeName, [])
    | ':' :: '=' :: rest => some (typeName, Text.trim rest)
    | _ => none

/-- The ways to end an address at a colon inside `run`, the longest address first, each
with what follows the colon.  The part of the address that has been passed stands in
`before`, backwards. -/
def colonCuts (before : List Char) : List Char → List (List Char × List Char)
  | [] => []
  | c :: rest =>
    colonCuts (c :: before) rest ++
      if c = ':' ∧ before ≠ [] then [(before.reverse, rest)] else []

/-- The ways to read an address and a colon at the front of a text, the longest address
first, each with what follows the colon. -/
def addressCuts (text : List Char) : List (List Char × List Char) :=
  let run := text.takeWhile fun c => !Text.isBlank c
  let after := text.dropWhile fun c => !Text.isBlank c
  (match run, Text.trimStart after with
    | _ :: _, ':' :: rest => [(run, rest)]
    | _, _ => []) ++
  (colonCuts [] run).map fun (address, rest) => (address, rest ++ after)

/-- What follows the word `AT` and blanks, if that is what stands here. -/
def afterAt? : List Char → Option (List Char)
  | a :: t :: blank :: rest =>
    if a.toUpper == 'A' && t.toUpper == 'T' && Text.isBlank blank then
      some (Text.trimStart rest)
    else none
  | _ => none

/-- The rest of a statement whose names end here. -/
def tail? (names text : List Char) : Option Statement :=
  let addressed : Option Statement :=
    if names.head?.any Text.isWordChar then none
    else (afterAt? text).bind fun rest =>
      (addressCuts rest).findSome? fun (address, rest) =>
        (typeAndDefault? rest).map fun (typeName, defaultValue) =>
          ⟨Text.trim names.reverse, address, typeName, defaultValue⟩
  match addressed, text with
  | some statement, _ => some statement
  | none, ':' :: rest =>
    (typeAndDefault? rest).map fun (typeName, defaultValue) =>
      ⟨Text.trim names.reverse, [], typeName, defaultValue⟩
  | none, _ => none

/-- Reads a statement of which `names` has been passed, backwards. -/
def readFrom? (names : List Char) : List Char → Option Statement
  | [] => none
  | c :: rest =>
    match (if names.isEmpty then none else tail? names (c :: rest)) with
    | some statement => some statement
    | none => readFrom? (c :: names) rest

/-- The parts of a statement, for a text without blanks at its ends. -/
def read? (text : List Char) : Option Statement :=
  readFrom? [] text

/-- The text between apostrophes, in which a dollar sign before an apostrophe is
dropped. -/
def unescape : List Char → List Char
  | '$' :: '\'' :: rest => '\'' :: unescape rest
  | c :: rest => c :: unescape rest
  | [] => []

/-- The default without the apostrophes around a literal. -/
def unquote (text : List Char) : List Char :=
  match text with
  | '\'' :: rest =>
    if rest.getLast? = some '\'' then unescape rest.dropLast else text
  | _ => text

/-- A name of the statement: an identifier or, where the dialect quotes names, a text
between double quotes that is not blank. -/
def name? (rules : CommentRules) (text : List Char) : Option (List Char) :=
  let inner := text.tail.dropLast
  if rules.quotedNames && text.length ≥ 2 && text.head? == some '"' &&
      text.getLast? == some '"' then
    if Text.allBlank inner then none else some inner
  else if Vendor.isIdentifier text then some text
  else none

/-- The names of the statement, or the first that is none. -/
def names? (rules : CommentRules) : List (List Char) → Except Unreadable (List String)
  | [] => .ok []
  | text :: rest =>
    match name? rules (Text.trim text) with
    | none => .error (.badName (String.ofList (Text.trim text)))
    | some name => (String.ofList name :: ·) <$> names? rules rest

/-- The variables that the statement declares. -/
def declarations (rules : CommentRules) (statement : Statement) (block : Block)
    (comment : String) (line : Nat) : Except Unreadable (List Declaration) :=
  let typeName := Text.squeeze statement.typeName
  if typeName.isEmpty then .error .noType
  else do
    let names ← names? rules (statement.names.splitOn ',')
    return names.map fun name =>
      { name
        typeName := String.ofList typeName
        address := String.ofList statement.address
        defaultValue := String.ofList (unquote statement.defaultValue)
        description := comment
        block
        line }

end Statement

/-- The variables that a text without blanks at its ends declares. -/
def readDeclarations (rules : CommentRules) (text : List Char) (block : Block)
    (comment : String) (line : Nat) : Except Unreadable (List Declaration) :=
  match Statement.read? text with
  | none => .error .noDeclaration
  | some statement => statement.declarations rules block comment line

end PlcTags.Source
