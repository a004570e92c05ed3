/-!
# Diagnostics

Problems with single tags and lines travel as data beside the tags that were read;
only what makes a whole input unusable is an error.
-/

namespace PlcTags

inductive Severity where
  | error
  | warning
  deriving DecidableEq, Repr

namespace Severity

def word : Severity → String
  | error => "error"
  | warning => "warning"

def ofWord? (word : String) : Option Severity :=
  [error, warning].find? (·.word == word)

end Severity

namespace Diagnostic

/-- What kind of problem a diagnostic reports. -/
inductive Code where
  /-- A text that is not a source of declarations at all. -/
  | unparseable
  /-- A declaration that was not, or not completely, read. -/
  | partialDeclaration
  | invalidName
  /-- An input or output without an address. -/
  | addressRequired
  | invalidAddress
  | untranslatableType
  /-- An address that cannot hold the declared type. -/
  | incompatibleAddress
  /-- A name that stands twice in one batch. -/
  | duplicateName
  /-- A tag that the store refused. -/
  | storeConflict
  deriving DecidableEq, Repr

namespace Code

def all : List Code :=
  [unparseable, partialDeclaration, invalidName, addressRequired, invalidAddress,
    untranslatableType, incompatibleAddress, duplicateName, storeConflict]

def word : Code → String
  | unparseable => "unparseable"
  | partialDeclaration => "partial_declaration"
  | invalidName => "invalid_name"
  | addressRequired => "address_required"
  | invalidAddress => "invalid_address"
  | untranslatableType => "untranslatable_type"
  | incompatibleAddress => "incompatible_address"
  | duplicateName => "duplicate_name"
  | storeConflict => "store_conflict"

def ofWord? (word : String) : Option Code :=
  all.find? (·.word == word)

end Code

end Diagnostic

/-- A problem, with the line or row and the tag it belongs to where they are known. -/
structure Diagnostic where
  severity : Severity
  code : Diagnostic.Code
  message : String
  line : Option Nat := none
  tag : Option String := none
  deriving DecidableEq, Repr

namespace Diagnostic

def isError (diagnostic : Diagnostic) : Bool :=
  diagnostic.severity == .error

/-- The line and the tag stand before the message, each followed by a colon. -/
def render (diagnostic : Diagnostic) : String :=
  (match diagnostic.line with
    | some line => "line " ++ toString line ++ ": "
    | none => "") ++
  (match diagnostic.tag with
    | some tag => tag ++ ": "
    | none => "") ++
  diagnostic.message

end Diagnostic

end PlcTags
