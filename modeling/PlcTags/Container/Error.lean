import PlcTags.Diagnostic
import PlcTags.Markup.Element
import PlcTags.Text.Utf8

/-!
# Malformed containers

A container that breaks the rules of its format is refused as a whole, with the place
and the cause.
-/

namespace PlcTags.Container

/-- Where in a container a problem was found. -/
inductive Location where
  | document
  /-- A line of a table, from 1. -/
  | row (line : Nat)
  /-- The path of an element. -/
  | element (path : String)
  /-- A byte of a document. -/
  | offset (byte : Nat)
  deriving DecidableEq, Repr

def Location.render : Location → String
  | document => "document"
  | row line => "row " ++ toString line
  | element path => "element " ++ path
  | offset byte => "byte " ++ toString byte

/-- What is wrong with a container. -/
inductive Cause where
  | notText (fault : Text.Utf8.Fault)
  | noHeader
  | missingColumn (label : String)
  | emptyName
  | markup (fault : Markup.Error)
  /-- A root element other than the one that the format has. -/
  | unexpectedRoot (expected : String)
  | missingElement (name : String)
  /-- A tag, or what the format calls one, lacks a part. -/
  | incomplete (kind part : String)
  deriving DecidableEq, Repr

def Cause.message : Cause → String
  | notText fault => "not UTF-8: " ++ fault.message
  | noHeader => "no header row"
  | missingColumn label => "missing required column '" ++ label ++ "'"
  | emptyName => "empty tag name"
  | markup fault => fault.message
  | unexpectedRoot expected => "expected " ++ expected ++ " root"
  | missingElement name => "missing <" ++ name ++ ">"
  | incomplete kind part => kind ++ " without " ++ part

structure Error where
  location : Location
  cause : Cause
  deriving DecidableEq, Repr

namespace Error

def message (fault : Error) : String :=
  "malformed container at " ++ fault.location.render ++ ": " ++ fault.cause.message

/-- The diagnostic of a container that was refused; a row is its line. -/
def diagnostic (fault : Error) : Diagnostic :=
  { severity := .error, code := .unparseable, message := fault.message,
    line := match fault.location with
      | .row line => some line
      | .document | .element _ | .offset _ => none }

/-- A document that is not well-formed. -/
def ofMarkup (fault : Markup.Error) : Error where
  location := match fault with
    | .fault offset _ => .offset offset
    | .secondRoot offset => .offset offset
    | .unclosed _ | .noRoot => .document
  cause := .markup fault

end Error

/-- The text of a container. -/
def text (bytes : ByteArray) : Except Error String :=
  match Text.Utf8.decode bytes with
  | .ok text => .ok text
  | .error fault => .error ⟨.document, .notText fault⟩

end PlcTags.Container
