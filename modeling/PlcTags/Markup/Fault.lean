import PlcTags.Text.Quoted

/-!
# Faults of a markup text

What keeps a text from being a document, each with its wording.  Positions count
bytes: those of an attribute from the name of its element on, those of an entity from
the beginning of the run or attribute value that it stands in.
-/

namespace PlcTags.Markup

/-- What was being read when the text ended. -/
inductive Section where
  | bang
  | comment
  | cdata
  | doctype
  | instruction
  | element
  deriving DecidableEq, Repr

def Section.name : Section → String
  | bang => "Bang"
  | comment => "Comment"
  | cdata => "CData"
  | doctype => "DOCTYPE"
  | instruction => "XmlDecl"
  | element => "Element"

inductive Radix where
  | decimal
  | hexadecimal
  deriving DecidableEq, Repr

def Radix.name : Radix → String
  | decimal => "decimal"
  | hexadecimal => "hexadecimal"

inductive Fault where
  | unexpectedEnd (reading : Section)
  /-- An exclamation mark that begins nothing known. -/
  | unknownBang (byte : Char)
  | emptyDoctype
  | mismatchedEnd (expected found : List Char)
  | missingEquals (position : Nat)
  | missingValue (position : Nat)
  | unquotedValue (position : Nat)
  | missingQuote (position : Nat) (quote : Char)
  | repeatedAttribute (position previous : Nat)
  | longNumber (radix : Radix)
  | badDigit (radix : Radix) (byte : Char)
  | nullCharacter (start stop : Nat)
  | noCharacter (code : Nat)
  | unknownEntity (start stop : Nat) (name : List Char)
  | unfinishedEntity (start stop : Nat)
  deriving DecidableEq, Repr

namespace Fault

/-- Bytes from `start` up to `stop`. -/
def range (start stop : Nat) : String :=
  toString start ++ ".." ++ toString stop

def escaping (start stop : Nat) (what : String) : String :=
  "Error while escaping character at range " ++ range start stop ++ ": " ++ what

def atPosition (position : Nat) (what : String) : String :=
  "position " ++ toString position ++ ": " ++ what

def message : Fault → String
  | unexpectedEnd reading => "Unexpected EOF during reading " ++ reading.name
  | unknownBang byte =>
    "Only Comment (`--`), CDATA (`[CDATA[`) and DOCTYPE (`DOCTYPE`) nodes can start with a '!', " ++
      "but symbol `" ++ String.ofList [byte] ++ "` found"
  | emptyDoctype => "DOCTYPE declaration must not be empty"
  | mismatchedEnd expected found =>
    "Expecting </" ++ String.ofList expected ++ "> found </" ++ String.ofList found ++ ">"
  | missingEquals position =>
    atPosition position "attribute key must be directly followed by `=` or space"
  | missingValue position => atPosition position "`=` must be followed by an attribute value"
  | unquotedValue position =>
    atPosition position "attribute value must be enclosed in `\"` or `'`"
  | missingQuote position quote =>
    atPosition position
      ("missing closing quote `" ++ String.ofList [quote] ++ "` in attribute value")
  | repeatedAttribute position previous =>
    atPosition position
      ("duplicated attribute, previous declaration at position " ++ toString previous)
  | longNumber .decimal => "Cannot convert decimal to utf8"
  | longNumber .hexadecimal => "Cannot convert hexadecimal to utf8"
  | badDigit radix byte =>
    "'" ++ String.ofList [byte] ++ "' is not a valid " ++ radix.name ++ " character"
  | nullCharacter start stop => escaping start stop "Null character entity not allowed"
  | noCharacter code => "'" ++ toString code ++ "' is not a valid codepoint"
  | unknownEntity start stop name =>
    escaping start stop ("Unrecognized escape symbol: " ++ String.ofList (Text.quoted name))
  | unfinishedEntity start stop => escaping start stop "Cannot find ';' after '&'"

end Fault

end PlcTags.Markup
