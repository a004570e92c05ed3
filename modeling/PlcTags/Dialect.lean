import PlcTags.Tag.Basic
import PlcTags.Text.Classes

/-!
# Dialects

What each vendor calls things: the names of its data types, the words of its scopes,
the names it admits for tags, the comments of its source texts, and how an address
is spelled in its containers.

A table of names may hold several names for one value; the first is the one that is
written, and all are read.
-/

namespace PlcTags

/-- The rules of comments and quotes in a source text.  Comments that run to the end
of the line begin with two slashes in every dialect. -/
structure CommentRules where
  /-- The two characters that open a comment of any length. -/
  blockOpen : Char × Char
  blockClose : Char × Char
  /-- Names may stand between double quotes. -/
  quotedNames : Bool
  /-- Text between braces is skipped. -/
  braces : Bool
  deriving Repr

namespace Vendor

/-! ## Types -/

def typeNames : Vendor → List (String × DataType)
  | rockwell =>
    [("BOOL", .bool), ("INT", .int16), ("DINT", .int32), ("REAL", .real), ("STRING", .string),
      ("TIMER", .timer), ("COUNTER", .counter), ("BIT", .bool)]
  | siemens =>
    [("Bool", .bool), ("Int", .int16), ("DInt", .int32), ("Real", .real), ("String", .string),
      ("IEC_TIMER", .timer), ("IEC_COUNTER", .counter), ("TON_TIME", .timer), ("TIMER", .timer),
      ("CTU_INT", .counter), ("COUNTER", .counter)]
  | beckhoff =>
    [("BOOL", .bool), ("INT", .int16), ("DINT", .int32), ("REAL", .real), ("STRING", .string),
      ("TON", .timer), ("CTU", .counter), ("TOF", .timer), ("TP", .timer), ("CTD", .counter),
      ("CTUD", .counter)]

/-- The name under which a type is written. -/
def typeName (vendor : Vendor) (dataType : DataType) : String :=
  match vendor.typeNames.find? (·.2 == dataType) with
  | some (name, _) => name
  | none => dataType.word

/-- The type name without a length in parentheses or brackets. -/
def withoutLength (name : String) : String :=
  String.ofList (Text.trim ((Text.trim name.toList).takeWhile fun c => c != '(' && c != '['))

/-- The type that a name stands for; case, blanks around the name and a length do not
count. -/
def readType? (vendor : Vendor) (name : String) : Option DataType :=
  (vendor.typeNames.find? (·.1.toLower == (withoutLength name).toLower)).map (·.2)

/-! ## Scopes -/

def scopeWords : Vendor → List (String × Scope)
  | rockwell =>
    [("Input", .input), ("Output", .output), ("Local", .local), ("Public", .global),
      ("InOut", .local)]
  | siemens =>
    [("Input", .input), ("Output", .output), ("Static", .local), ("Global", .global),
      ("Temp", .local), ("InOut", .local)]
  | beckhoff =>
    [("VAR_INPUT", .input), ("VAR_OUTPUT", .output), ("VAR", .local), ("VAR_GLOBAL", .global),
      ("VAR_IN_OUT", .local), ("VAR_TEMP", .local)]

/-- The word under which a scope is written. -/
def scopeWord (vendor : Vendor) (scope : Scope) : String :=
  match vendor.scopeWords.find? (·.2 == scope) with
  | some (word, _) => word
  | none => scope.word

/-- The scope that a word stands for: a word of the vendor, or else one of the words
that every vendor shares. -/
def readScope? (vendor : Vendor) (word : String) : Option Scope :=
  match vendor.scopeWords.find? (·.1.toLower == looseSpelling word) with
  | some (_, scope) => some scope
  | none => (Scope.read word).toOption

/-! ## Names -/

/-- A letter or underscore, then letters, digits and underscores, all ASCII. -/
def isIdentifier : List Char → Bool
  | [] => false
  | c :: rest => (c.isAlpha || c == '_') && rest.all fun c => c.isAlphanum || c == '_'

/-- Two underscores in a row. -/
def hasDoubleUnderscore : List Char → Bool
  | '_' :: '_' :: _ => true
  | _ :: rest => hasDoubleUnderscore rest
  | [] => false

/-- Whether the vendor admits a tag of this name.  Rockwell names are identifiers of at
most 40 characters without a double or final underscore; Siemens names are any text of
at most 128 characters that is not blank and has no double quote or control character;
Beckhoff names are identifiers. -/
def admitsName (vendor : Vendor) (name : String) : Bool :=
  let text := name.toList
  match vendor with
  | rockwell =>
    isIdentifier text && text.length ≤ 40 && !hasDoubleUnderscore text &&
      text.getLast? != some '_'
  | siemens =>
    !Text.allBlank text && text.length ≤ 128 && text.all fun c => c != '"' && !Text.isControl c
  | beckhoff => isIdentifier text

/-! ## Source texts -/

def commentRules : Vendor → CommentRules
  | rockwell => ⟨('/', '*'), ('*', '/'), false, false⟩
  | siemens => ⟨('(', '*'), ('*', ')'), true, true⟩
  | beckhoff => ⟨('(', '*'), ('*', ')'), false, true⟩

/-! ## Addresses in containers -/

/-- An address as it is written into a container: Siemens containers have a percent
sign in front of every address. -/
def containerAddress (vendor : Vendor) (address : String) : String :=
  match vendor with
  | siemens =>
    match address.toList with
    | [] => address
    | '%' :: _ => address
    | text => String.ofList ('%' :: text)
  | rockwell | beckhoff => address

/-- An address as it was before it was written into a container. -/
def addressFromContainer (vendor : Vendor) (text : String) : String :=
  match vendor with
  | siemens => String.ofList ((Text.trim text.toList).dropWhile (· == '%'))
  | rockwell | beckhoff => Text.trimmed text

end Vendor

end PlcTags
