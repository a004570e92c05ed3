import PlcTags.Json.Reader
import PlcTags.Text.Utf8

/-!
# Encoded texts of requests

Paths and queries write bytes as a percent sign and two hexadecimal digits.  A query is a
form: pairs of a name and a value, in which a plus sign stands for a blank.
-/

namespace PlcTags.Gateway

/-- The bytes that an encoded text stands for.  A percent sign without two digits stands
for itself. -/
def percentDecoded : List UInt8 → List UInt8
  | [] => []
  | 0x25 :: high :: low :: rest =>
    match Json.hexDigit? (Char.ofNat high.toNat), Json.hexDigit? (Char.ofNat low.toNat) with
    | some high, some low => UInt8.ofNat (high * 16 + low) :: percentDecoded rest
    | _, _ => 0x25 :: percentDecoded (high :: low :: rest)
  | byte :: rest => byte :: percentDecoded rest

def bytesOf (text : List Char) : List UInt8 :=
  (String.ofList text).toUTF8.toList

/-- The text that a part of a path stands for, if it is one. -/
def pathText? (part : String) : Option String :=
  (Text.Utf8.decode (percentDecoded (bytesOf part.toList)).toByteArray).toOption

/-- A part of a form.  What is not text in its bytes is replaced. -/
def formText (part : List Char) : String :=
  let spaced := part.map fun c => if c = '+' then ' ' else c
  String.ofList (Text.Utf8.decodeLossy (percentDecoded (bytesOf spaced)))

/-- A pair of a form: the name ends at the first equals sign. -/
def formPair (piece : List Char) : String × String :=
  (formText (piece.takeWhile (· ≠ '=')), formText ((piece.dropWhile (· ≠ '=')).drop 1))

/-- The pieces of a text between the places where a mark stands. -/
def pieces (mark : Char) : List Char → List (List Char)
  | [] => [[]]
  | c :: rest =>
    if c = mark then [] :: pieces mark rest
    else match pieces mark rest with
      | first :: more => (c :: first) :: more
      | [] => [[c]]

/-- A form: its pairs in order. -/
abbrev Form := List (String × String)

namespace Form

def read (query : String) : Form :=
  ((pieces '&' query.toList).filter (!·.isEmpty)).map formPair

/-- The value of a name that may be missing, but does not stand twice. -/
def optional? (form : Form) (name : String) : Option (Option String) :=
  match form.filter (·.1 == name) with
  | [] => some none
  | [(_, value)] => some (some value)
  | _ => none

/-- The value of a name that stands exactly once. -/
def required? (form : Form) (name : String) : Option String :=
  (form.optional? name).join

end Form

end PlcTags.Gateway
