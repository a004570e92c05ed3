import PlcTags.Json.Reader

/-!
# Identifiers

An identifier is a number of 128 bits.  It is written as 32 hexadecimal digits in five
groups, and is also read without the hyphens, in braces, or with its scheme in front.
-/

namespace PlcTags

/-- How many identifiers there are. -/
abbrev uuidCount : Nat := 0x100000000000000000000000000000000

structure Uuid where
  number : Fin uuidCount
  deriving DecidableEq, Repr

namespace Uuid

def ofNat (n : Nat) : Uuid :=
  ⟨Fin.ofNat uuidCount n⟩

/-- All 32 digits. -/
def digits (id : Uuid) : List Char :=
  (List.range 32).map fun place => Nat.digitChar (id.number.val / Nat.pow 16 (31 - place) % 16)

/-- Puts hyphens between groups of 8, 4, 4, 4 and 12 digits. -/
def grouped (digits : List Char) : List Char :=
  digits.take 8 ++ '-' :: (digits.drop 8).take 4 ++ '-' :: (digits.drop 12).take 4 ++
    '-' :: (digits.drop 16).take 4 ++ '-' :: digits.drop 20

def render (id : Uuid) : String :=
  String.ofList (grouped id.digits)

/-- The identifier with these 32 digits. -/
def ofDigits? (digits : List Char) : Option Uuid := do
  let values ← digits.mapM Json.hexDigit?
  return ofNat (values.foldl (fun n digit => n * 16 + digit) 0)

/-- The digits of a text with hyphens in their places. -/
def ungrouped? (text : List Char) : Option (List Char) :=
  let digits := text.filter (· != '-')
  if digits.length = 32 && grouped digits == text then some digits else none

def read? (text : String) : Option Uuid :=
  let text := text.toList
  if text.length = 32 then ofDigits? text
  else
    let inner := match "urn:uuid:".toList.isPrefixOf? text with
      | some rest => rest
      | none =>
        if text.length = 38 && text.head? == some '\x7b' && text.getLast? == some '\x7d' then
          text.tail.dropLast
        else text
    (ungrouped? inner).bind ofDigits?

end Uuid

end PlcTags
