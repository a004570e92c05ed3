import PlcTags.Tag.Vocabulary
import PlcTags.Text.Classes

/-!
# Addresses: locations, numbers and faults

A location is an element of the input, output or memory image: a byte offset with
an access width.  It is what the address grammars of the vendors have in common.
The numbers in an address are runs of decimal digits, each with a range of its own.
-/

namespace PlcTags.Address

/-! ## Locations -/

/-- How much of the image an address names. -/
inductive Width where
  | bit (index : Nat)
  | byte
  | word
  | doubleWord
  deriving DecidableEq, Repr

/-- The types that an element of this width can hold. -/
def Width.accepts : Width → List DataType
  | bit _ => [.bool]
  | byte => []
  | word => [.int16]
  | doubleWord => [.int32, .real]

structure Location where
  area : Area
  byte : Nat
  width : Width
  deriving DecidableEq, Repr

/-- The input and output images, of which a wired address names one. -/
inductive Side where
  | input
  | output
  deriving DecidableEq, Repr

def Side.area : Side → Area
  | input => .input
  | output => .output

/-- An element of two, four or one bytes that is not a bit. -/
inductive Size where
  | byte
  | word
  | doubleWord
  deriving DecidableEq, Repr

namespace Size

def width : Size → Width
  | byte => .byte
  | word => .word
  | doubleWord => .doubleWord

def letter : Size → Char
  | byte => 'B'
  | word => 'W'
  | doubleWord => 'D'

def ofLetter? : Char → Option Size
  | 'B' => some byte
  | 'W' => some word
  | 'D' => some doubleWord
  | _ => none

@[simp] theorem ofLetter?_letter (size : Size) : ofLetter? size.letter = some size := by
  cases size <;> rfl

end Size

/-! ## Faults -/

/-- What a number in an address counts. -/
inductive Quantity where
  | slot
  | word
  | bit
  | fileNumber
  | element
  | byte
  | number
  | dataBlock
  deriving DecidableEq, Repr

def Quantity.name : Quantity → String
  | slot => "slot"
  | word => "word"
  | bit => "bit"
  | fileNumber => "file number"
  | element => "element"
  | byte => "byte"
  | number => "number"
  | dataBlock => "data block"

/-- Why a text of the right shape is no address. -/
inductive Fault where
  /-- The text has no meaning in the grammar. -/
  | malformed
  /-- A number is written in digits other than 0 to 9. -/
  | notANumber (quantity : Quantity)
  | outside (quantity : Quantity) (value least greatest : Nat)
  deriving DecidableEq, Repr

/-- Why a text is no address of a vendor. -/
inductive Error where
  | empty
  | malformed (vendor : Vendor) (address : String)
  | notANumber (address : String) (quantity : Quantity)
  | outside (address : String) (quantity : Quantity) (value least greatest : Nat)
  deriving DecidableEq, Repr

namespace Error

def ofFault (vendor : Vendor) (address : String) : Fault → Error
  | .malformed => malformed vendor address
  | .notANumber quantity => notANumber address quantity
  | .outside quantity value least greatest => outside address quantity value least greatest

def message : Error → String
  | empty => "empty address"
  | malformed vendor address => "'" ++ address ++ "' is not a valid " ++ vendor.word ++ " address"
  | notANumber address quantity =>
    "'" ++ address ++ "' is out of range: " ++ quantity.name ++ " is not a number"
  | outside address quantity value least greatest =>
    "'" ++ address ++ "' is out of range: " ++ quantity.name ++ " " ++ toString value ++
      " not in " ++ toString least ++ "..=" ++ toString greatest

end Error

/-! ## Numbers -/

/-- A number as it stands in an address: digits of any script. -/
abbrev Digits := List Char

/-- The digits at the front of a text, at least one and at most `limit`, and what
follows all digits there. -/
def digitsUpTo (limit : Nat) (text : List Char) : Option (Digits × List Char) :=
  let digits := text.takeWhile Text.isAnyDigit
  if 1 ≤ digits.length ∧ digits.length ≤ limit then
    some (digits, text.dropWhile Text.isAnyDigit)
  else none

/-- The digits that make up a whole text, at least one and at most `limit`. -/
def allDigits (limit : Nat) (text : List Char) : Option Digits :=
  match digitsUpTo limit text with
  | some (digits, []) => some digits
  | _ => none

/-- The value of a number, if it lies in its range. -/
def bounded (quantity : Quantity) (least greatest : Nat) (digits : Digits) : Except Fault Nat :=
  if digits.all Char.isDigit then
    let value := Nat.ofDigitChars 10 digits 0
    if least ≤ value ∧ value ≤ greatest then .ok value
    else .error (.outside quantity value least greatest)
  else .error (.notANumber quantity)

/-- The value of a number that need not be there. -/
def bounded? (quantity : Quantity) (least greatest : Nat) :
    Option Digits → Except Fault (Option Nat)
  | none => .ok none
  | some digits => some <$> bounded quantity least greatest digits

/-- A number in decimal, without leading zeros. -/
def decimal (n : Nat) : List Char :=
  Nat.toDigits 10 n

end PlcTags.Address
