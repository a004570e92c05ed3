import PlcTags.Address.Basic

/-!
# Siemens addresses

Absolute addresses such as `I0.0`, `QW4`, `MD20`, `T5`, `C3` and `DB1.DBX0.0`, with or
without leading percent signs.  The German letters `E` for inputs, `A` for outputs and
`Z` for counters are read as `I`, `Q` and `C`.
-/

namespace PlcTags.Address

inductive Siemens where
  | bit (area : Area) (byte index : Nat)
  | sized (area : Area) (size : Size) (byte : Nat)
  | timer (number : Nat)
  | counter (number : Nat)
  | blockBit (block byte index : Nat)
  | blockSized (block : Nat) (size : Size) (byte : Nat)
  deriving DecidableEq, Repr

namespace Siemens

/-! ## Reading -/

/-- An address taken apart, its numbers as they are written.  The size of a data
block element is absent where the letter is `X`. -/
inductive Spelling where
  | bit (area : Area) (byte index : Digits)
  | sized (area : Area) (size : Size) (byte : Digits)
  | timer (number : Digits)
  | counter (number : Digits)
  | block (number : Digits) (size : Option Size) (byte : Digits) (index : Option Digits)
  deriving DecidableEq, Repr

/-- The area that a letter stands for. -/
def areaOfLetter? : Char → Option Area
  | 'I' | 'E' => some .input
  | 'Q' | 'A' => some .output
  | 'M' => some .memory
  | _ => none

namespace Spelling

/-- What follows the letter of an area. -/
def readImage? (area : Area) : List Char → Option Spelling
  | [] => none
  | c :: rest =>
    match Size.ofLetter? c with
    | some size => sized area size <$> allDigits 5 rest
    | none => do
      let (byte, rest) ← digitsUpTo 5 (c :: rest)
      match rest with
      | '.' :: rest => bit area byte <$> allDigits 2 rest
      | _ => none

/-- The letter of a data block element: absent for `X`. -/
def blockSize? : Char → Option (Option Size)
  | 'X' => some none
  | c => some <$> Size.ofLetter? c

/-- What follows the first letters `DB`. -/
def readBlock? (text : List Char) : Option Spelling := do
  let (number, rest) ← digitsUpTo 5 text
  match rest with
  | '.' :: 'D' :: 'B' :: letter :: rest =>
    let size ← blockSize? letter
    let (byte, rest) ← digitsUpTo 5 rest
    match rest with
    | [] => return block number size byte none
    | '.' :: rest =>
      let index ← allDigits 2 rest
      return block number size byte (some index)
    | _ => none
  | _ => none

/-- Takes apart a text in upper case without its percent signs. -/
def read? : List Char → Option Spelling
  | [] => none
  | 'D' :: 'B' :: rest => readBlock? rest
  | 'T' :: rest => timer <$> allDigits 5 rest
  | 'C' :: rest => counter <$> allDigits 5 rest
  | 'Z' :: rest => counter <$> allDigits 5 rest
  | letter :: rest =>
    match areaOfLetter? letter with
    | some area => readImage? area rest
    | none => none

/-- The element that a spelling names; the leftmost number out of its range counts,
and only then whether a data block element has a bit exactly where it needs one. -/
def resolve : Spelling → Except Fault Siemens
  | bit area byte index => do
    let byte ← bounded .byte 0 65535 byte
    let index ← bounded .bit 0 7 index
    return .bit area byte index
  | sized area size byte => .sized area size <$> bounded .byte 0 65535 byte
  | timer number => .timer <$> bounded .number 0 2047 number
  | counter number => .counter <$> bounded .number 0 2047 number
  | block number size byte index => do
    let number ← bounded .dataBlock 1 65535 number
    let byte ← bounded .byte 0 65535 byte
    match size, index with
    | none, some index => .blockBit number byte <$> bounded .bit 0 7 index
    | some size, none => return .blockSized number size byte
    | _, _ => .error .malformed

end Spelling

/-- Reads a text without blanks around it. -/
def read (text : List Char) : Except Fault Siemens :=
  match Spelling.read? ((text.dropWhile (· == '%')).map Char.toUpper) with
  | some spelling => spelling.resolve
  | none => .error .malformed

/-! ## Writing -/

def areaLetter : Area → Char
  | .input => 'I'
  | .output => 'Q'
  | .memory => 'M'

/-- The canonical spelling: international letters, no percent sign, no leading
zeros. -/
def render : Siemens → List Char
  | bit area byte index => areaLetter area :: decimal byte ++ '.' :: decimal index
  | sized area size byte => areaLetter area :: size.letter :: decimal byte
  | timer number => 'T' :: decimal number
  | counter number => 'C' :: decimal number
  | blockBit block byte index =>
    ['D', 'B'] ++ decimal block ++ ['.', 'D', 'B', 'X'] ++ decimal byte ++ '.' :: decimal index
  | blockSized block size byte =>
    ['D', 'B'] ++ decimal block ++ ['.', 'D', 'B', size.letter] ++ decimal byte

/-! ## Meaning -/

def area : Siemens → Area
  | bit area _ _ => area
  | sized area _ _ => area
  | timer _ | counter _ | blockBit .. | blockSized .. => .memory

/-- The types that the addressed element can hold. -/
def accepts : Siemens → List DataType
  | bit .. | blockBit .. => [.bool]
  | sized _ size _ => size.width.accepts
  | blockSized _ size _ => size.width.accepts
  | timer _ => [.timer]
  | counter _ => [.counter]

def location? : Siemens → Option Location
  | bit area byte index => some ⟨area, byte, .bit index⟩
  | sized area size byte => some ⟨area, byte, size.width⟩
  | timer _ | counter _ | blockBit .. | blockSized .. => none

def ofLocation (location : Location) : Siemens :=
  match location.width with
  | .bit index => bit location.area location.byte index
  | .byte => sized location.area .byte location.byte
  | .word => sized location.area .word location.byte
  | .doubleWord => sized location.area .doubleWord location.byte

end Siemens

end PlcTags.Address
