import PlcTags.Address.Basic

/-!
# Beckhoff addresses

Direct addresses such as `%IX0.0`, `%QB2`, `%MW10` and `%ID4`, where the `X` of a bit
may be missing, and the placeholders `%I*` and `%Q*`, whose place is chosen when the
program is linked.
-/

namespace PlcTags.Address

inductive Beckhoff where
  | bit (area : Area) (byte index : Nat)
  | sized (area : Area) (size : Size) (byte : Nat)
  | linked (side : Side)
  deriving DecidableEq, Repr

namespace Beckhoff

/-! ## Reading -/

/-- An address taken apart, its numbers as they are written. -/
inductive Spelling where
  | bit (area : Area) (byte index : Digits)
  | sized (area : Area) (size : Size) (byte : Digits)
  | linked (side : Side)
  deriving DecidableEq, Repr

/-- The area that a letter stands for. -/
def areaOfLetter? : Char → Option Area
  | 'I' => some .input
  | 'Q' => some .output
  | 'M' => some .memory
  | _ => none

namespace Spelling

/-- The byte and bit of a bit address. -/
def readBit? (area : Area) (text : List Char) : Option Spelling := do
  let (byte, rest) ← digitsUpTo 5 text
  match rest with
  | '.' :: rest => bit area byte <$> allDigits 2 rest
  | _ => none

/-- What follows the percent sign and the letter of an area. -/
def readImage? (area : Area) : List Char → Option Spelling
  | ['*'] =>
    match area with
    | .input => some (linked .input)
    | .output => some (linked .output)
    | .memory => none
  | 'X' :: rest => readBit? area rest
  | text =>
    match text.head?.bind Size.ofLetter? with
    | some size => sized area size <$> allDigits 5 text.tail
    | none => readBit? area text

/-- Takes apart a text in upper case. -/
def read? : List Char → Option Spelling
  | '%' :: letter :: rest =>
    match areaOfLetter? letter with
    | some area => readImage? area rest
    | none => none
  | _ => none

/-- The element that a spelling names; the leftmost number out of its range counts. -/
def resolve : Spelling → Except Fault Beckhoff
  | bit area byte index => do
    let byte ← bounded .byte 0 65535 byte
    let index ← bounded .bit 0 7 index
    return .bit area byte index
  | sized area size byte => .sized area size <$> bounded .byte 0 65535 byte
  | linked side => .ok (.linked side)

end Spelling

/-- Reads a text without blanks around it. -/
def read (text : List Char) : Except Fault Beckhoff :=
  match Spelling.read? (text.map Char.toUpper) with
  | some spelling => spelling.resolve
  | none => .error .malformed

/-! ## Writing -/

def areaLetter : Area → Char
  | .input => 'I'
  | .output => 'Q'
  | .memory => 'M'

/-- The canonical spelling: upper case, with the `X` of a bit, no leading zeros. -/
def render : Beckhoff → List Char
  | bit area byte index => ['%', areaLetter area, 'X'] ++ decimal byte ++ '.' :: decimal index
  | sized area size byte => ['%', areaLetter area, size.letter] ++ decimal byte
  | linked side => ['%', areaLetter side.area, '*']

/-! ## Meaning -/

def area : Beckhoff → Area
  | bit area _ _ => area
  | sized area _ _ => area
  | linked side => side.area

/-- The types that the addressed element can hold. -/
def accepts : Beckhoff → List DataType
  | bit .. => [.bool]
  | sized _ size _ => size.width.accepts
  | linked _ => [.bool, .int16, .int32, .real]

def location? : Beckhoff → Option Location
  | bit area byte index => some ⟨area, byte, .bit index⟩
  | sized area size byte => some ⟨area, byte, size.width⟩
  | linked _ => none

def ofLocation (location : Location) : Beckhoff :=
  match location.width with
  | .bit index => bit location.area location.byte index
  | .byte => sized location.area .byte location.byte
  | .word => sized location.area .word location.byte
  | .doubleWord => sized location.area .doubleWord location.byte

end Beckhoff

end PlcTags.Address
