import PlcTags.Address.Basic

/-!
# Rockwell addresses

Addresses of inputs and outputs, `I:slot.word/bit` and `O:slot.word/bit`, and of
elements of data files, such as `B3:1/9`, `N7:4`, `T4:0.ACC` or `C5:1/DN`.  Reading
has two steps: `Spelling.read?` takes the text apart and `Spelling.resolve` gives it
a meaning, checking each number and name.

Slots of the image are words of two bytes.  The first word of a slot and the files
`B3` and `N7` have a location in the byte-addressed image; nothing else has one.
-/

namespace PlcTags.Address

/-- The kinds of data files. -/
inductive FileKind where
  | binary
  | integer
  | long
  | float
  | string
  | timer
  | counter
  | control
  deriving DecidableEq, Repr

namespace FileKind

def letters : FileKind → List Char
  | binary => ['B']
  | integer => ['N']
  | long => ['L']
  | float => ['F']
  | string => ['S', 'T']
  | timer => ['T']
  | counter => ['C']
  | control => ['R']

/-- The kind of file at the front of a text, and the rest. -/
def read? : List Char → Option (FileKind × List Char)
  | 'B' :: rest => some (binary, rest)
  | 'N' :: rest => some (integer, rest)
  | 'L' :: rest => some (long, rest)
  | 'F' :: rest => some (float, rest)
  | 'S' :: 'T' :: rest => some (string, rest)
  | 'T' :: rest => some (timer, rest)
  | 'C' :: rest => some (counter, rest)
  | 'R' :: rest => some (control, rest)
  | _ => none

/-- The greatest bit of an element, for files whose elements are words. -/
def lastBit? : FileKind → Option Nat
  | binary | integer => some 15
  | long => some 31
  | float | string | timer | counter | control => none

/-- The status bits of an element. -/
def flags : FileKind → List (List Char)
  | timer => [['E', 'N'], ['T', 'T'], ['D', 'N']]
  | counter => [['C', 'U'], ['C', 'D'], ['D', 'N'], ['O', 'V'], ['U', 'N']]
  | control =>
    [['E', 'N'], ['E', 'U'], ['D', 'N'], ['E', 'M'], ['E', 'R'], ['U', 'L'], ['I', 'N'],
      ['F', 'D']]
  | binary | integer | long | float | string => []

/-- The words inside an element. -/
def members : FileKind → List (List Char)
  | timer | counter => [['P', 'R', 'E'], ['A', 'C', 'C']]
  | control => [['L', 'E', 'N'], ['P', 'O', 'S']]
  | binary | integer | long | float | string => []

/-- The types that a whole element can hold. -/
def accepts : FileKind → List DataType
  | binary | integer => [.int16]
  | long => [.int32]
  | float => [.real]
  | string => [.string]
  | timer => [.timer]
  | counter => [.counter]
  | control => []

end FileKind

/-- What of a file element is addressed. -/
inductive Part where
  | whole
  | bit (index : Nat)
  | flag (name : List Char)
  | member (name : List Char)
  deriving DecidableEq, Repr

inductive Rockwell where
  /-- A word of an input or output slot, or a bit of it. -/
  | wired (side : Side) (slot word : Nat) (bit : Option Nat)
  /-- An element of a data file, or a part of it. -/
  | file (kind : FileKind) (number element : Nat) (part : Part)
  deriving DecidableEq, Repr

namespace Rockwell

/-! ## Reading -/

/-- What follows the element number of a file address. -/
inductive Suffix where
  | nothing
  /-- After a slash: one or two digits, or two letters. -/
  | slash (text : List Char)
  /-- After a point: three letters. -/
  | point (text : List Char)
  deriving DecidableEq, Repr

/-- An address taken apart, its numbers as they are written. -/
inductive Spelling where
  | wired (side : Side) (slot : Digits) (word bit : Option Digits)
  | file (kind : FileKind) (number element : Digits) (suffix : Suffix)
  deriving DecidableEq, Repr

namespace Suffix

def read? : List Char → Option Suffix
  | [] => some nothing
  | '/' :: text =>
    if (allDigits 2 text).isSome then some (slash text)
    else if text.length = 2 ∧ text.all Char.isUpper then some (slash text)
    else none
  | '.' :: text =>
    if text.length = 3 ∧ text.all Char.isUpper then some (point text) else none
  | _ => none

end Suffix

namespace Spelling

/-- What follows the slot and word of an input or output. -/
def readBit? : List Char → Option (Option Digits)
  | [] => some none
  | '/' :: text => some <$> allDigits 2 text
  | _ => none

/-- What follows the colon of an input or output. -/
def readWired? (side : Side) (text : List Char) : Option Spelling := do
  let (slot, rest) ← digitsUpTo 3 text
  match rest with
  | '.' :: rest =>
    let (word, rest) ← digitsUpTo 3 rest
    let bit ← readBit? rest
    return wired side slot (some word) bit
  | _ =>
    let bit ← readBit? rest
    return wired side slot none bit

/-- An address of a data file. -/
def readFile? (text : List Char) : Option Spelling := do
  let (kind, rest) ← FileKind.read? text
  let (number, rest) ← digitsUpTo 3 rest
  match rest with
  | ':' :: rest =>
    let (element, rest) ← digitsUpTo 3 rest
    let suffix ← Suffix.read? rest
    return file kind number element suffix
  | _ => none

/-- Takes apart a text in upper case. -/
def read? : List Char → Option Spelling
  | 'I' :: ':' :: rest => readWired? .input rest
  | 'O' :: ':' :: rest => readWired? .output rest
  | text => readFile? text

/-- The part of an element that a suffix names. -/
def resolvePart (kind : FileKind) (suffix : Suffix) : Except Fault Part :=
  match kind.lastBit?, suffix with
  | _, .nothing => .ok .whole
  | some lastBit, .slash text =>
    if text.all Char.isDigit then .bit <$> bounded .bit 0 lastBit text else .error .malformed
  | some _, .point _ => .error .malformed
  | none, .slash text => if text ∈ kind.flags then .ok (.flag text) else .error .malformed
  | none, .point text => if text ∈ kind.members then .ok (.member text) else .error .malformed

/-- The element that a spelling names; of several faults the leftmost number counts,
and a wrong suffix after all numbers. -/
def resolve : Spelling → Except Fault Rockwell
  | wired side slot word bit => do
    let slot ← bounded .slot 0 30 slot
    let word ← bounded? .word 0 255 word
    let bit ← bounded? .bit 0 15 bit
    return .wired side slot (word.getD 0) bit
  | file kind number element suffix => do
    let number ← bounded .fileNumber 3 255 number
    let element ← bounded .element 0 255 element
    let part ← resolvePart kind suffix
    return .file kind number element part

end Spelling

/-- Reads a text without blanks around it. -/
def read (text : List Char) : Except Fault Rockwell :=
  match Spelling.read? (text.map Char.toUpper) with
  | some spelling => spelling.resolve
  | none => .error .malformed

/-! ## Writing -/

def Part.render : Part → List Char
  | .whole => []
  | .bit index => '/' :: decimal index
  | .flag name => '/' :: name
  | .member name => '.' :: name

def sideLetter : Side → Char
  | .input => 'I'
  | .output => 'O'

/-- The canonical spelling: upper case, no leading zeros, and no word 0. -/
def render : Rockwell → List Char
  | wired side slot word bit =>
    sideLetter side :: ':' :: decimal slot ++ (if word = 0 then [] else '.' :: decimal word) ++
      (match bit with
        | some bit => '/' :: decimal bit
        | none => [])
  | file kind number element part =>
    kind.letters ++ decimal number ++ ':' :: decimal element ++ Part.render part

/-! ## Meaning -/

def area : Rockwell → Area
  | wired side _ _ _ => side.area
  | file .. => .memory

/-- The types that the addressed element can hold. -/
def accepts : Rockwell → List DataType
  | wired _ _ _ (some _) => [.bool]
  | wired _ _ _ none => [.int16]
  | file kind _ _ .whole => kind.accepts
  | file _ _ _ (.bit _) => [.bool]
  | file _ _ _ (.flag _) => [.bool]
  | file _ _ _ (.member _) => [.int16]

/-- The location of word `index` of an area, or of one of its bits. -/
def wordLocation (area : Area) (index : Nat) : Option Nat → Location
  | some bit => ⟨area, 2 * index + bit / 8, .bit (bit % 8)⟩
  | none => ⟨area, 2 * index, .word⟩

/-- The files whose words make up the memory image: `B3` and `N7`. -/
def isMapped (kind : FileKind) (number : Nat) : Bool :=
  (kind == .binary && number == 3) || (kind == .integer && number == 7)

def location? : Rockwell → Option Location
  | wired side slot word bit => if word = 0 then some (wordLocation side.area slot bit) else none
  | file kind number element part =>
    if isMapped kind number then
      match part with
      | .whole => some (wordLocation .memory element none)
      | .bit index => some (wordLocation .memory element (some index))
      | .flag _ | .member _ => none
    else none

/-- The bit of a word that a bit of one of its two bytes is. -/
def bitOfWord (byte bit : Nat) : Nat :=
  bit + if byte % 2 = 1 then 8 else 0

/-- The address of a location: slots for inputs and outputs, the file `B3` for bits
of memory and `N7` for words of it. -/
def ofLocation? (location : Location) : Option Rockwell :=
  let word := location.byte / 2
  let wiredTo (side : Side) : Option Rockwell :=
    match location.width with
    | .bit bit =>
      if word ≤ 30 then some (wired side word 0 (some (bitOfWord location.byte bit))) else none
    | .word => if location.byte % 2 = 0 ∧ word ≤ 30 then some (wired side word 0 none) else none
    | .byte | .doubleWord => none
  match location.area with
  | .input => wiredTo .input
  | .output => wiredTo .output
  | .memory =>
    match location.width with
    | .bit bit =>
      if word ≤ 255 then some (file .binary 3 word (.bit (bitOfWord location.byte bit))) else none
    | .word =>
      if location.byte % 2 = 0 ∧ word ≤ 255 then some (file .integer 7 word .whole) else none
    | .byte | .doubleWord => none

end Rockwell

end PlcTags.Address
