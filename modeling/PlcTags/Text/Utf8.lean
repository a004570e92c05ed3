/-!
# Texts and bytes

Some positions in a text are counted in the bytes of its UTF-8 encoding.

Bytes that are the UTF-8 encoding of a text give that text; all others are refused
with the place and the kind of the first fault.  Main statement: `decode_toUTF8`,
the encoding of a text is read back.
-/

namespace PlcTags.Text

/-! ## Bytes of a text -/

/-- The number of bytes that encode a text. -/
def byteLength : List Char → Nat
  | [] => 0
  | c :: rest => c.utf8Size + byteLength rest

@[simp] theorem byteLength_nil : byteLength [] = 0 := rfl

@[simp] theorem byteLength_cons (c : Char) (text : List Char) :
    byteLength (c :: text) = c.utf8Size + byteLength text := rfl

/-- The bytes that encode a text, each as the character with its number. -/
def byteChars (text : List Char) : List Char :=
  (text.flatMap String.utf8EncodeChar).map fun byte => Char.ofNat byte.toNat

namespace Utf8

/-! ## Texts from bytes -/

/-- What is wrong with bytes that encode no text. -/
inductive Fault where
  /-- The `length` bytes from `index` on begin no character. -/
  | invalid (length index : Nat)
  /-- The input ends inside the character that begins at `index`. -/
  | incomplete (index : Nat)
  deriving DecidableEq, Repr

def Fault.message : Fault → String
  | .invalid length index =>
    "invalid utf-8 sequence of " ++ toString length ++ " bytes from index " ++ toString index
  | .incomplete index => "incomplete utf-8 byte sequence from index " ++ toString index

/-- Where the fault is. -/
def Fault.index : Fault → Nat
  | .invalid _ index => index
  | .incomplete index => index

/-- What the front of the bytes is. -/
inductive Front where
  /-- A character of `length` bytes. -/
  | char (c : Char) (length : Nat)
  /-- `length` bytes that begin no character. -/
  | invalid (length : Nat)
  /-- The beginning of a character, and no more bytes. -/
  | incomplete

/-- A byte that continues a character. -/
def isTail (byte : UInt8) : Bool :=
  0x80 ≤ byte.toNat && byte.toNat ≤ 0xBF

/-- The six bits that a continuing byte carries. -/
def tailBits (byte : UInt8) : Nat :=
  byte.toNat % 64

/-- Whether `second` may follow the leading byte `first`: it continues a character,
and the two begin neither an overlong form, nor a surrogate, nor a code point out of
range. -/
def mayFollow (first second : UInt8) : Bool :=
  isTail second &&
    (if first == 0xE0 then 0xA0 ≤ second.toNat
     else if first == 0xED then second.toNat ≤ 0x9F
     else if first == 0xF0 then 0x90 ≤ second.toNat
     else if first == 0xF4 then second.toNat ≤ 0x8F
     else true)

/-- How many bytes a character with this leading byte has; none for a byte that
leads no character. -/
def width? (first : UInt8) : Option Nat :=
  let code := first.toNat
  if code < 0x80 then some 1
  else if 0xC2 ≤ code && code ≤ 0xDF then some 2
  else if 0xE0 ≤ code && code ≤ 0xEF then some 3
  else if 0xF0 ≤ code && code ≤ 0xF4 then some 4
  else none

/-- The front of a non-empty sequence of bytes. -/
def front (first : UInt8) (rest : List UInt8) : Front :=
  match width? first with
  | none => .invalid 1
  | some 1 => .char (Char.ofNat first.toNat) 1
  | some width =>
    match rest with
    | [] => .incomplete
    | second :: rest =>
      if !mayFollow first second then .invalid 1
      else if width == 2 then .char (Char.ofNat (first.toNat % 32 * 64 + tailBits second)) 2
      else match rest with
        | [] => .incomplete
        | third :: rest =>
          if !isTail third then .invalid 2
          else if width == 3 then
            .char (Char.ofNat
              ((first.toNat % 16 * 64 + tailBits second) * 64 + tailBits third)) 3
          else match rest with
            | [] => .incomplete
            | fourth :: _ =>
              if !isTail fourth then .invalid 3
              else .char (Char.ofNat
                (((first.toNat % 8 * 64 + tailBits second) * 64 + tailBits third) * 64 +
                  tailBits fourth)) 4

/-- The first fault at or after `index`, where the bytes not yet read begin. -/
def faultFrom (index : Nat) : List UInt8 → Fault
  | [] => .incomplete index
  | first :: rest =>
    match front first rest with
    | .char _ length => faultFrom (index + length) (rest.drop (length - 1))
    | .invalid length => .invalid length index
    | .incomplete => .incomplete index
  termination_by bytes => bytes.length
  decreasing_by simp only [List.length_drop, List.length_cons]; omega

/-- The text that the bytes encode. -/
def decode (bytes : ByteArray) : Except Fault String :=
  if valid : bytes.IsValidUTF8 then .ok (String.fromUTF8 bytes valid)
  else .error (faultFrom 0 bytes.toList)

/-- The text that the bytes encode up to their first fault. -/
def decodeFront (bytes : ByteArray) : String :=
  match decode bytes with
  | .ok text => text
  | .error fault => (decode (bytes.extract 0 fault.index)).toOption.getD ""

/-- The text that the bytes encode, with U+FFFD for each run that encodes nothing. -/
def decodeLossy : List UInt8 → List Char
  | [] => []
  | first :: rest =>
    match front first rest with
    | .char c length => c :: decodeLossy (rest.drop (length - 1))
    | .invalid length => Char.ofNat 0xFFFD :: decodeLossy (rest.drop (length - 1))
    | .incomplete => [Char.ofNat 0xFFFD]
  termination_by bytes => bytes.length
  decreasing_by all_goals simp only [List.length_drop, List.length_cons]; omega

/-- The encoding of a text is read back. -/
@[simp] theorem decode_toUTF8 (text : String) : decode text.toUTF8 = .ok text := by
  have valid : text.toUTF8.IsValidUTF8 := text.isValidUTF8
  rw [decode, dif_pos valid]
  rfl

end Utf8

end PlcTags.Text
