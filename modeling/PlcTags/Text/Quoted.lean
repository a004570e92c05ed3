import PlcTags.Text.Property

/-!
# Quoted text in messages

A text between double quotes, with everything that would not show spelled out: the
usual escapes, and a code point in hexadecimal for a mark that attaches to the
character before it or a character without a printed form.
-/

namespace PlcTags.Text

/-- A number in lower-case hexadecimal. -/
def hexadecimal (n : Nat) : List Char :=
  Nat.toDigits 16 n

/-- A character inside quotes. -/
def quotedChar (c : Char) : List Char :=
  if c.toNat == 0 then ['\\', '0']
  else if c == '\t' then ['\\', 't']
  else if c == '\r' then ['\\', 'r']
  else if c == '\n' then ['\\', 'n']
  else if c == '"' || c == '\\' then ['\\', c]
  else if c == ' ' then [c]
  else if Property.graphemeExtend.contains c || Property.unprintable.contains c then
    ['\\', 'u', '\x7b'] ++ hexadecimal c.toNat ++ ['\x7d']
  else [c]

def quoted (text : List Char) : List Char :=
  '"' :: text.flatMap quotedChar ++ ['"']

end PlcTags.Text
