import PlcTags.Text.Property

/-!
# Classes of characters

Decimal digits, word characters, letters with numerals, and controls, over all of
Unicode.  The first three contain the class of the same kind that the core library
keeps for ASCII.
-/

namespace PlcTags.Text

/-- A decimal digit of any script. -/
def isAnyDigit (c : Char) : Bool :=
  Property.decimalDigit.contains c

/-- A letter or numeral of any script. -/
def isLetterOrNumeral (c : Char) : Bool :=
  c.isAlphanum || Property.alphabetic.contains c || Property.numeral.contains c

/-- Punctuation that joins words, such as the underscore. -/
def isConnector (c : Char) : Bool :=
  let code := c.toNat
  code == 0x5F || code == 0x203F || code == 0x2040 || code == 0x2054 || code == 0xFE33 ||
    code == 0xFE34 || (0xFE4D ≤ code && code ≤ 0xFE4F) || code == 0xFF3F

/-- A letter, mark, decimal digit, connector or joiner of any script. -/
def isWordChar (c : Char) : Bool :=
  c.isAlphanum || isConnector c || Property.alphabetic.contains c || Property.mark.contains c ||
    Property.decimalDigit.contains c || c.toNat == 0x200C || c.toNat == 0x200D

/-- A control character: the first 32, DEL and the 32 after it. -/
def isControl (c : Char) : Bool :=
  c.toNat < 0x20 || (0x7F ≤ c.toNat && c.toNat < 0xA0)

theorem isLetterOrNumeral_of_isAlphanum {c : Char} (h : c.isAlphanum = true) :
    isLetterOrNumeral c = true := by
  simp [isLetterOrNumeral, h]

theorem isWordChar_of_isAlphanum {c : Char} (h : c.isAlphanum = true) :
    isWordChar c = true := by
  simp [isWordChar, h]

end PlcTags.Text
