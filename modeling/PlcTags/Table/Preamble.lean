import PlcTags.Text.Trim

/-!
# Before the header of a table

A table may begin with blank lines, remarks and a line with the version of its format.
The first other line is the header, and the character that separates its cells most
often is the delimiter of the table.
-/

namespace PlcTags.Table

/-! ## Lines that are not the header -/

def dropQuotes (text : List Char) : List Char :=
  text.dropWhile (· == '"')

/-- A line that begins with the word `remark`, perhaps after quotes. -/
def isRemark (line : List Char) : Bool :=
  ((dropQuotes line).take 6).map Char.toLower == "remark".toList

def isSign (c : Char) : Bool :=
  c == '+' || c == '-'

/-- A letter of an exponent, perhaps a sign, and digits. -/
def isExponent : List Char → Bool
  | [] => true
  | letter :: rest =>
    let digits := match rest with
      | c :: digits => if isSign c then digits else rest
      | [] => []
    (letter == 'e' || letter == 'E') && !digits.isEmpty && digits.all Char.isDigit

/-- Digits with at most one point among or around them, and perhaps an exponent. -/
def isDecimalNumber (text : List Char) : Bool :=
  let whole := text.takeWhile Char.isDigit
  let afterWhole := text.dropWhile Char.isDigit
  let (fraction, rest) := match afterWhole with
    | '.' :: rest => (rest.takeWhile Char.isDigit, rest.dropWhile Char.isDigit)
    | rest => ([], rest)
  (!whole.isEmpty || !fraction.isEmpty) && isExponent rest

/-- The words that count as numbers. -/
def numberWords : List (List Char) :=
  ["inf".toList, "infinity".toList, "nan".toList]

/-- A number, perhaps with a sign. -/
def isNumber (text : List Char) : Bool :=
  let unsigned := match text with
    | c :: rest => if isSign c then rest else text
    | [] => []
  numberWords.contains (unsigned.map Char.toLower) || isDecimalNumber unsigned

/-- A line that holds only a number, perhaps between quotes. -/
def isVersion (line : List Char) : Bool :=
  isNumber (dropQuotes (dropQuotes line).reverse).reverse

def isPreamble (line : List Char) : Bool :=
  let line := Text.trim line
  line.isEmpty || isRemark line || isVersion line

/-! ## The header -/

/-- The first line of a text, and what follows its line feed. -/
def cutLine (text : List Char) : List Char × List Char :=
  (text.takeWhile (· != '\n'), (text.dropWhile (· != '\n')).drop 1)

theorem length_cutLine_lt (c : Char) (text : List Char) :
    (cutLine (c :: text)).2.length < (c :: text).length := by
  have hle := (List.dropWhile_suffix (l := c :: text) (· != '\n')).length_le
  simp only [cutLine, List.length_drop, List.length_cons] at hle ⊢
  omega

/-- The number of the first line that is not part of the preamble, and the text from
there on. -/
def headerFrom (line : Nat) : List Char → Option (Nat × List Char)
  | [] => none
  | c :: text =>
    if isPreamble (cutLine (c :: text)).1 then headerFrom (line + 1) (cutLine (c :: text)).2
    else some (line, c :: text)
  termination_by text => text.length
  decreasing_by exact length_cutLine_lt c text

/-- The number of the header line, from 1, and the text from there on. -/
def header? (text : List Char) : Option (Nat × List Char) :=
  headerFrom 1 text

/-! ## The delimiter -/

/-- The characters of a line outside of quotes, and not the quotes. -/
def outsideQuotes (quoted : Bool) : List Char → List Char
  | [] => []
  | c :: rest =>
    if c = '"' then outsideQuotes (!quoted) rest
    else if quoted then outsideQuotes quoted rest
    else c :: outsideQuotes quoted rest

/-- The most frequent of comma, semicolon and tab outside of quotes; of two that are
equally frequent, the one named first here. -/
def delimiterOf (headerLine : List Char) : Char :=
  let shown := outsideQuotes false headerLine
  let commas := shown.count ','
  let semicolons := shown.count ';'
  let tabs := shown.count '\t'
  if tabs > max commas semicolons then '\t'
  else if semicolons > commas then ';'
  else ','

end PlcTags.Table
