import PlcTags.Json.Reader

/-!
# Strings in TOML

A string stands in quotes, which unescape it, or in apostrophes, which do not.  Three
marks in a row delimit a string that may run over several lines.
-/

namespace PlcTags.Toml

/-- A blank within a line. -/
def isBlank (c : Char) : Bool :=
  c == ' ' || c == '\t'

def skipBlanks (text : List Char) : List Char :=
  text.dropWhile isBlank

/-- A character that may stand as it is: no control character but the tab. -/
def isPlain (c : Char) : Bool :=
  c == '\t' || (0x20 ≤ c.toNat && c.toNat != 0x7F)

/-- What follows a line break. -/
def lineBreak? : List Char → Option (List Char)
  | '\n' :: rest => some rest
  | '\r' :: '\n' :: rest => some rest
  | _ => none

/-- The character with a code point written in hexadecimal digits. -/
def codePoint? (digits : List Char) : Option Char := do
  let values ← digits.mapM Json.hexDigit?
  let code := values.foldl (fun code digit => code * 16 + digit) 0
  if code.isValidChar then return Char.ofNat code else none

/-- The character that a single letter stands for after a backslash. -/
def escaped? : Char → Option Char
  | 'b' => some (Char.ofNat 8)
  | 't' => some '\t'
  | 'n' => some '\n'
  | 'f' => some (Char.ofNat 12)
  | 'r' => some '\r'
  | '"' => some '"'
  | '\\' => some '\\'
  | _ => none

/-- Puts a character in front of a string that has been read. -/
def withFirst (c : Char) (read : Option (List Char × List Char)) :
    Option (List Char × List Char) :=
  read.map fun (content, rest) => (c :: content, rest)

/-! ## On one line -/

/-- A string after its opening quote, and what follows the closing one. -/
def quoted : List Char → Option (List Char × List Char)
  | [] => none
  | '"' :: rest => some ([], rest)
  | '\\' :: 'u' :: a :: b :: c :: d :: rest => do
    let c ← codePoint? [a, b, c, d]
    withFirst c (quoted rest)
  | '\\' :: 'U' :: a :: b :: c :: d :: e :: f :: g :: h :: rest => do
    let c ← codePoint? [a, b, c, d, e, f, g, h]
    withFirst c (quoted rest)
  | '\\' :: c :: rest => do
    let c ← escaped? c
    withFirst c (quoted rest)
  | c :: rest => if isPlain c then withFirst c (quoted rest) else none

/-- A string after its opening apostrophe, and what follows the closing one. -/
def verbatim : List Char → Option (List Char × List Char)
  | [] => none
  | '\'' :: rest => some ([], rest)
  | c :: rest => if isPlain c then withFirst c (verbatim rest) else none

/-! ## On several lines -/

/-- What a run of marks that closes a string leaves of it: up to two marks in front of
the last three belong to the string. -/
def closing (mark : Char) (rest : List Char) : List Char × List Char :=
  match rest with
  | a :: b :: after =>
    if a == mark && b == mark then ([mark, mark], after)
    else if a == mark then ([mark], b :: after)
    else ([], rest)
  | [a] => if a == mark then ([mark], []) else ([], rest)
  | [] => ([], [])

/-- A string after its opening quotes.  A backslash at the end of a line hides the line
break and all blanks after it, which are being passed over where `hidden` is set. -/
def quotedLines (hidden : Bool) : List Char → Option (List Char × List Char)
  | [] => none
  | '"' :: '"' :: '"' :: rest => some (closing '"' rest)
  | '\r' :: '\n' :: rest =>
    if hidden then quotedLines true rest else withFirst '\n' (quotedLines false rest)
  | '\n' :: rest =>
    if hidden then quotedLines true rest else withFirst '\n' (quotedLines false rest)
  | '\\' :: 'u' :: a :: b :: c :: d :: rest => do
    let c ← codePoint? [a, b, c, d]
    withFirst c (quotedLines false rest)
  | '\\' :: 'U' :: a :: b :: c :: d :: e :: f :: g :: h :: rest => do
    let c ← codePoint? [a, b, c, d, e, f, g, h]
    withFirst c (quotedLines false rest)
  | '\\' :: c :: rest =>
    match escaped? c with
    | some c => withFirst c (quotedLines false rest)
    | none =>
      if (lineBreak? (skipBlanks (c :: rest))).isSome then quotedLines true (c :: rest) else none
  | c :: rest =>
    if hidden && isBlank c then quotedLines true rest
    else if isPlain c then withFirst c (quotedLines false rest)
    else none

/-- A string after its opening apostrophes. -/
def verbatimLines : List Char → Option (List Char × List Char)
  | [] => none
  | '\'' :: '\'' :: '\'' :: rest => some (closing '\'' rest)
  | '\r' :: '\n' :: rest => withFirst '\n' (verbatimLines rest)
  | c :: rest =>
    if isPlain c || c == '\n' then withFirst c (verbatimLines rest) else none

/-- A line break right after the opening marks does not count. -/
def withoutFirstBreak (text : List Char) : List Char :=
  (lineBreak? text).getD text

/-- The string in front of a text, in any of its four forms. -/
def string? : List Char → Option (String × List Char)
  | '"' :: '"' :: '"' :: rest => named (quotedLines false (withoutFirstBreak rest))
  | '"' :: rest => named (quoted rest)
  | '\'' :: '\'' :: '\'' :: rest => named (verbatimLines (withoutFirstBreak rest))
  | '\'' :: rest => named (verbatim rest)
  | _ => none
where
  named (read : Option (List Char × List Char)) : Option (String × List Char) :=
    read.map fun (content, rest) => (String.ofList content, rest)

end PlcTags.Toml
