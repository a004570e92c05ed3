import PlcTags.Json.Printer
import PlcTags.Toml.Text

/-!
# Writing strings in TOML

A string is written in the plainest form that needs no escapes: in quotes, in
apostrophes, or in three of either.  Only a string that fits none of them is escaped.
-/

namespace PlcTags.Toml

/-- The length of the longest run of a character. -/
def longestRun (mark : Char) (text : List Char) : Nat :=
  (text.foldl (fun (longest, current) c =>
    if c == mark then (max longest (current + 1), current + 1) else (longest, 0)) (0, 0)).1

/-- A control character that can only be written as an escape. -/
def needsEscape (c : Char) : Bool :=
  (c.toNat < 0x20 && c != '\t' && c != '\n') || c.toNat == 0x7F

/-- How a character is escaped between quotes. -/
def escape (c : Char) : List Char :=
  if c == '"' then ['\\', '"']
  else if c == '\\' then ['\\', '\\']
  else if c == '\n' then ['\\', 'n']
  else if c == '\t' then ['\\', 't']
  else if c == '\r' then ['\\', 'r']
  else if c.toNat == 8 then ['\\', 'b']
  else if c.toNat == 12 then ['\\', 'f']
  else if needsEscape c then
    ['\\', 'u'] ++ (Json.unitDigits c.toNat).map Char.toUpper
  else [c]

/-- The content of a string over several lines: line breaks stand as they are, and so
do up to two quotes in a row. -/
def escapeLines (run : Nat) : List Char → List Char
  | [] => []
  | c :: rest =>
    if c == '\n' then c :: escapeLines 0 rest
    else if c == '"' then
      if run < 2 then c :: escapeLines (run + 1) rest else escape c ++ escapeLines 0 rest
    else escape c ++ escapeLines 0 rest

def renderString (content : String) : String :=
  let text := content.toList
  let escapes := text.any needsEscape
  let backslash := text.contains '\\'
  let newline := text.contains '\n'
  let quotes := longestRun '"' text
  let apostrophes := longestRun '\'' text
  let lines (mark : String) (body : List Char) : String :=
    mark ++ (if newline then "\n" else "") ++ String.ofList body ++ mark
  if !escapes && !backslash && quotes == 0 && !newline then
    "\"" ++ String.ofList (text.flatMap escape) ++ "\""
  else if !escapes && apostrophes == 0 && !newline then "'" ++ content ++ "'"
  else if !escapes && !backslash && quotes ≤ 2 then lines "\"\"\"" (escapeLines 0 text)
  else if !escapes && apostrophes ≤ 2 then lines "'''" text
  else if newline then lines "\"\"\"" (escapeLines 0 text)
  else "\"" ++ String.ofList (text.flatMap escape) ++ "\""

end PlcTags.Toml
