import PlcTags.Markup.Fault
import PlcTags.Text.Utf8

/-!
# Entities

Five characters that mean something in markup are written as named entities, and any
character may be written by its number.  Main statement: `unescape_escape`, an escaped
text is read back.
-/

namespace PlcTags.Markup

/-! ## Writing -/

def escapeChar (c : Char) : List Char :=
  match c with
  | '<' => ['&', 'l', 't', ';']
  | '>' => ['&', 'g', 't', ';']
  | '&' => ['&', 'a', 'm', 'p', ';']
  | '\'' => ['&', 'a', 'p', 'o', 's', ';']
  | '"' => ['&', 'q', 'u', 'o', 't', ';']
  | c => [c]

def escape (text : List Char) : List Char :=
  text.flatMap escapeChar

/-! ## Reading -/

/-- The character of a named entity. -/
def named? (name : List Char) : Option Char :=
  match name with
  | ['l', 't'] => some '<'
  | ['g', 't'] => some '>'
  | ['a', 'm', 'p'] => some '&'
  | ['a', 'p', 'o', 's'] => some '\''
  | ['q', 'u', 'o', 't'] => some '"'
  | _ => none

def decimalDigit? (c : Char) : Option Nat :=
  if c.isDigit then some (c.toNat - 48) else none

def hexadecimalDigit? (c : Char) : Option Nat :=
  let code := c.toNat
  if 48 ≤ code ∧ code ≤ 57 then some (code - 48)
  else if 65 ≤ code ∧ code ≤ 70 then some (code - 55)
  else if 97 ≤ code ∧ code ≤ 102 then some (code - 87)
  else none

/-- The number that the bytes write, after `value`. -/
def digitsValue (radix : Radix) (value : Nat) : List Char → Except Fault Nat
  | [] => .ok value
  | c :: rest =>
    match radix with
    | .decimal =>
      match decimalDigit? c with
      | some digit => digitsValue radix (value * 10 + digit) rest
      | none => .error (.badDigit radix c)
    | .hexadecimal =>
      match hexadecimalDigit? c with
      | some digit => digitsValue radix (value * 16 + digit) rest
      | none => .error (.badDigit radix c)

/-- The number of a numeric entity, of at most seven decimal or six hexadecimal
digits. -/
def number (text : List Char) : Except Fault Nat :=
  match text with
  | 'x' :: digits =>
    if Text.byteLength digits > 6 then .error (.longNumber .hexadecimal)
    else digitsValue .hexadecimal 0 (Text.byteChars digits)
  | digits =>
    if Text.byteLength digits > 7 then .error (.longNumber .decimal)
    else digitsValue .decimal 0 (Text.byteChars digits)

/-- The character of an entity; its ampersand stands at `start` and its semicolon at
`stop`. -/
def entity (start stop : Nat) (name : List Char) : Except Fault Char :=
  match name with
  | '#' :: digits => do
    let code ← number digits
    if code = 0 then .error (.nullCharacter start stop)
    else if code.isValidChar then .ok (Char.ofNat code)
    else .error (.noCharacter code)
  | _ =>
    match named? name with
    | some c => .ok c
    | none => .error (.unknownEntity (start + 1) stop name)

/-- Whether a character ends the name of an entity. -/
def endsEntity (c : Char) : Bool :=
  c == '&' || c == ';'

/-- Resolves the entities of a text from `position` on; the whole text has `size`
bytes. -/
def unescapeFrom (size position : Nat) : List Char → Except Fault (List Char)
  | [] => .ok []
  | c :: rest =>
    if c = '&' then
      match h : rest.dropWhile fun c => !endsEntity c with
      | ';' :: after => do
        have : after.length < rest.length := by
          have hle := (List.dropWhile_suffix (l := rest) fun c => !endsEntity c).length_le
          rw [h, List.length_cons] at hle
          omega
        let name := rest.takeWhile fun c => !endsEntity c
        let stop := position + 1 + Text.byteLength name
        let c ← entity position stop name
        let text ← unescapeFrom size (stop + 1) after
        return c :: text
      | _ => .error (.unfinishedEntity position size)
    else do
      let text ← unescapeFrom size (position + c.utf8Size) rest
      return c :: text
  termination_by text => text.length
  decreasing_by all_goals simp only [List.length_cons]; omega

/-- Resolves the entities of a text. -/
def unescape (text : List Char) : Except Fault (List Char) :=
  unescapeFrom (Text.byteLength text) 0 text

/-! ## An escaped text is read back -/

theorem unescapeFrom_escapeChar_append (size position : Nat) (c : Char) (rest : List Char) :
    unescapeFrom size position (escapeChar c ++ rest) =
      (c :: ·) <$> unescapeFrom size (position + Text.byteLength (escapeChar c)) rest := by
  by_cases hlt : c = '<'
  · subst hlt
    rw [show escapeChar '<' = ['&', 'l', 't', ';'] from rfl]
    simp [unescapeFrom, endsEntity, entity, named?]
    rfl
  by_cases hgt : c = '>'
  · subst hgt
    rw [show escapeChar '>' = ['&', 'g', 't', ';'] from rfl]
    simp [unescapeFrom, endsEntity, entity, named?]
    rfl
  by_cases hamp : c = '&'
  · subst hamp
    rw [show escapeChar '&' = ['&', 'a', 'm', 'p', ';'] from rfl]
    simp [unescapeFrom, endsEntity, entity, named?]
    rfl
  by_cases hapos : c = '\''
  · subst hapos
    rw [show escapeChar '\'' = ['&', 'a', 'p', 'o', 's', ';'] from rfl]
    simp [unescapeFrom, endsEntity, entity, named?]
    rfl
  by_cases hquot : c = '"'
  · subst hquot
    rw [show escapeChar '"' = ['&', 'q', 'u', 'o', 't', ';'] from rfl]
    simp [unescapeFrom, endsEntity, entity, named?]
    rfl
  have hplain : escapeChar c = [c] := by
    unfold escapeChar
    split <;> simp_all
  rw [hplain]
  simp [unescapeFrom, hamp]

/-- An escaped text is read back. -/
theorem unescape_escape (text : List Char) : unescape (escape text) = .ok text := by
  have h : ∀ size position, unescapeFrom size position (escape text) = .ok text := by
    induction text with
    | nil => intro size position; simp [escape, unescapeFrom]
    | cons c rest ih =>
      intro size position
      have happend : escape (c :: rest) = escapeChar c ++ escape rest := by simp [escape]
      rw [happend, unescapeFrom_escapeChar_append, ih]
      rfl
  exact h _ _

end PlcTags.Markup
