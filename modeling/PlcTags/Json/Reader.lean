import PlcTags.Json.Basic

/-!
# Reading JSON

A text is cut into tokens, and the tokens are put together on a stack of open arrays
and objects.  At most 127 of them may be open at once.
-/

namespace PlcTags.Json

/-! ## Strings -/

/-- The text up to the closing quote, escapes untouched, and what follows the quote.
Control characters do not stand in a string. -/
def cutString : List Char → Option (List Char × List Char)
  | [] => none
  | '"' :: rest => some ([], rest)
  | '\\' :: c :: rest => (cutString rest).map fun (text, rest) => ('\\' :: c :: text, rest)
  | c :: rest =>
    if c.toNat < 0x20 then none
    else (cutString rest).map fun (text, rest) => (c :: text, rest)

theorem length_lt_of_cutString {text content rest : List Char}
    (h : cutString text = some (content, rest)) : rest.length < text.length := by
  fun_induction cutString text generalizing content with
  | case1 => simp at h
  | case2 => simp only [Option.some.injEq, Prod.mk.injEq] at h; simp [h.2]
  | case3 c tail ih =>
    obtain ⟨⟨inner, last⟩, hcut, heq⟩ := Option.map_eq_some_iff.1 h
    obtain ⟨-, rfl⟩ := Prod.mk.inj heq
    have := ih hcut
    simp only [List.length_cons]; omega
  | case4 => simp at h
  | case5 c tail _ _ _ ih =>
    obtain ⟨⟨inner, last⟩, hcut, heq⟩ := Option.map_eq_some_iff.1 h
    obtain ⟨-, rfl⟩ := Prod.mk.inj heq
    have := ih hcut
    simp only [List.length_cons]; omega

def hexDigit? (c : Char) : Option Nat :=
  let code := c.toNat
  if 48 ≤ code ∧ code ≤ 57 then some (code - 48)
  else if 65 ≤ code ∧ code ≤ 70 then some (code - 55)
  else if 97 ≤ code ∧ code ≤ 102 then some (code - 87)
  else none

/-- The number that four hexadecimal digits write. -/
def hexUnit? (a b c d : Char) : Option Nat := do
  let a ← hexDigit? a
  let b ← hexDigit? b
  let c ← hexDigit? c
  let d ← hexDigit? d
  return ((a * 16 + b) * 16 + c) * 16 + d

def isHighSurrogate (unit : Nat) : Bool := 0xD800 ≤ unit && unit ≤ 0xDBFF

def isLowSurrogate (unit : Nat) : Bool := 0xDC00 ≤ unit && unit ≤ 0xDFFF

/-- The character of an escape of one letter. -/
def escaped? : Char → Option Char
  | '"' => some '"'
  | '\\' => some '\\'
  | '/' => some '/'
  | 'b' => some (Char.ofNat 8)
  | 'f' => some (Char.ofNat 12)
  | 'n' => some '\n'
  | 'r' => some '\r'
  | 't' => some '\t'
  | _ => none

/-- Resolves the escapes of a string; two surrogates make one character, and one alone
makes none. -/
def unescape : List Char → Option (List Char)
  | [] => some []
  | '\\' :: 'u' :: a :: b :: c :: d :: rest => do
    let unit ← hexUnit? a b c d
    if isHighSurrogate unit then
      match rest with
      | '\\' :: 'u' :: e :: f :: g :: h :: rest =>
        let low ← hexUnit? e f g h
        if isLowSurrogate low then
          let text ← unescape rest
          return Char.ofNat (0x10000 + (unit - 0xD800) * 0x400 + (low - 0xDC00)) :: text
        else none
      | _ => none
    else if isLowSurrogate unit then none
    else
      let text ← unescape rest
      return Char.ofNat unit :: text
  | '\\' :: c :: rest => do
    let c ← escaped? c
    let text ← unescape rest
    return c :: text
  | c :: rest => (unescape rest).map (c :: ·)

/-! ## Numbers -/

/-- A numeral taken apart. -/
structure Numeral where
  negative : Bool
  whole : List Char
  fraction : Option (List Char)
  exponent : Option Int

def natOf (digits : List Char) : Nat :=
  Nat.ofDigitChars 10 digits 0

/-- At least one digit, and nothing else. -/
def isDigits (text : List Char) : Bool :=
  !text.isEmpty && text.all Char.isDigit

/-- The exponent after its letter. -/
def exponent? : List Char → Option Int
  | '+' :: digits => if isDigits digits then some (natOf digits) else none
  | '-' :: digits => if isDigits digits then some (-(natOf digits)) else none
  | digits => if isDigits digits then some (natOf digits) else none

/-- Takes apart a numeral: no sign but a minus, no leading zeros, digits on both sides
of a point. -/
def numeral? (text : List Char) : Option Numeral := do
  let (negative, text) := match text with
    | '-' :: rest => (true, rest)
    | text => (false, text)
  let whole := text.takeWhile Char.isDigit
  let rest := text.dropWhile Char.isDigit
  if whole.isEmpty || (whole.head? == some '0' && whole.length > 1) then none
  let (fraction, rest) ← match rest with
    | '.' :: rest =>
      let digits := rest.takeWhile Char.isDigit
      if digits.isEmpty then none else some (some digits, rest.dropWhile Char.isDigit)
    | rest => some (none, rest)
  match rest with
  | [] => return ⟨negative, whole, fraction, none⟩
  | letter :: rest =>
    if letter == 'e' || letter == 'E' then
      let exponent ← exponent? rest
      return ⟨negative, whole, fraction, some exponent⟩
    else none

/-- Whether a numeral lies within the range of double-precision numbers: below the
midpoint between the largest of them and the next power of two. -/
def Numeral.isFinite (numeral : Numeral) : Bool :=
  let fraction := numeral.fraction.getD []
  let mantissa := natOf (numeral.whole ++ fraction)
  let exponent := numeral.exponent.getD 0 - fraction.length
  let magnitude : Int := (Nat.toDigits 10 mantissa).length + exponent
  if mantissa = 0 ∨ magnitude ≤ 308 then true
  else if magnitude > 309 then false
  else
    let bound := Nat.pow 2 1024 - Nat.pow 2 970
    if 0 ≤ exponent then mantissa * Nat.pow 10 exponent.toNat < bound
    else mantissa < bound * Nat.pow 10 (-exponent).toNat

/-- The value of a numeral.  Minus zero is no integer. -/
def ofNumeral? (text : List Char) : Option Json := do
  let numeral ← numeral? text
  if !numeral.isFinite then none
  let written := inexact (String.ofList text)
  if numeral.fraction.isSome || numeral.exponent.isSome then return written
  let magnitude : Int := natOf numeral.whole
  if numeral.negative && magnitude == 0 then return written
  let value := if numeral.negative then -magnitude else magnitude
  return if minInt64 ≤ value ∧ value ≤ maxNat64 then int value else written

/-! ## Tokens -/

inductive Token where
  | openArray
  | closeArray
  | openObject
  | closeObject
  | comma
  | colon
  | scalar (value : Json)

def isSpace (c : Char) : Bool :=
  c == ' ' || c == '\n' || c == '\t' || c == '\r'

def isNumeralChar (c : Char) : Bool :=
  c.isDigit || c == '-' || c == '+' || c == '.' || c == 'e' || c == 'E'

def literal? (text : List Char) : Option Json :=
  match String.ofList text with
  | "null" => some null
  | "true" => some (bool true)
  | "false" => some (bool false)
  | _ => none

theorem length_dropWhile_le {α : Type} (p : α → Bool) (list : List α) :
    (list.dropWhile p).length ≤ list.length := by
  induction list with
  | nil => simp
  | cons a rest ih =>
    by_cases h : p a = true
    · simp only [List.dropWhile_cons, h, if_true, List.length_cons]; omega
    · simp [h]

/-- The token of a single mark. -/
def mark? : Char → Option Token
  | '[' => some .openArray
  | ']' => some .closeArray
  | '\x7b' => some .openObject
  | '\x7d' => some .closeObject
  | ',' => some .comma
  | ':' => some .colon
  | _ => none

/-- The token in front of a text that begins with a character, and what follows it. -/
def token? (c : Char) (rest : List Char) : Option (Token × List Char) :=
  match mark? c with
  | some token => some (token, rest)
  | none =>
    if c == '"' then do
      let (content, after) ← cutString rest
      let text ← unescape content
      return (.scalar (string (String.ofList text)), after)
    else if isNumeralChar c then do
      let value ← ofNumeral? (c :: rest.takeWhile isNumeralChar)
      return (.scalar value, rest.dropWhile isNumeralChar)
    else do
      let value ← literal? (c :: rest.takeWhile Char.isAlpha)
      return (.scalar value, rest.dropWhile Char.isAlpha)

theorem length_of_token? {c : Char} {rest after : List Char} {token : Token}
    (h : token? c rest = some (token, after)) : after.length ≤ rest.length := by
  unfold token? at h
  split at h
  · obtain ⟨-, rfl⟩ := Prod.mk.inj (Option.some.inj h)
    exact Nat.le_refl _
  · split at h
    · obtain ⟨⟨content, left⟩, hcut, h⟩ := Option.bind_eq_some_iff.1 h
      obtain ⟨text, -, h⟩ := Option.bind_eq_some_iff.1 h
      obtain ⟨-, rfl⟩ := Prod.mk.inj (Option.some.inj h)
      exact Nat.le_of_lt (length_lt_of_cutString hcut)
    · split at h
      · obtain ⟨value, -, h⟩ := Option.bind_eq_some_iff.1 h
        obtain ⟨-, rfl⟩ := Prod.mk.inj (Option.some.inj h)
        exact length_dropWhile_le _ _
      · obtain ⟨value, -, h⟩ := Option.bind_eq_some_iff.1 h
        obtain ⟨-, rfl⟩ := Prod.mk.inj (Option.some.inj h)
        exact length_dropWhile_le _ _

/-- The tokens of a text, and what is left where it goes on with none. -/
def tokens : List Char → List Token × List Char
  | [] => ([], [])
  | c :: rest =>
    if isSpace c then tokens rest
    else match h : token? c rest with
      | none => ([], c :: rest)
      | some (token, after) =>
        have := length_of_token? h
        let (following, left) := tokens after
        (token :: following, left)
  termination_by text => text.length
  decreasing_by all_goals simp only [List.length_cons]; omega

/-! ## Values from tokens -/

/-- An array or object whose end has not been reached, its contents backwards. -/
inductive Open where
  | array (items : List Json)
  | object (members : List (String × Json))
  /-- An object of which a name has been read and its value not yet. -/
  | member (members : List (String × Json)) (name : String)

/-- What may come next. -/
inductive Expected where
  | value
  | valueOrClose
  | name
  | nameOrClose
  | colon
  | commaOrClose
  deriving DecidableEq

/-- What has been read: the open arrays and objects, the innermost first. -/
structure Progress where
  stack : List Open
  expected : Expected

/-- How many arrays and objects may be open at once. -/
def depthLimit : Nat := 127

/-- What follows a complete value: an entry of the innermost array or object, or the
end of the text. -/
def place (value : Json) : List Open → Option (Progress ⊕ Json)
  | [] => some (.inr value)
  | .array items :: stack => some (.inl ⟨.array (value :: items) :: stack, .commaOrClose⟩)
  | .member members name :: stack =>
    some (.inl ⟨.object ((name, value) :: members) :: stack, .commaOrClose⟩)
  | .object _ :: _ => none

def openNew (stack : List Open) (new : Open) (expected : Expected) : Option (Progress ⊕ Json) :=
  if stack.length < depthLimit then some (.inl ⟨new :: stack, expected⟩) else none

/-- Reads one token. -/
def step (state : Progress) (token : Token) : Option (Progress ⊕ Json) :=
  match state.expected, token, state.stack with
  | .value, .scalar value, stack => place value stack
  | .valueOrClose, .scalar value, stack => place value stack
  | .value, .openArray, stack => openNew stack (.array []) .valueOrClose
  | .valueOrClose, .openArray, stack => openNew stack (.array []) .valueOrClose
  | .value, .openObject, stack => openNew stack (.object []) .nameOrClose
  | .valueOrClose, .openObject, stack => openNew stack (.object []) .nameOrClose
  | .valueOrClose, .closeArray, .array items :: stack => place (array items.reverse) stack
  | .commaOrClose, .closeArray, .array items :: stack => place (array items.reverse) stack
  | .nameOrClose, .closeObject, .object members :: stack =>
    place (object members.reverse) stack
  | .commaOrClose, .closeObject, .object members :: stack =>
    place (object members.reverse) stack
  | .name, .scalar (string name), .object members :: stack =>
    some (.inl ⟨.member members name :: stack, .colon⟩)
  | .nameOrClose, .scalar (string name), .object members :: stack =>
    some (.inl ⟨.member members name :: stack, .colon⟩)
  | .colon, .colon, stack => some (.inl ⟨stack, .value⟩)
  | .commaOrClose, .comma, .array items :: stack => some (.inl ⟨.array items :: stack, .value⟩)
  | .commaOrClose, .comma, .object members :: stack =>
    some (.inl ⟨.object members :: stack, .name⟩)
  | _, _, _ => none

/-- The value in front of a sequence of tokens, and the tokens that follow it. -/
def valueFrom? (state : Progress) : List Token → Option (Json × List Token)
  | [] => none
  | token :: rest =>
    match step state token with
    | none => none
    | some (.inl state) => valueFrom? state rest
    | some (.inr value) => some (value, rest)

/-- Nothing has been read yet. -/
def atStart : Progress := ⟨[], .value⟩

/-- The value that a text writes. -/
def parse? (text : String) : Option Json :=
  match tokens text.toList with
  | (list, []) =>
    match valueFrom? atStart list with
    | some (value, []) => some value
    | _ => none
  | _ => none

/-- The value in front of a text, whatever follows it. -/
def first? (text : String) : Option Json :=
  (valueFrom? atStart (tokens text.toList).1).map (·.1)

end PlcTags.Json
