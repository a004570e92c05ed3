import PlcTags.Json.Reader

/-!
# Numbers, truth values and dates in TOML

Everything that is written without quotes or brackets.  Integers have at most 64 bits;
floating numbers and dates are recognised and kept as they are written.
-/

namespace PlcTags.Toml

/-! ## Digits -/

/-- The digits of a group in which single underscores may stand between digits. -/
def digits? (isDigit : Char → Bool) : List Char → Option (List Char)
  | [] => none
  | [c] => if isDigit c then some [c] else none
  | c :: '_' :: rest => if isDigit c then (digits? isDigit rest).map (c :: ·) else none
  | c :: rest => if isDigit c then (digits? isDigit rest).map (c :: ·) else none

/-- Decimal digits without a leading zero. -/
def wholeDigits? (text : List Char) : Option (List Char) :=
  match digits? Char.isDigit text with
  | some ('0' :: _ :: _) => none
  | digits => digits

/-- The sign in front of a number. -/
def sign : List Char → Bool × List Char
  | '-' :: rest => (true, rest)
  | '+' :: rest => (false, rest)
  | text => (false, text)

/-! ## Integers -/

def isHexadecimal (c : Char) : Bool :=
  (Json.hexDigit? c).isSome

/-- The number that digits of a base write. -/
def natOf (base : Nat) (digits : List Char) : Nat :=
  digits.foldl (fun n c => n * base + (Json.hexDigit? c).getD 0) 0

/-- The digits of an unsigned number in another base than ten. -/
def basedNat? : List Char → Option Nat
  | '0' :: 'x' :: rest => (digits? isHexadecimal rest).map (natOf 16)
  | '0' :: 'o' :: rest => (digits? (fun c => '0' ≤ c && c ≤ '7') rest).map (natOf 8)
  | '0' :: 'b' :: rest => (digits? (fun c => c == '0' || c == '1') rest).map (natOf 2)
  | _ => none

def integer? (text : List Char) : Option Int :=
  match basedNat? text with
  | some n => inRange n
  | none =>
    let (negative, rest) := sign text
    (wholeDigits? rest).bind fun digits =>
      let n : Int := natOf 10 digits
      inRange (if negative then -n else n)
where
  inRange (n : Int) : Option Int :=
    if Json.minInt64 ≤ n ∧ n ≤ Json.maxInt64 then some n else none

/-! ## Floating numbers -/

/-- The exponent of a floating number, after its letter. -/
def exponent? (text : List Char) : Option Int :=
  let (negative, rest) := sign text
  (digits? Char.isDigit rest).map fun digits =>
    if negative then -(natOf 10 digits : Int) else natOf 10 digits

/-- Whether a text is a floating number: a fraction, an exponent or both after whole
digits, within the range of double-precision numbers, or one of the special values. -/
def isFloat (text : List Char) : Bool :=
  let rest := (sign text).2
  if rest == ['i', 'n', 'f'] || rest == ['n', 'a', 'n'] then true
  else
    let isLetter (c : Char) := c == 'e' || c == 'E'
    let mantissa := rest.takeWhile (!isLetter ·)
    let power := rest.dropWhile (!isLetter ·)
    let fraction := mantissa.dropWhile (· != '.')
    if power.isEmpty && fraction.isEmpty then false
    else
      let numeral : Option Json.Numeral := do
        let whole ← wholeDigits? (mantissa.takeWhile (· != '.'))
        let fraction ←
          if fraction.isEmpty then some none else some <$> digits? Char.isDigit fraction.tail
        let exponent ← if power.isEmpty then some none else some <$> exponent? power.tail
        return ⟨false, whole, fraction, exponent⟩
      numeral.any Json.Numeral.isFinite

/-! ## Dates -/

/-- The number that exactly so many digits write. -/
def fixedNat? (count : Nat) (text : List Char) : Option Nat :=
  if text.length = count && text.all Char.isDigit then some (natOf 10 text) else none

/-- How many days a month has. -/
def daysInMonth (year month : Nat) : Nat :=
  if month = 2 then
    if year % 4 = 0 && (year % 100 != 0 || year % 400 = 0) then 29 else 28
  else if month = 4 || month = 6 || month = 9 || month = 11 then 30
  else 31

def isDate (text : List Char) : Bool :=
  match text with
  | [a, b, c, d, '-', e, f, '-', g, h] =>
    (do let year ← fixedNat? 4 [a, b, c, d]
        let month ← fixedNat? 2 [e, f]
        let day ← fixedNat? 2 [g, h]
        return 1 ≤ month && month ≤ 12 && 1 ≤ day && day ≤ daysInMonth year month).getD false
  | _ => false

/-- The fraction of a second, with its point, or nothing. -/
def isFraction : List Char → Bool
  | [] => true
  | '.' :: digits => !digits.isEmpty && digits.all Char.isDigit
  | _ => false

def isTime (text : List Char) : Bool :=
  match text with
  | a :: b :: ':' :: c :: d :: ':' :: e :: f :: fraction =>
    (do let hour ← fixedNat? 2 [a, b]
        let minute ← fixedNat? 2 [c, d]
        let second ← fixedNat? 2 [e, f]
        return hour ≤ 23 && minute ≤ 59 && second ≤ 60 && isFraction fraction).getD false
  | _ => false

/-- A time of day with its distance from universal time. -/
def isZonedTime (text : List Char) : Bool :=
  match text.reverse with
  | 'Z' :: rest => isTime rest.reverse
  | 'z' :: rest => isTime rest.reverse
  | d :: c :: ':' :: b :: a :: mark :: rest =>
    (mark == '+' || mark == '-') && isTime rest.reverse &&
      (do let hours ← fixedNat? 2 [a, b]
          let minutes ← fixedNat? 2 [c, d]
          return hours ≤ 23 && minutes ≤ 59).getD false
  | _ => false

def isDateTime (text : List Char) : Bool :=
  let date := text.take 10
  match text.drop 10 with
  | [] => isDate date || isTime text
  | mark :: time =>
    isTime text || (isDate date && (mark == 'T' || mark == 't' || mark == ' ') &&
      (isTime time || isZonedTime time))

/-! ## Cutting a value off -/

/-- A character that ends a value. -/
def endsScalar (c : Char) : Bool :=
  c == ' ' || c == '\t' || c == '\n' || c == '\r' || c == ',' || c == ']' || c == '\x7d' ||
    c == '#'

/-- A time of day may follow a date after a blank. -/
def cutScalar (text : List Char) : List Char × List Char :=
  let front := text.takeWhile (!endsScalar ·)
  match text.dropWhile (!endsScalar ·) with
  | ' ' :: a :: b :: ':' :: rest =>
    if isDate front && a.isDigit && b.isDigit then
      let time := a :: b :: ':' :: rest
      (front ++ ' ' :: time.takeWhile (!endsScalar ·), time.dropWhile (!endsScalar ·))
    else (front, ' ' :: a :: b :: ':' :: rest)
  | rest => (front, rest)

/-- The value that stands at the beginning of a text. -/
def scalar? (text : List Char) : Option (Json × List Char) :=
  let (front, rest) := cutScalar text
  let value : Option Json :=
    if front == "true".toList then some (.bool true)
    else if front == "false".toList then some (.bool false)
    else match integer? front with
      | some n => some (.int n)
      | none =>
        if isFloat front || isDateTime front then some (.inexact (String.ofList front)) else none
  value.map (·, rest)

end PlcTags.Toml
