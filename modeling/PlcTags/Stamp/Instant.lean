import PlcTags.Json.Reader
import PlcTags.Text.Trim

/-!
# Instants

A moment in universal time, to the nanosecond.  It is written as a date and a time of
day with as many digits of the second as are needed, in threes, and is read with any
distance from universal time, with blanks between its parts, and with the second that
is sometimes put in at the end of a minute.
-/

namespace PlcTags

/-- How many nanoseconds a second may have: twice as many if it is the last of its
minute, where another may follow it. -/
def nanosecondLimit (second : Int) : Nat :=
  if second % 60 = 59 then 2000000000 else 1000000000

structure Instant where
  /-- Seconds since the beginning of 1970. -/
  second : Int
  nanosecond : Nat
  nanosecond_lt : nanosecond < nanosecondLimit second
  deriving DecidableEq, Repr

namespace Instant

/-- The moment that lies so many nanoseconds after the beginning of 1970. -/
def ofNanoseconds (n : Nat) : Instant where
  second := n / 1000000000
  nanosecond := n % 1000000000
  nanosecond_lt := by
    have : n % 1000000000 < 1000000000 := Nat.mod_lt _ (by decide)
    unfold nanosecondLimit; split <;> omega

/-! ## The calendar -/

/-- The day with this date, counted from the beginning of 1970.  Years are taken to
begin in March, so that the day that only some years have is their last one. -/
def dayOfDate (year : Int) (month day : Nat) : Int :=
  let year := if month ≤ 2 then year - 1 else year
  let monthOfYear : Int := (month + 9) % 12
  let dayOfYear := (153 * monthOfYear + 2) / 5 + day - 1
  365 * year + year / 4 - year / 100 + year / 400 + dayOfYear - 719468

/-- The year, month and day of a day counted from the beginning of 1970. -/
def dateOfDay (day : Int) : Int × Nat × Nat :=
  let shifted := day + 719468
  let era := shifted / 146097
  let dayOfEra := shifted % 146097
  let yearOfEra := (dayOfEra - dayOfEra / 1460 + dayOfEra / 36524 - dayOfEra / 146096) / 365
  let dayOfYear := dayOfEra - (365 * yearOfEra + yearOfEra / 4 - yearOfEra / 100)
  let monthOfYear := (5 * dayOfYear + 2) / 153
  let dayOfMonth := dayOfYear - (153 * monthOfYear + 2) / 5 + 1
  let month := if monthOfYear < 10 then monthOfYear + 3 else monthOfYear - 9
  let year := yearOfEra + era * 400 + (if month ≤ 2 then 1 else 0)
  (year, month.toNat, dayOfMonth.toNat)

/-! ## Writing -/

/-- A number in at least so many digits. -/
def padded (width n : Nat) : String :=
  let digits := Nat.toDigits 10 n
  String.ofList (List.replicate (width - digits.length) '0' ++ digits)

/-- A year has four digits, and a sign if it needs more or lies before the year 0. -/
def renderYear (year : Int) : String :=
  if 0 ≤ year ∧ year ≤ 9999 then padded 4 year.toNat
  else (if year < 0 then "-" else "+") ++ padded 4 year.natAbs

/-- The digits of the second after its point, in as few groups of three as will do. -/
def renderFraction (nanosecond : Nat) : String :=
  if nanosecond = 0 then ""
  else if nanosecond % 1000000 = 0 then "." ++ padded 3 (nanosecond / 1000000)
  else if nanosecond % 1000 = 0 then "." ++ padded 6 (nanosecond / 1000)
  else "." ++ padded 9 nanosecond

def render (instant : Instant) : String :=
  let (year, month, day) := dateOfDay (instant.second / 86400)
  let rest := (instant.second % 86400).toNat
  let second := rest % 60 + instant.nanosecond / 1000000000
  renderYear year ++ "-" ++ padded 2 month ++ "-" ++ padded 2 day ++ "T" ++
    padded 2 (rest / 3600) ++ ":" ++ padded 2 (rest / 60 % 60) ++ ":" ++ padded 2 second ++
    renderFraction (instant.nanosecond % 1000000000) ++ "Z"

/-! ## Reading -/

/-- A number of at most so many digits after blanks, and what follows it. -/
def number? (width : Nat) (text : List Char) : Option (Nat × List Char) :=
  let text := Text.trimStart text
  let digits := (text.takeWhile Char.isDigit).take width
  if digits.isEmpty then none else some (Json.natOf digits, text.drop digits.length)

/-- What follows a mark, with blanks in front of it. -/
def skipMark? (mark : Char) (text : List Char) : Option (List Char) :=
  match Text.trimStart text with
  | c :: rest => if c == mark then some rest else none
  | [] => none

/-- A year: at most four digits, or any number of them after a sign. -/
def year? (text : List Char) : Option (Int × List Char) :=
  match Text.trimStart text with
  | '-' :: rest =>
    if rest.head?.any Char.isDigit then
      (number? rest.length rest).map fun (n, rest) => (-(n : Int), rest)
    else none
  | '+' :: rest =>
    if rest.head?.any Char.isDigit then
      (number? rest.length rest).map fun (n, rest) => ((n : Int), rest)
    else none
  | rest => (number? 4 rest).map fun (n, rest) => ((n : Int), rest)

/-- The digits of the second after its point: nine count, and the rest is passed over. -/
def fraction? : List Char → Option (Nat × List Char)
  | '.' :: rest =>
    let digits := (rest.takeWhile Char.isDigit).take 9
    if digits.isEmpty then none
    else some (Json.natOf digits * Nat.pow 10 (9 - digits.length), rest.dropWhile Char.isDigit)
  | rest => some (0, rest)

/-- The distance from universal time, in seconds. -/
def offset? (text : List Char) : Option (Int × List Char) :=
  let text := Text.trimStart text
  match text with
  | 'Z' :: rest => some (0, rest)
  | 'z' :: rest => some (0, rest)
  | mark :: rest =>
    if (String.ofList (text.take 3)).toUpper == "UTC" then some (0, text.drop 3)
    else if mark == '+' || mark == '-' || mark == '\u2212' then
      match rest with
      | a :: b :: rest =>
        match rest.dropWhile (fun c => c == ':' || Text.isBlank c) with
        | c :: d :: rest =>
          if [a, b, c, d].all Char.isDigit && c.toNat < '6'.toNat then
            let seconds : Int := Json.natOf [a, b] * 3600 + Json.natOf [c, d] * 60
            if seconds < 86400 then some (if mark == '+' then seconds else -seconds, rest)
            else none
          else none
        | _ => none
      | _ => none
    else none
  | [] => none

def daysInMonth (year : Int) (month : Nat) : Nat :=
  if month = 2 then
    if year % 4 = 0 ∧ (year % 100 ≠ 0 ∨ year % 400 = 0) then 29 else 28
  else if month = 4 ∨ month = 6 ∨ month = 9 ∨ month = 11 then 30
  else 31

/-- The instant with these parts, if there is one. -/
def ofParts? (year : Int) (month day hour minute second nanosecond : Nat) (offset : Int) :
    Option Instant :=
  if 1 ≤ month ∧ month ≤ 12 ∧ 1 ≤ day ∧ day ≤ daysInMonth year month ∧
      hour ≤ 23 ∧ minute ≤ 59 ∧ second ≤ 60 then
    let leap := second == 60
    let total := dayOfDate year month day * 86400 +
      (hour * 3600 + minute * 60 + (if leap then 59 else second) : Nat) - offset
    let nanosecond := if leap then nanosecond + 1000000000 else nanosecond
    if h : nanosecond < nanosecondLimit total then some ⟨total, nanosecond, h⟩ else none
  else none

def read? (text : String) : Option Instant := do
  let (year, rest) ← year? text.toList
  let (month, rest) ← number? 2 (← skipMark? '-' rest)
  let (day, rest) ← number? 2 (← skipMark? '-' rest)
  let rest ← match rest with
    | c :: rest => if c == 'T' || c == 't' || c == ' ' then some rest else none
    | [] => none
  let (hour, rest) ← number? 2 rest
  let (minute, rest) ← number? 2 (← skipMark? ':' rest)
  let (second, rest) ← number? 2 (← skipMark? ':' rest)
  let (nanosecond, rest) ← fraction? rest
  let (offset, rest) ← offset? rest
  if (Text.trimStart rest).isEmpty then
    ofParts? year month day hour minute second nanosecond offset
  else none

end Instant

end PlcTags
