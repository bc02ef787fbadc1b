import Settlement.Number.Decimal.Text
import Settlement.Text.Blank
import Settlement.Time.Basic
import Settlement.Time.Calendar

namespace Settlement

attribute [local instance (high)] instPowNat

namespace Span

/-- Drops the zeros at the end of a fraction. One of zeros alone leaves nothing. -/
def trimZeros (digits : List Char) : List Char := (digits.reverse.dropWhile (· = '0')).reverse

/-- The number `n / 10 ^ places` without trailing zeros, before a unit. -/
def inUnit (n places : Nat) (unit : String) : String :=
  let whole := toString (n / 10 ^ places)
  let fraction := if places = 0 then [] else trimZeros (paddedDigits places (n % 10 ^ places))
  if fraction.isEmpty then whole ++ unit else whole ++ "." ++ String.ofList fraction ++ unit

/-- A length of time in the largest unit of seconds, milliseconds, microseconds and nanoseconds that
it reaches. -/
def toText (d : Span) : String :=
  if 1_000_000_000 ≤ d.nanos then inUnit d.nanos 9 "s"
  else if 1_000_000 ≤ d.nanos then inUnit d.nanos 6 "ms"
  else if 1_000 ≤ d.nanos then inUnit d.nanos 3 "µs"
  else inUnit d.nanos 0 "ns"

instance : ToString Span := ⟨toText⟩

end Span

namespace Timestamp

/-- A year in four digits, and with a sign outside of the years 0 to 9999. -/
def yearText (year : Int) : List Char :=
  let digits := paddedDigits 4 year.natAbs
  if 0 ≤ year ∧ year ≤ 9999 then digits
  else if year < 0 then '-' :: digits
  else '+' :: digits

/-- The fraction of a second in no, three, six or nine digits, the fewest of these that write it. -/
def fractionText (nanos : Nat) : List Char :=
  if nanos = 0 then []
  else if nanos % 1_000_000 = 0 then '.' :: paddedDigits 3 (nanos / 1_000_000)
  else if nanos % 1_000 = 0 then '.' :: paddedDigits 6 (nanos / 1_000)
  else '.' :: paddedDigits 9 nanos

/-- A point in time as in RFC 3339, in universal time, with as many groups of three fraction digits
as it needs. A leap second is second 60. -/
def toText (t : Timestamp) : String :=
  let date := Date.ofDays (t.seconds / 86400)
  let second := t.secondOfDay.toNat
  String.ofList <|
    yearText date.year ++ '-' :: paddedDigits 2 date.month ++ '-' :: paddedDigits 2 date.day ++
      'T' :: paddedDigits 2 (second / 3600) ++ ':' :: paddedDigits 2 (second / 60 % 60) ++
      ':' :: paddedDigits 2 (second % 60 + t.inLeapSecond.toNat) ++ fractionText t.subsecond ++ ['Z']

/-- Reads digits up to `limit` of them, at least one, after blanks. -/
def number? (limit : Nat) (cs : List Char) : Option (Nat × List Char) :=
  let cs := skipBlanks cs
  let digits := (cs.take limit).takeWhile Char.isDigit
  (digitsValue? digits).map (·, cs.drop digits.length)

/-- Reads a year: after a sign any number of digits, otherwise four at most. -/
def year? (cs : List Char) : Option (Int × List Char) :=
  let signed (rest : List Char) : Option (Nat × List Char) :=
    let digits := rest.takeWhile Char.isDigit
    (digitsValue? digits).map (·, rest.drop digits.length)
  match skipBlanks cs with
  | '-' :: rest => (signed rest).map fun (n, rest) => (-n, rest)
  | '+' :: rest => (signed rest).map fun (n, rest) => (n, rest)
  | cs => (number? 4 cs).map fun (n, rest) => (n, rest)

/-- Reads one character after blanks, which is how the parts of a time are told apart. -/
def mark? (mark : Char) (cs : List Char) : Option (List Char) :=
  match skipBlanks cs with
  | c :: rest => if c = mark then some rest else none
  | [] => none

/-- Reads the fraction of a second, if there is one. Digits after the ninth are dropped. -/
def fraction? : List Char → Option (Nat × List Char)
  | '.' :: rest => do
    let digits := rest.takeWhile Char.isDigit
    let n ← digitsValue? (digits.take 9)
    return (n * 10 ^ (9 - min 9 digits.length), rest.drop digits.length)
  | cs => some (0, cs)

/-- Reads two digits, which stand directly here: blanks are not skipped. -/
def twoDigits? : List Char → Option (Nat × List Char)
  | a :: b :: rest => (digitsValue? [a, b]).map (·, rest)
  | _ => none

/-- Reads an offset from universal time, in seconds: `Z`, `UTC`, or a sign with hours and minutes. A
minus may be the one of typography. -/
def offset? (cs : List Char) : Option (Int × List Char) :=
  let signed (sign : Int) (cs : List Char) : Option (Int × List Char) := do
    let (hours, cs) ← twoDigits? cs
    let (minutes, cs) ← twoDigits? (cs.dropWhile fun c => c = ':' || isBlank c)
    if 59 < minutes then none
    return (sign * (hours * 3600 + minutes * 60), cs)
  if (cs.take 3).map Char.toUpper = ['U', 'T', 'C'] then some (0, cs.drop 3)
  else match cs with
    | 'Z' :: rest => some (0, rest)
    | 'z' :: rest => some (0, rest)
    | '+' :: rest => signed 1 rest
    | '-' :: rest => signed (-1) rest
    | '\u2212' :: rest => signed (-1) rest
    | _ => none

/-- Reads a date and a time of day with its offset, and blanks between the parts. A day that is not
in the calendar has no timestamp. Any minute may have a leap second. -/
def ofText? (text : String) : Option Timestamp := do
  let (year, cs) ← year? text.toList
  let (month, cs) ← number? 2 (← mark? '-' cs)
  let (day, cs) ← number? 2 (← mark? '-' cs)
  let cs ← match cs with
    | c :: rest => if c = 'T' ∨ c = 't' ∨ c = ' ' then some rest else none
    | [] => none
  let (hour, cs) ← number? 2 cs
  let (minute, cs) ← number? 2 (← mark? ':' cs)
  let (second, cs) ← number? 2 (← mark? ':' cs)
  let (nanos, cs) ← fraction? cs
  let (offset, cs) ← offset? (skipBlanks cs)
  let date : Date := ⟨year, month, day⟩
  if (skipBlanks cs).isEmpty ∧ date.isValid ∧ hour < 24 ∧ minute < 60 ∧ second ≤ 60 ∧
      offset.natAbs < 86400 then
    let wall ← ofParts? (date.toDays * 86400 + hour * 3600 + minute * 60 + min second 59) nanos
    let t ← ofParts? (wall.seconds - offset) wall.nanos
    if second = 60 then t.leap? else some t
  else none

end Timestamp

end Settlement
