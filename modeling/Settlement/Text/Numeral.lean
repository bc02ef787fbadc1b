import Settlement.Number.Decimal.Text
import Settlement.Number.Double.Text

namespace Settlement

attribute [local instance (high)] instPowNat

/-- The parts of a number as JSON writes it: an optional minus, an integer without needless zeros, a
fraction and a power of ten. Digits are listed from left to right. -/
structure Numeral where
  negative : Bool := false
  whole : List Nat
  fraction : Option (List Nat) := none
  /-- Whether the power of ten is negative, and its digits. -/
  exponent : Option (Bool × List Nat) := none
deriving DecidableEq

/-- The number with these digits, most significant first. -/
def ofDigits (digits : List Nat) : Nat := digits.foldl (fun n d => 10 * n + d) 0

/-- The digits of a number, most significant first. Zero has one digit. -/
def digitsOf (n : Nat) : List Nat :=
  if n < 10 then [n] else digitsOf (n / 10) ++ [n % 10]
termination_by n
decreasing_by omega

namespace Numeral

/-- A number as it is written without a sign, fraction or power of ten. -/
def ofNat (n : Nat) : Numeral := { whole := digitsOf n }

/-- Splits off the digits at the start of a text, of which there may be none. -/
def spanDigits : List Char → List Nat × List Char
  | [] => ([], [])
  | c :: rest =>
    match digitValue? c with
    | some d => let (digits, rest) := spanDigits rest; (d :: digits, rest)
    | none => ([], c :: rest)

/-- Splits off a fraction, if the text begins with a point. At least one digit has to follow the
point. -/
def fraction? : List Char → Option (Option (List Nat) × List Char)
  | '.' :: rest =>
    let (digits, rest) := spanDigits rest
    if digits.isEmpty then none else some (some digits, rest)
  | cs => some (none, cs)

/-- Reads a power of ten, if there is one, up to the end of the text. Its sign may be left out, its
digits may not. -/
def exponent? : List Char → Option (Option (Bool × List Nat))
  | [] => some none
  | mark :: rest =>
    if mark = 'e' ∨ mark = 'E' then
      let (negative, rest) := match rest with
        | '-' :: rest => (true, rest)
        | '+' :: rest => (false, rest)
        | _ => (false, rest)
      let (digits, rest) := spanDigits rest
      if digits.isEmpty ∨ !rest.isEmpty then none else some (some (negative, digits))
    else none

/-- Reads a text that consists of a number. An integer part of several digits does not begin with a
zero. -/
def ofChars? (cs : List Char) : Option Numeral := do
  let (negative, cs) := match cs with
    | '-' :: rest => (true, rest)
    | _ => (false, cs)
  let (whole, cs) := spanDigits cs
  if whole.isEmpty ∨ (whole.length ≠ 1 ∧ whole.head? = some 0) then none
  let (fraction, cs) ← fraction? cs
  let exponent ← exponent? cs
  return { negative, whole, fraction, exponent }

/-- Digits as they are written. -/
def digitChars (digits : List Nat) : List Char := digits.map Nat.digitChar

/-- The text of a number. A power of ten is written with a small letter and without a plus. -/
def toChars (n : Numeral) : List Char :=
  let sign := if n.negative then ['-'] else []
  let fraction := match n.fraction with
    | some digits => '.' :: digitChars digits
    | none => []
  let exponent := match n.exponent with
    | some (negative, digits) => 'e' :: (if negative then ['-'] else []) ++ digitChars digits
    | none => []
  sign ++ digitChars n.whole ++ fraction ++ exponent

/-- Whether there is neither a fraction nor a power of ten. Only such a number is read exactly. -/
def isWhole (n : Numeral) : Bool := n.fraction.isNone && n.exponent.isNone

/-- The value of a number that is written as an integer without a sign, which is how counts and
amounts are read. -/
def nat? (n : Numeral) : Option Nat :=
  if n.isWhole ∧ !n.negative then some (ofDigits n.whole) else none

/-- Appends digits to a number as long as the result has 64 bits. Gives the digits that are left. -/
def appendDigits (m : Nat) : List Nat → Nat × List Nat
  | [] => (m, [])
  | d :: rest => if 10 * m + d < 2 ^ (64 : Nat) then appendDigits (10 * m + d) rest else (m, d :: rest)

/-- The leading digits as a number of 64 bits, and the power of ten that they count. The digits that
are left raise it if they are of the integer part; those of the fraction are lost. -/
def significand (n : Numeral) : Nat × Int :=
  let fraction := n.fraction.getD []
  let (m, left) := appendDigits 0 n.whole
  let (m, dropped) := appendDigits m fraction
  (m, (left.length : Int) - (fraction.length - dropped.length))

/-- Powers of ten above this one are not doubles, so larger ones are taken in steps of this size. -/
def maxPower : Nat := 308

/-- The double of `10 ^ e`, for an `e` of at most `maxPower`. -/
def power? (e : Nat) : Option Double := Double.nearest? (10 ^ e) 1

/-- Divides by `10 ^ e` in steps of at most `10 ^ maxPower`, each of which rounds. -/
def scaleDown? (x : Double) (e : Nat) : Option Double :=
  if e ≤ maxPower then do x.div? (← power? e)
  else if x.isZero then some x
  else do scaleDown? (← x.div? (← power? maxPower)) (e - maxPower)
termination_by e
decreasing_by simp only [maxPower] at *; omega

/-- Multiplies by `10 ^ e`. There is no second step: the product would be too large for a double
unless it is zero. -/
def scaleUp? (x : Double) (e : Nat) : Option Double :=
  if e ≤ maxPower then do x.mul? (← power? e)
  else if x.isZero then some x
  else none

/-- The power of ten that is written, which is zero if there is none. It is unbounded from 2 ^ 31
on. -/
def writtenPower (n : Numeral) : Int :=
  match n.exponent with
  | some (negative, digits) => if negative then -ofDigits digits else ofDigits digits
  | none => 0

/-- The size of the number as a double, unless it is too large for one: the leading digits, times or
over the power of ten that the text gives them, with a rounding at every step. It is not always the
nearest double. -/
def double? (n : Numeral) : Option Double := do
  let (m, e) := n.significand
  let x ← Double.nearest? m 1
  let power := n.writtenPower
  if 2 ^ (31 : Nat) ≤ power.natAbs then if 0 < power ∧ m ≠ 0 then none else Double.nearest? 0 1
  else
    let e := e + power
    if 0 ≤ e then scaleUp? x e.toNat else scaleDown? x (-e).toNat

/-- The value as a decimal: exact for integers of 64 bits with or without a sign, otherwise the
shortest text of the double. -/
def decimal? (n : Numeral) : Option Decimal :=
  let size := ofDigits n.whole
  if n.isWhole ∧ !n.negative ∧ size < 2 ^ (64 : Nat) then Decimal.ofParts? false size 0
  else if n.isWhole ∧ n.negative ∧ 0 < size ∧ size ≤ 2 ^ (63 : Nat) then Decimal.ofParts? true size 0
  else do
    let x ← n.double?
    Decimal.plain? ((if n.negative then ['-'] else []) ++ x.toChars)

end Numeral

end Settlement
