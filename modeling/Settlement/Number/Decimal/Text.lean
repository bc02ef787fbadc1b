import Settlement.Number.Decimal.Basic

namespace Settlement

attribute [local instance (high)] instPowNat

/-- The digits of `n`, with zeros in front up to a width of `width`. A longer number keeps all its
digits. -/
def paddedDigits (width n : Nat) : List Char :=
  let digits := Nat.toDigits 10 n
  List.replicate (width - digits.length) '0' ++ digits

/-- The value of a decimal digit. Other characters have none, digits of other scripts included. -/
def digitValue? (c : Char) : Option Nat :=
  if '0' ≤ c ∧ c ≤ '9' then some (c.toNat - '0'.toNat) else none

/-- The number that a text of digits alone writes; an empty text writes none. -/
def digitsValue? (cs : List Char) : Option Nat :=
  if cs.isEmpty then none
  else cs.foldl (fun n? c => do return (← n?) * 10 + (← digitValue? c)) (some 0)

namespace Decimal

/-- Writes the sign, the integer part and, if the scale is positive, a point and the fraction. Every
fraction digit is written, zeros included, and a number below one has a zero before the point. -/
def toChars (a : Decimal) : List Char :=
  let digits := paddedDigits (a.scale + 1) a.magnitude
  let whole := digits.length - a.scale
  let sign := if a.negative then ['-'] else []
  let fraction := if a.scale = 0 then [] else '.' :: digits.drop whole
  sign ++ digits.take whole ++ fraction

def toText (a : Decimal) : String := String.ofList a.toChars

instance : ToString Decimal := ⟨toText⟩

/-- The number `m / 10 ^ s` after a further digit, which is rounded half up and ends the number.
There is none when rounding takes an integer out of bounds. -/
def roundedUp? (m s digit : Nat) : Option (Nat × Nat) :=
  if digit < 5 then some (m, s)
  else if m + 1 < 2 ^ (96 : Nat) then some (m + 1, s)
  else if s = 0 then none
  else some ((m + 5) / 10, s - 1)

/-- Whether nothing but digits and separators is left, which is all that may follow the digit that
ended the number. -/
def isTail (cs : List Char) : Bool := cs.all fun c => (digitValue? c).isSome || c = '_'

/-- Digits are collected in a narrow register of 64 bits until they reach this number. -/
def narrowBound : Nat := (2 ^ (64 : Nat) - 1) / 10 - 255

/-- Reads the digits of an unsigned number after `m / 10 ^ s`. `point` says whether the point was
read, and `started` whether a digit was. A digit beyond the precision rounds the number and ends it;
what follows has to be digits and separators. A separator in place of that digit is passed over in a
wide register and stands for a zero in a narrow one. -/
def readDigits (point started : Bool) (m s : Nat) : List Char → Option (Nat × Nat)
  | [] => if started then some (m, s) else none
  | c :: rest =>
    match digitValue? c with
    | some d =>
      if (point ∧ maxScale ≤ s) ∨ 2 ^ (96 : Nat) ≤ m * 10 + d then
        if point ∧ isTail rest then roundedUp? m s d else none
      else readDigits point true (m * 10 + d) (if point then s + 1 else s) rest
    | none =>
      if c = '.' ∧ !point then readDigits true started m s rest
      else if c = '_' ∧ started then
        if point ∧ maxScale ≤ s ∧ m / 10 < narrowBound then
          if isTail rest then some (m, s) else none
        else readDigits point started m s rest
      else none

/-- A number without its sign as it is read, to which the sign is then given. A zero has none. -/
def ofDigits? (negative : Bool) (cs : List Char) : Option Decimal := do
  let (m, s) ← readDigits false false 0 0 cs
  (ofParts? negative m s).map plainZero

/-- Reads an optional sign and digits around at most one point. -/
def plain? : List Char → Option Decimal
  | '-' :: rest => ofDigits? true rest
  | '+' :: rest => ofDigits? false rest
  | cs => ofDigits? false cs

/-- The number `a * 10 ^ e` for a signed `e` of at most 28. The point is moved, and zeros are
appended where the fraction has too few digits for that. Digits that move beyond the precision are
rounded half up, and a zero that comes of it keeps the sign. -/
def shift? (a : Decimal) (negative : Bool) (e : Nat) : Option Decimal :=
  if maxScale < e then none
  else if negative then
    let beyond := a.scale + e - maxScale
    if beyond = 0 then ofParts? a.negative a.magnitude (a.scale + e)
    else ofParts? a.negative ((a.magnitude + 5 * 10 ^ (beyond - 1)) / 10 ^ beyond) maxScale
  else if e ≤ a.scale then ofParts? a.negative a.magnitude (a.scale - e)
  else ofParts? a.negative (a.magnitude * 10 ^ (e - a.scale)) 0

/-- Reads an exponent of ten: a minus, a plus and digits, of which both signs may be missing. -/
def exponent? (cs : List Char) : Option (Bool × Nat) :=
  let (negative, cs) := match cs with
    | '-' :: rest => (true, rest)
    | _ => (false, cs)
  let cs := match cs with
    | '+' :: rest => rest
    | _ => cs
  (digitsValue? cs).map (negative, ·)

/-- Reads a number with an exponent after the first `e` of either case. -/
def scientific? (cs : List Char) : Option Decimal :=
  let isMark (c : Char) : Bool := c = 'e' || c = 'E'
  match cs.dropWhile (!isMark ·) with
  | [] => none
  | _ :: power => do
    let a ← plain? (cs.takeWhile (!isMark ·))
    let (negative, e) ← exponent? power
    a.shift? negative e

/-- Reads a decimal in either way of writing. What reads plainly is not read a second time. -/
def ofText? (text : String) : Option Decimal :=
  let cs := text.toList
  plain? cs <|> scientific? cs

end Decimal

end Settlement
