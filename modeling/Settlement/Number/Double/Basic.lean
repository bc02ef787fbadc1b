import Settlement.Number.Rounding

namespace Settlement

attribute [local instance (high)] instPowNat

/-- The size of a finite double, `mantissa * 2 ^ exponent`. The sign is kept elsewhere. -/
structure Double where
  mantissa : Nat
  exponent : Int
deriving DecidableEq

namespace Double

/-- The exponent of the smallest positive double. -/
def minExponent : Int := -1074

/-- The largest exponent of a mantissa of 53 bits. -/
def maxExponent : Int := 971

/-- The power of two at or below a positive ratio, as its exponent. The logarithms of both parts are
off by one at most. -/
def magnitude (num den : Nat) : Int :=
  let e : Int := (num.log2 : Int) - den.log2
  if den * 2 ^ e.toNat ≤ num * 2 ^ (-e).toNat then e else e - 1

/-- The double nearest to `num / den`, a tie going to the even mantissa. There is none when the
ratio is beyond the largest double. -/
def nearest? (num den : Nat) : Option Double :=
  if num = 0 then some ⟨0, minExponent⟩
  else
    let e := max (magnitude num den - 52) minExponent
    let m := divHalfEven (num * 2 ^ (-e).toNat) (den * 2 ^ e.toNat)
    let (m, e) := if m = 2 ^ (53 : Nat) then (2 ^ (52 : Nat), e + 1) else (m, e)
    if maxExponent < e then none else some ⟨m, e⟩

/-- The value as a numerator over a power of two, which is the denominator. -/
def numerator (x : Double) : Nat := x.mantissa * 2 ^ x.exponent.toNat

def denominator (x : Double) : Nat := 2 ^ (-x.exponent).toNat

def isZero (x : Double) : Bool := x.mantissa = 0

/-- The product by a single rounding of the exact value, unless it is too large. -/
def mul? (x y : Double) : Option Double :=
  nearest? (x.numerator * y.numerator) (x.denominator * y.denominator)

/-- The quotient by a positive double, by a single rounding of the exact value, unless it is too
large. -/
def div? (x y : Double) : Option Double :=
  nearest? (x.numerator * y.denominator) (x.denominator * y.numerator)

end Double

end Settlement
