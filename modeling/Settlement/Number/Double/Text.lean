import Settlement.Number.Double.Basic

namespace Settlement.Double

attribute [local instance (high)] instPowNat

/-- The value and the ends of the interval of reals that round to it, all three times `scale`. Both
ends belong to the interval exactly if the mantissa is even. -/
structure Neighbourhood where
  low : Nat
  value : Nat
  high : Nat
  scale : Nat
  closed : Bool

/-- The interval of a double. The gap below a power of two is half the gap above it, except at the
smallest exponent. -/
def neighbourhood (x : Double) : Neighbourhood :=
  let down := if x.mantissa = 2 ^ (52 : Nat) ∧ minExponent < x.exponent then 1 else 2
  let unit : Nat := 2 ^ (x.exponent - 2).toNat
  { low := (4 * x.mantissa - down) * unit
    value := 4 * x.mantissa * unit
    high := (4 * x.mantissa + 2) * unit
    scale := 2 ^ (2 - x.exponent).toNat
    closed := x.mantissa % 2 = 0 }

/-- Whether `c`, times the scale of the neighbourhood and `d`, rounds to the value in its middle.
This is decided in natural numbers. -/
def Neighbourhood.admits (n : Neighbourhood) (d c : Nat) : Bool :=
  if n.closed then n.low * d ≤ c && c ≤ n.high * d else n.low * d < c && c < n.high * d

/-- The multiple of `10 ^ e` nearest to the value among those that round to it, the larger one of
two that are equally near, as that multiple. -/
def Neighbourhood.onGrid? (n : Neighbourhood) (e : Int) : Option Nat :=
  let step : Nat := 10 ^ e.toNat * n.scale
  let d : Nat := 10 ^ (-e).toNat
  let below := n.value * d / step
  let takesBelow := n.admits d (below * step)
  let takesAbove := n.admits d ((below + 1) * step)
  if takesBelow && (!takesAbove || 2 * n.value * d < (2 * below + 1) * step) then some below
  else if takesAbove then some (below + 1)
  else none

/-- The first grid `10 ^ e` with a hit, from `e` downwards over `steps` grids. -/
def Neighbourhood.coarsest (n : Neighbourhood) (e : Int) : Nat → Nat × Int
  | 0 => (0, e)
  | steps + 1 =>
    match n.onGrid? e with
    | some digits => (digits, e)
    | none => coarsest n (e - 1) steps

/-- The fewest digits, as a whole number and the power of ten that it counts. Doubles lie below
`10 ^ 309` and are multiples of `2 ^ -1074`, so a grid between these two has a hit. -/
def shortest (x : Double) : Nat × Int := x.neighbourhood.coarsest 309 1400

/-- The text of `digits * 10 ^ e` without a power of ten, with a zero before the point if the number
is below one. -/
def positional (digits : Nat) (e : Int) : List Char :=
  let ds := Nat.toDigits 10 digits
  if 0 ≤ e then ds ++ List.replicate e.toNat '0'
  else
    let places := (-e).toNat
    let padded := List.replicate (places + 1 - ds.length) '0' ++ ds
    padded.take (padded.length - places) ++ '.' :: padded.drop (padded.length - places)

/-- The shortest text of a double that reads back as it, without a power of ten. -/
def toChars (x : Double) : List Char :=
  if x.isZero then ['0'] else positional x.shortest.1 x.shortest.2

end Settlement.Double
