import Settlement.Number.Rounding
import Settlement.Number.Word

namespace Settlement

attribute [local instance (high)] instPowNat

/-- The number `magnitude / 10 ^ scale`, or its negative, of limited precision. Two decimals of one
value may differ in scale (`1` and `1.00`), and the scale shows in print, so every operation fixes
the scale of its answer as well as its value. The same holds of the sign of a zero. -/
structure Decimal where
  negative : Bool
  magnitude : Nat
  scale : Nat
  magnitude_lt : magnitude < 2 ^ (96 : Nat)
  scale_le : scale ≤ 28
deriving DecidableEq

namespace Decimal

/-- The most fraction digits that a decimal can have. -/
def maxScale : Nat := 28

/-- The decimal of these parts, if the magnitude has 96 bits and the scale is not above the largest
one. -/
def ofParts? (negative : Bool) (magnitude scale : Nat) : Option Decimal :=
  if h : magnitude < 2 ^ (96 : Nat) ∧ scale ≤ 28 then
    some ⟨negative, magnitude, scale, h.1, h.2⟩
  else none

def zero : Decimal := ⟨false, 0, 0, by decide, by decide⟩

def one : Decimal := ⟨false, 1, 0, by decide, by decide⟩

/-- One percent, which is the rate at which fees change unless a schedule says otherwise. -/
def hundredth : Decimal := ⟨false, 1, 2, by decide, by decide⟩

def hundred : Decimal := ⟨false, 100, 0, by decide, by decide⟩

instance : Inhabited Decimal := ⟨zero⟩

/-- A count as a decimal without fraction digits. It is always within 96 bits. -/
def ofCount (n : Count) : Decimal :=
  ⟨false, n.val, 0, Nat.lt_trans n.isLt (by decide), by decide⟩

/-- The value times `10 ^ scale`, which is an integer. Sums are formed with it. -/
def coefficient (a : Decimal) : Int := if a.negative then -a.magnitude else a.magnitude

/-- The same number, where a zero has no sign. Most operations give their zeros in this form. -/
def plainZero (a : Decimal) : Decimal := { a with negative := a.negative && a.magnitude != 0 }

/-- The number of the opposite sign, which a difference is formed with. A zero stays as it is. -/
def neg (a : Decimal) : Decimal := { a with negative := a.negative != (a.magnitude != 0) }

@[simp] theorem coefficient_plainZero (a : Decimal) : a.plainZero.coefficient = a.coefficient := by
  by_cases h : a.magnitude = 0 <;> simp [plainZero, coefficient, h]

@[simp] theorem coefficient_neg (a : Decimal) : a.neg.coefficient = -a.coefficient := by
  by_cases h : a.magnitude = 0 <;> cases hs : a.negative <;> simp [neg, coefficient, h, hs]

/-- How often `m` has to be divided by ten until it has 96 bits. So many of its digits are lost at
least. -/
def excessDigits (m : Nat) : Nat :=
  if m < 2 ^ (96 : Nat) then 0 else excessDigits (m / 10) + 1
termination_by m
decreasing_by omega

/-- The decimal nearest to `m / 10 ^ s` with a sign: as few fraction digits are dropped as the
bounds on magnitude and scale allow, and there is none if the integer part alone is too large. Every
product and every sum is fitted by it. -/
def fit? (negative : Bool) (m s : Nat) : Option Decimal :=
  let dropped := max (s - maxScale) (excessDigits m)
  if s < dropped then none
  else
    let kept := divHalfEven m (10 ^ dropped)
    if kept < 2 ^ (96 : Nat) then ofParts? negative kept (s - dropped)
    else if s = dropped then none
    else ofParts? negative (divHalfEven kept 10) (s - dropped - 1)

/-- The product, unless it is too large. One that is rounded to zero has a sign only if a factor has
more than 32 bits. Two shorter factors whose product has more than 47 fraction digits give zero
without fraction digits. -/
def mul? (a b : Decimal) : Option Decimal :=
  if a.magnitude = 0 ∨ b.magnitude = 0 then some zero
  else
    let product? := fit? (a.negative != b.negative) (a.magnitude * b.magnitude) (a.scale + b.scale)
    if a.magnitude < 2 ^ (32 : Nat) ∧ b.magnitude < 2 ^ (32 : Nat) then
      if 47 < a.scale + b.scale then some zero else product?.map plainZero
    else product?

/-- The sum, at the larger of the two scales, unless it is too large. A zero adds nothing to the
scale of the other. -/
def add? (a b : Decimal) : Option Decimal :=
  if a.magnitude = 0 then some b
  else if b.magnitude = 0 then some a
  else
    let s := max a.scale b.scale
    let sum := a.coefficient * 10 ^ (s - a.scale) + b.coefficient * 10 ^ (s - b.scale)
    fit? (decide (sum < 0)) sum.natAbs s

/-- The difference, formed as the sum with the number of the opposite sign. -/
def sub? (a b : Decimal) : Option Decimal := a.add? b.neg

/-- Half-even rounding to at most `places` fraction digits. A shorter number is left alone, and no
rounding takes a number out of bounds. -/
def round (a : Decimal) (places : Nat) : Decimal :=
  if h : a.scale ≤ places then a
  else
    plainZero
      { negative := a.negative
        magnitude := divHalfEven a.magnitude (10 ^ (a.scale - places))
        scale := places
        magnitude_lt := by
          have hten : 10 ≤ 10 ^ (a.scale - places) := Nat.le_self_pow (by omega) 10
          have hdiv : a.magnitude / 10 ^ (a.scale - places) ≤ a.magnitude / 10 :=
            Nat.div_le_div_left hten (by decide)
          have hround := divHalfEven_le_succ a.magnitude (10 ^ (a.scale - places))
          have hbound := a.magnitude_lt
          omega
        scale_le := by have := a.scale_le; omega }

/-- The fewest digits at which `m / 10 ^ s` can be written, with the scale that is left. -/
def dropZeros (m : Nat) : Nat → Nat × Nat
  | 0 => (m, 0)
  | s + 1 => if m % 10 = 0 then dropZeros (m / 10) s else (m, s + 1)

/-- Without its trailing zeros a number is no larger, so that `normalize` stays within bounds. -/
theorem dropZeros_fst_le (m s : Nat) : (dropZeros m s).1 ≤ m := by
  induction s generalizing m with
  | zero => exact Nat.le_refl _
  | succ s ih =>
    simp only [dropZeros]
    split
    · exact Nat.le_trans (ih _) (Nat.div_le_self _ _)
    · exact Nat.le_refl _

theorem dropZeros_snd_le (m s : Nat) : (dropZeros m s).2 ≤ s := by
  induction s generalizing m with
  | zero => exact Nat.le_refl _
  | succ s ih =>
    simp only [dropZeros]
    split
    · exact Nat.le_succ_of_le (ih _)
    · exact Nat.le_refl _

/-- The same value without trailing zeros in its fraction, as it is printed in summaries. -/
def normalize (a : Decimal) : Decimal :=
  plainZero
    { negative := a.negative
      magnitude := (dropZeros a.magnitude a.scale).1
      scale := (dropZeros a.magnitude a.scale).2
      magnitude_lt := Nat.lt_of_le_of_lt (dropZeros_fst_le _ _) a.magnitude_lt
      scale_le := Nat.le_trans (dropZeros_snd_le _ _) a.scale_le }

/-- The coefficient at the largest scale. Decimals are ordered as these integers are. -/
def atMaxScale (a : Decimal) : Int := a.coefficient * 10 ^ (maxScale - a.scale)

instance : LE Decimal := ⟨fun a b => a.atMaxScale ≤ b.atMaxScale⟩

instance : LT Decimal := ⟨fun a b => a.atMaxScale < b.atMaxScale⟩

instance (a b : Decimal) : Decidable (a ≤ b) := inferInstanceAs (Decidable (_ ≤ (_ : Int)))

instance (a b : Decimal) : Decidable (a < b) := inferInstanceAs (Decidable (_ < (_ : Int)))

/-- Equal in value, whatever the scales and whatever the sign of a zero. -/
def SameValue (a b : Decimal) : Prop := a.atMaxScale = b.atMaxScale

instance (a b : Decimal) : Decidable (SameValue a b) := inferInstanceAs (Decidable (_ = (_ : Int)))

end Decimal

end Settlement
