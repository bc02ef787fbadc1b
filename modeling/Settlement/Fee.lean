import Settlement.Error
import Settlement.Number.Decimal.Text

namespace Settlement

/-- Whether fees rise or fall from period to period. -/
inductive FeeCurve
  | growth
  | decay
deriving DecidableEq

/-- How the fee per operation depends on the period: it is the base fee times a factor to the power
of the period's number, `1 + rate` when fees grow and `1 - rate` when they decay. -/
structure FeeSchedule where
  /-- The fee per operation in period 0. -/
  baseFee : Decimal := Decimal.one
  /-- The change from one period to the next, as a fraction. -/
  rate : Decimal := Decimal.hundredth
  curve : FeeCurve := .decay
deriving DecidableEq

namespace Decimal

/-- Multiplies `acc` by `square ^ exp`, by squaring. Every product is rounded as decimal
multiplication rounds, and the last square is left out when nothing is multiplied by it. -/
def powFrom? (acc square : Decimal) (exp : Nat) : Option Decimal :=
  if exp = 0 then some acc
  else do
    let acc ← if exp % 2 = 1 then acc.mul? square else some acc
    if exp / 2 = 0 then some acc
    else
      let square ← square.mul? square
      powFrom? acc square (exp / 2)
termination_by exp
decreasing_by omega

/-- The power `base ^ exp` by squaring, unless some product on the way is too large. -/
def pow? (base : Decimal) (exp : Nat) : Option Decimal := powFrom? one base exp

end Decimal

namespace FeeSchedule

instance : Inhabited FeeSchedule := ⟨{}⟩

/-- Neither number may have a minus, not even a zero, and fees cannot decay by more than all. -/
def validate (s : FeeSchedule) : Result Unit := do
  require (!s.baseFee.negative) (.configuration "fee base must be non-negative")
  require (!s.rate.negative) (.configuration "fee rate must be non-negative")
  require (¬ (s.curve = .decay ∧ Decimal.one < s.rate))
    (.configuration "decay rate must not exceed 1")

/-- What the fee is multiplied by from one period to the next, if growing does not take it out of
bounds. -/
def factor? (s : FeeSchedule) : Option Decimal :=
  match s.curve with
  | .growth => Decimal.one.add? s.rate
  | .decay => Decimal.one.sub? s.rate

/-- The fee per operation in a period, if no product on the way is too large. -/
def feeOf? (s : FeeSchedule) (period : PeriodId) : Option Decimal := do
  let factor ← s.factor?
  let power ← factor.pow? period.number.val
  s.baseFee.mul? power

/-- The fee per operation in a period, or the refusal of one that is too large. -/
def feeOf (s : FeeSchedule) (period : PeriodId) : Result Decimal :=
  orRefuse (.overflow "period fee") (s.feeOf? period)

end FeeSchedule

/-- The fee of `count` operations, or the refusal of one that is too large. -/
def totalFee (fee : Decimal) (count : Count) : Result Decimal :=
  orRefuse (.overflow "period fee") (fee.mul? (Decimal.ofCount count))

end Settlement
