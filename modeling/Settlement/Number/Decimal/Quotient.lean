import Settlement.Number.Decimal.Basic

namespace Settlement.Decimal

attribute [local instance (high)] instPowNat

/-- The most digits, up to `limit`, that can be appended to `q` within 96 bits. They are produced up
to nine at a time. -/
def roomAfter (q : Nat) : Nat → Nat
  | 0 => 0
  | p + 1 => if q * 10 ^ (p + 1) < 2 ^ (96 : Nat) then p + 1 else roomAfter q p

theorem roomAfter_le (q limit : Nat) : roomAfter q limit ≤ limit := by
  induction limit with
  | zero => exact Nat.le_refl _
  | succ p ih =>
    simp only [roomAfter]
    split <;> omega

/-- The quotient of a long division, with its scale and whether digits were appended to it. Its
trailing zeros are dropped only if there were. -/
structure LongQuotient where
  digits : Nat
  scale : Int
  extended : Bool

/-- The quotient `q`, to which a fraction of a unit is missing if `inexact`, rounded to 96 bits: if
it has more, its last digit is dropped, half to even. A quotient that comes to have 97 bits is
therefore rounded at the digit before its last. -/
def LongQuotient.ofDigits (q : Nat) (inexact : Bool) (s : Int) : LongQuotient :=
  if q < 2 ^ (96 : Nat) then ⟨q, s, true⟩
  else
    let kept := q / 10
    let digit := q % 10
    ⟨if 5 < digit ∨ (digit = 5 ∧ (inexact ∨ kept % 2 = 1)) then kept + 1 else kept, s - 1, true⟩

/-- Continues the long division by `d` from the quotient `q`, the remainder `r` and the scale `s`,
until nothing remains or no further digit fits. The last digit is rounded half to even. -/
def longDivision (d q r : Nat) (s : Int) (extended : Bool) : LongQuotient :=
  if r = 0 then
    if 0 ≤ s then ⟨q, s, extended⟩
    else
      let p := min 9 (-s).toNat
      longDivision d (q * 10 ^ p) 0 (s + p) extended
  else
    let p := roomAfter q (min 9 (28 - s).toNat)
    if p = 0 then
      .ofDigits (if d < 2 * r ∨ (2 * r = d ∧ q % 2 = 1) then q + 1 else q) true s
    else
      let longer := q * 10 ^ p + r * 10 ^ p / d
      let rest := r * 10 ^ p % d
      if longer < 2 ^ (96 : Nat) then longDivision d longer rest (s + p) true
      else .ofDigits longer (rest != 0) (s + p)
termination_by (28 - s).toNat
decreasing_by
  · omega
  · have := roomAfter_le q (min 9 (28 - s).toNat)
    omega

/-- Drops `n` zeros at a time as long as `q` ends in `n` zeros and its binary digits end in 32 of
them. -/
def dropGroups (n : Nat) (hn : 0 < n) (q s : Nat) : Nat × Nat :=
  if q % 2 ^ (32 : Nat) = 0 ∧ n ≤ s ∧ q % 10 ^ n = 0 then
    dropGroups n hn (q / 10 ^ n) (s - n)
  else (q, s)
termination_by s
decreasing_by omega

/-- Drops `n` zeros once, if there are as many and the scale allows it. -/
def dropGroup (n : Nat) (qs : Nat × Nat) : Nat × Nat :=
  if n ≤ qs.2 ∧ qs.1 % 10 ^ n = 0 then (qs.1 / 10 ^ n, qs.2 - n) else qs

/-- The quotient; there is none for a zero divisor or when its integer part is too large. In the end
the zeros that the groups of digits left over are dropped in groups of eight, four, two and one. -/
def div? (a b : Decimal) : Option Decimal :=
  if b.magnitude = 0 then none
  else if a.magnitude = 0 then some zero
  else
    let m := a.magnitude
    let d := b.magnitude
    let long := longDivision d (m / d) (m % d) ((a.scale : Int) - b.scale) false
    if long.scale < 0 then none
    else
      let s := long.scale.toNat
      let (q, s) :=
        if long.extended then
          dropGroup 1 (dropGroup 2 (dropGroup 4 (dropGroups 8 (by decide) long.digits s)))
        else (long.digits, s)
      (ofParts? (a.negative != b.negative) q s).map plainZero

end Settlement.Decimal
