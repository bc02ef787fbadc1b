import Settlement.Number.SquareRoot
import Settlement.Number.Word

namespace Settlement

attribute [local instance (high)] instPowNat

/-- The mean of `x` and `n / x`, rounded down, as a word of 64 bits. A quotient by zero or a sum
beyond the width would have no result. -/
def newtonMean? (n x : Count) : Option Count := do
  let quotient ← n.div? x
  let sum ← x.add? quotient
  sum.div? 2

/-- Improves `x` as an upper bound of the square root of `n` until it gets no smaller, in at most so
many turns. A search that is given too few turns has no result. -/
def newtonWithin? (n : Count) : Nat → Count → Option Count
  | 0, _ => none
  | turns + 1, x => do
    let y ← newtonMean? n x
    if x ≤ y then some x else newtonWithin? n turns y

/-- The integer part of the square root in at most so many turns. The start is a power of two that
is no smaller; the shift that forms it may not leave the width either. -/
def isqrtWithin? (turns : Nat) (n : Count) : Option Count :=
  if n < 2 then some n
  else do
    let start ← Word.ofNat? (2 ^ (n.val.log2 / 2 + 1))
    newtonWithin? n turns start

end Settlement
