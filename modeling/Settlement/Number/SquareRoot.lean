namespace Settlement

attribute [local instance (high)] instPowNat

/-- Improves `x` as an upper bound of the square root of `n` until it gets no smaller, by Newton's
method on natural numbers. -/
def newton (n x : Nat) : Nat :=
  let y := (x + n / x) / 2
  if y < x then newton n y else x
termination_by x

theorem newton_pos {n x : Nat} (hn : 0 < n) (hx : 0 < x) : 0 < newton n x := by
  fun_induction newton n x with
  | case1 x y hlt ih =>
    apply ih
    have hsum : 2 ≤ x + n / x := by
      by_cases hone : x = 1
      · rw [hone, Nat.div_one]
        omega
      · have hle : x ≤ x + n / x := Nat.le_add_right ..
        omega
    exact Nat.div_pos hsum Nat.two_pos
  | case2 x y hnot => exact hx

/-- The integer part of the square root. The start is a power of two that is no smaller, so that the
bound falls until it is the root. -/
def isqrt (n : Nat) : Nat := if n < 2 then n else newton n (2 ^ (n.log2 / 2 + 1))

theorem isqrt_pos {n : Nat} (hn : 0 < n) : 0 < isqrt n := by
  unfold isqrt
  split
  · exact hn
  · exact newton_pos hn (Nat.two_pow_pos _)

/-- The number of binary digits; none for zero. Scores count the digits of amounts with it. -/
def bitLength (n : Nat) : Nat := if n = 0 then 0 else n.log2 + 1

end Settlement
