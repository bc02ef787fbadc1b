import Settlement.Number.Rounding

namespace Settlement

/-- Half-even rounding keeps the order: a larger quotient is never rounded to a smaller integer. Two
quotients with one integer part are told apart by their remainders, and the larger remainder is
rounded up whenever the smaller one is. -/
theorem divHalfEven_le_divHalfEven {n m : Nat} (d : Nat) (h : n ≤ m) :
    divHalfEven n d ≤ divHalfEven m d := by
  have hquot : n / d ≤ m / d := Nat.div_le_div_right h
  by_cases hsame : n / d = m / d
  · have hn := Nat.div_add_mod n d
    have hm := Nat.div_add_mod m d
    rw [hsame] at hn
    have hrest : n % d ≤ m % d := by omega
    simp only [divHalfEven, hsame]
    split
    · split
      · omega
      · omega
    · split
      · omega
      · omega
  · have hn := divHalfEven_le_succ n d
    have hm := div_le_divHalfEven m d
    omega

/-- A common factor of numerator and denominator makes no difference, so only the quotient counts
and not the fraction that it is written as. -/
theorem divHalfEven_mul_mul {c : Nat} (hc : 0 < c) (n d : Nat) :
    divHalfEven (n * c) (d * c) = divHalfEven n d := by
  have hup : d * c < 2 * (n % d * c) ↔ d < 2 * (n % d) := by
    rw [← Nat.mul_assoc]
    exact Nat.mul_lt_mul_right hc
  have htie : 2 * (n % d * c) = d * c ↔ 2 * (n % d) = d := by
    rw [← Nat.mul_assoc]
    exact Nat.mul_left_inj (Nat.ne_of_gt hc)
  simp only [divHalfEven, Nat.mul_div_mul_right _ _ hc, Nat.mul_mod_mul_right, hup, htie]

theorem divHalfEven_eq_zero {n d : Nat} (h : 2 * n < d) : divHalfEven n d = 0 := by
  have hn : n < d := by omega
  simp only [divHalfEven, Nat.div_eq_of_lt hn, Nat.mod_eq_of_lt hn]
  split
  · omega
  · rfl

/-- Of two integers that are equally near the even one is taken, which is what half-even means. -/
theorem even_divHalfEven_of_tie {n d : Nat} (hd : 0 < d)
    (h : 2 * (divHalfEven n d * d) = 2 * n + d ∨ 2 * n = 2 * (divHalfEven n d * d) + d) :
    divHalfEven n d % 2 = 0 := by
  have hn := Nat.div_add_mod n d
  have hr := Nat.mod_lt n hd
  rw [Nat.mul_comm] at hn
  simp only [divHalfEven] at h ⊢
  split at h
  · next hup =>
    rw [if_pos hup]
    rw [Nat.add_mul] at h
    omega
  · next hdown =>
    rw [if_neg hdown]
    omega

end Settlement
