namespace Settlement

/-- The integer nearest to `n / d`, the even one of two that are equally near. -/
def divHalfEven (n d : Nat) : Nat :=
  let q := n / d
  let r := n % d
  if d < 2 * r ∨ (2 * r = d ∧ q % 2 = 1) then q + 1 else q

theorem divHalfEven_mul_le (n : Nat) {d : Nat} (hd : 0 < d) :
    2 * (divHalfEven n d * d) ≤ 2 * n + d ∧ 2 * n ≤ 2 * (divHalfEven n d * d) + d := by
  have hn := Nat.div_add_mod n d
  have hr := Nat.mod_lt n hd
  rw [Nat.mul_comm] at hn
  simp only [divHalfEven]
  split
  · rw [Nat.add_mul]
    omega
  · omega

theorem div_le_divHalfEven (n d : Nat) : n / d ≤ divHalfEven n d := by
  simp only [divHalfEven]
  split <;> omega

theorem divHalfEven_le_succ (n d : Nat) : divHalfEven n d ≤ n / d + 1 := by
  simp only [divHalfEven]
  split <;> omega

@[simp] theorem divHalfEven_one (n : Nat) : divHalfEven n 1 = n := by
  simp [divHalfEven, Nat.mod_one]

end Settlement
