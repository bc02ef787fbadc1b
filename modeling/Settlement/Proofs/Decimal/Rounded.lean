import Settlement.Proofs.Decimal.Value

namespace Settlement

/-- `y` is the number of so many places that is nearest to `x`, of two equally near the even one.
Half-even rounding is stated as a relation between fractions, so that it can be compared with what
is to be rounded and not only with what was. -/
def IsRounded (places : Nat) (x y : ℚ) : Prop :=
  ∃ n : ℤ, y * 10 ^ places = n ∧ |x * 10 ^ places - n| ≤ 1 / 2 ∧
    (|x * 10 ^ places - n| = 1 / 2 → Even n)

namespace IsRounded

variable {places : Nat} {x y z : ℚ} {n m : ℤ}

theorem neg (h : IsRounded places x y) : IsRounded places (-x) (-y) := by
  obtain ⟨n, hn, hnear, htie⟩ := h
  have hdist : |-x * 10 ^ places - (-n : ℤ)| = |x * 10 ^ places - n| := by
    rw [← abs_neg]
    congr 1
    push_cast
    ring
  refine ⟨-n, ?_, ?_, ?_⟩
  · rw [neg_mul, hn]
    push_cast
    rfl
  · rwa [hdist]
  · rw [hdist]
    exact fun h => (htie h).neg

/-- Two integers are both nearest only in a tie, and then one of them is odd. -/
private theorem nearest_unique (hn : |x - n| ≤ 1 / 2) (hm : |x - m| ≤ 1 / 2)
    (hn' : |x - n| = 1 / 2 → Even n) (hm' : |x - m| = 1 / 2 → Even m) : n = m := by
  wlog hlt : n < m generalizing n m
  · rcases lt_trichotomy n m with hlt' | heq | hgt
    · exact absurd hlt' hlt
    · exact heq
    · exact (this hm hn hm' hn' hgt).symm
  have hstep : (n : ℚ) + 1 ≤ m := by exact_mod_cast hlt
  obtain ⟨hlow, hhigh⟩ := abs_le.1 hn
  obtain ⟨hlow', hhigh'⟩ := abs_le.1 hm
  have hx : x = n + 1 / 2 := by linarith
  have hsucc : (m : ℚ) = n + 1 := by linarith
  have hdn : |x - n| = 1 / 2 := by
    rw [hx, add_sub_cancel_left]
    norm_num
  have hdm : |x - m| = 1 / 2 := by
    rw [hx, hsucc, abs_of_nonpos (by linarith)]
    linarith
  have hodd : m = n + 1 := by exact_mod_cast hsucc
  have hm2 := hm' hdm
  rw [hodd, Int.even_add_one] at hm2
  exact absurd (hn' hdn) hm2

theorem unique (h : IsRounded places x y) (h' : IsRounded places x z) : y = z := by
  obtain ⟨n, hn, hnear, htie⟩ := h
  obtain ⟨m, hm, hnear', htie'⟩ := h'
  have hsame : n = m := nearest_unique hnear hnear' htie htie'
  have hpow : (10 : ℚ) ^ places ≠ 0 := by positivity
  rw [hsame, ← hm] at hn
  exact mul_right_cancel₀ hpow hn

theorem abs_sub_le (h : IsRounded places x y) : |y - x| * 10 ^ places ≤ 1 / 2 := by
  obtain ⟨n, hn, hnear, -⟩ := h
  have hpow : (0 : ℚ) < 10 ^ places := by positivity
  have hscaled : |y - x| * 10 ^ places = |x * 10 ^ places - n| := by
    rw [← hn, abs_sub_comm, ← sub_mul, abs_mul, abs_of_pos hpow]
  rwa [hscaled]

theorem self (h : x * 10 ^ places = n) : IsRounded places x x := by
  refine ⟨n, h, ?_, ?_⟩
  · rw [h, sub_self, abs_zero]
    norm_num
  · rw [h, sub_self, abs_zero]
    norm_num

theorem mem_Icc (h : IsRounded places x y) (hn : n ≤ x * 10 ^ places)
    (hm : x * 10 ^ places ≤ m) : n ≤ y * 10 ^ places ∧ y * 10 ^ places ≤ m := by
  obtain ⟨k, hk, hnear, -⟩ := h
  obtain ⟨hlow, hhigh⟩ := abs_le.1 hnear
  rw [hk]
  have hlower : n < k + 1 := by
    have : (n : ℚ) < k + 1 := by linarith
    exact_mod_cast this
  have hupper : k < m + 1 := by
    have : (k : ℚ) < m + 1 := by linarith
    exact_mod_cast this
  exact ⟨by exact_mod_cast Int.le_of_lt_add_one hlower,
    by exact_mod_cast Int.le_of_lt_add_one hupper⟩

theorem of_near (h : IsRounded places x z)
    (hnear : ∀ n : ℤ, |x * 10 ^ places - y * 10 ^ places| < |y * 10 ^ places - (n + 1 / 2)|) :
    IsRounded places y z := by
  obtain ⟨n, hn, hle, -⟩ := h
  refine ⟨n, hn, ?_⟩
  generalize x * 10 ^ places = scaled at hle hnear
  generalize y * 10 ^ places = close at hnear ⊢
  obtain ⟨hlow, hhigh⟩ := abs_le.1 hle
  have hbelow : close < n + 1 / 2 := by
    by_contra hnot
    have htie := hnear n
    have hdist := neg_abs_le (scaled - close)
    rw [abs_of_nonneg (by linarith : 0 ≤ close - (n + 1 / 2))] at htie
    linarith
  have habove : n - 1 / 2 < close := by
    by_contra hnot
    have htie := hnear (n - 1)
    have hdist := le_abs_self (scaled - close)
    push_cast at htie
    rw [abs_of_nonpos (by linarith : close - (n - 1 + 1 / 2) ≤ 0)] at htie
    linarith
  have hlt : |close - n| < 1 / 2 := abs_lt.2 ⟨by linarith, by linarith⟩
  exact ⟨le_of_lt hlt, fun htie => absurd htie (ne_of_lt hlt)⟩

end IsRounded

namespace Decimal

variable {a : Decimal} {places : Nat}

/-- Rounding a decimal gives the nearest number of so many places, of two equally near the even
one. -/
theorem isRounded_round (a : Decimal) (places : Nat) :
    IsRounded places a.value (a.round places).value := by
  unfold round
  split
  · next hshort => exact .self (value_mul_pow hshort)
  · next hlong =>
    rw [value_plainZero]
    have hsplit : (10 : ℚ) ^ a.scale = 10 ^ (a.scale - places) * 10 ^ places :=
      (pow_sub_mul_pow 10 (Nat.le_of_not_le hlong)).symm
    have hpow : (10 : ℚ) ^ places ≠ 0 := by positivity
    have hdrop : (10 : ℚ) ^ (a.scale - places) ≠ 0 := by positivity
    have hmagnitude : IsRounded places (a.magnitude / 10 ^ a.scale)
        ((divHalfEven a.magnitude (10 ^ (a.scale - places)) : ℕ) / 10 ^ places) := by
      obtain ⟨hnear, htie⟩ :=
        abs_div_sub_divHalfEven a.magnitude (Nat.pow_pos (by decide) : 0 < 10 ^ (a.scale - places))
      have hscaled : (a.magnitude / 10 ^ a.scale : ℚ) * 10 ^ places =
          a.magnitude / ((10 ^ (a.scale - places) : ℕ) : ℚ) := by
        rw [hsplit]
        push_cast
        field_simp
      refine ⟨divHalfEven a.magnitude (10 ^ (a.scale - places)), ?_, ?_, ?_⟩
      · rw [div_mul_cancel₀ _ hpow, Int.cast_natCast]
      · rw [hscaled, Int.cast_natCast]
        exact hnear
      · rw [hscaled, Int.cast_natCast]
        exact htie
    cases hsign : a.negative with
    | true =>
      rw [value_of_negative hsign, value_of_negative rfl]
      exact hmagnitude.neg
    | false =>
      rw [value_of_not_negative hsign, value_of_not_negative rfl]
      exact hmagnitude

/-- A fraction of denominator `w` that is not a tie is at least `1 / (2 * w)` away from one. -/
theorem le_abs_sub_half {w : Nat} (hw : 0 < w) (numerator n : ℤ)
    (hne : (numerator / w : ℚ) ≠ n + 1 / 2) :
    (1 / (2 * w) : ℚ) ≤ |(numerator / w : ℚ) - (n + 1 / 2)| := by
  have hpos : (0 : ℚ) < w := by exact_mod_cast hw
  have hdist : (numerator / w : ℚ) - (n + 1 / 2) =
      ((2 * numerator - (2 * n + 1) * w : ℤ) : ℚ) / (2 * w) := by
    push_cast
    field_simp
  have hsome : 2 * numerator - (2 * n + 1) * w ≠ 0 := by
    intro hzero
    rw [hzero, Int.cast_zero, zero_div, sub_eq_zero] at hdist
    exact hne hdist
  have hone : (1 : ℚ) ≤ |((2 * numerator - (2 * n + 1) * w : ℤ) : ℚ)| := by
    exact_mod_cast Int.one_le_abs hsome
  rw [hdist, abs_div, abs_of_pos (by positivity : (0 : ℚ) < 2 * w)]
  gcongr

/-- A fraction is rounded like a decimal that is close to it, and the same if it is a tie. -/
theorem isRounded_round_of_near {x : ℚ} {w : Nat} {m : ℤ} (hw : 0 < w)
    (hx : x * 10 ^ places = m / w) (hnear : |x - a.value| * 10 ^ places < 1 / (2 * w))
    (htie : ∀ n : ℤ, x * 10 ^ places = n + 1 / 2 → a.value = x) :
    IsRounded places x (a.round places).value := by
  by_cases heven : ∃ n : ℤ, x * 10 ^ places = n + 1 / 2
  · obtain ⟨n, hn⟩ := heven
    have hrounded := isRounded_round a places
    rwa [htie n hn] at hrounded
  · refine (isRounded_round a places).of_near fun n => ?_
    have hpow : (0 : ℚ) < 10 ^ places := by positivity
    have hdist := le_abs_sub_half hw m n fun hn => heven ⟨n, hx.trans hn⟩
    rw [← sub_mul, abs_mul, abs_of_pos hpow, abs_sub_comm, hx]
    exact lt_of_lt_of_le hnear hdist

end Decimal

end Settlement
