import Mathlib.Algebra.Order.Field.Rat
import Mathlib.Algebra.Ring.Parity
import Mathlib.Tactic.FieldSimp
import Mathlib.Tactic.Linarith
import Mathlib.Tactic.Positivity
import Mathlib.Tactic.Ring
import Settlement.Proofs.Decimal.Fit

namespace Settlement

theorem abs_div_sub_divHalfEven (n : Nat) {d : Nat} (hd : 0 < d) :
    |(n / d : ℚ) - divHalfEven n d| ≤ 1 / 2 ∧
      (|(n / d : ℚ) - divHalfEven n d| = 1 / 2 → Even (divHalfEven n d : ℤ)) := by
  have hpos : (0 : ℚ) < d := by exact_mod_cast hd
  obtain ⟨hupper, hlower⟩ := divHalfEven_mul_le n hd
  have hupper' : (2 : ℚ) * (divHalfEven n d * d) ≤ 2 * n + d := by exact_mod_cast hupper
  have hlower' : (2 : ℚ) * n ≤ 2 * (divHalfEven n d * d) + d := by exact_mod_cast hlower
  have hscaled : ((n : ℚ) / d - divHalfEven n d) * d = n - divHalfEven n d * d := by
    field_simp
  constructor
  · rw [abs_le]
    constructor
    · by_contra hnot
      nlinarith
    · by_contra hnot
      nlinarith
  · intro htie
    have heven : divHalfEven n d % 2 = 0 := by
      apply even_divHalfEven_of_tie hd
      rcases abs_eq (by norm_num : (0 : ℚ) ≤ 1 / 2) |>.1 htie with h | h
      · right
        rw [h] at hscaled
        have : (2 : ℚ) * n = 2 * (divHalfEven n d * d) + d := by linarith
        exact_mod_cast this
      · left
        rw [h] at hscaled
        have : (2 : ℚ) * (divHalfEven n d * d) = 2 * n + d := by linarith
        exact_mod_cast this
    exact Int.even_iff.2 (by omega)

namespace Decimal

variable {a b c : Decimal}

/-- The number as a fraction. Two decimals that differ in scale only have one value. -/
def value (a : Decimal) : ℚ := a.coefficient / 10 ^ a.scale

theorem value_of_negative (h : a.negative = true) : a.value = -(a.magnitude / 10 ^ a.scale) := by
  rw [value, coefficient, if_pos h, Int.cast_neg, Int.cast_natCast, neg_div]

theorem value_of_not_negative (h : a.negative = false) : a.value = a.magnitude / 10 ^ a.scale := by
  rw [value, coefficient, if_neg (by rw [h]; decide), Int.cast_natCast]

/-- The factor that a sign stands for, so that the value of a decimal is its size times its sign. -/
def sign (negative : Bool) : ℚ := if negative then -1 else 1

theorem sign_bne (p q : Bool) : sign (p != q) = sign p / sign q := by
  cases p <;> cases q <;> norm_num [sign]

theorem abs_sign (p : Bool) : |sign p| = 1 := by
  cases p <;> norm_num [sign]

theorem value_eq_sign_mul (a : Decimal) :
    a.value = sign a.negative * (a.magnitude / 10 ^ a.scale) := by
  cases hsign : a.negative with
  | true => rw [value_of_negative hsign, sign, if_pos rfl, neg_one_mul]
  | false => rw [value_of_not_negative hsign, sign, if_neg Bool.false_ne_true, one_mul]

theorem abs_value (a : Decimal) : |a.value| = a.magnitude / 10 ^ a.scale := by
  have hpos : (0 : ℚ) ≤ a.magnitude / 10 ^ a.scale := by positivity
  rw [value_eq_sign_mul, abs_mul, abs_sign, one_mul, abs_of_nonneg hpos]

@[simp] theorem value_plainZero (a : Decimal) : a.plainZero.value = a.value := by
  rw [value, coefficient_plainZero]
  rfl

@[simp] theorem value_neg (a : Decimal) : a.neg.value = -a.value := by
  rw [value, coefficient_neg, Int.cast_neg, neg_div]
  rfl

theorem value_of_zero (h : a.magnitude = 0) : a.value = 0 := by
  rw [← abs_eq_zero, abs_value, h, Nat.cast_zero, zero_div]

theorem value_mul_pow {places : Nat} (h : a.scale ≤ places) :
    a.value * 10 ^ places = ((a.coefficient * 10 ^ (places - a.scale) : ℤ) : ℚ) := by
  have hpow : (10 : ℚ) ^ a.scale ≠ 0 := by positivity
  rw [value, ← pow_sub_mul_pow (10 : ℚ) h]
  push_cast
  field_simp

@[simp] theorem value_ofCount (n : Count) : (ofCount n).value = n.val := by
  rw [value_of_not_negative rfl]
  simp [ofCount]

section fit

variable {negative : Bool} {m s : Nat}

theorem le_of_droppedDigits (hsome : 0 < droppedDigits m s) (hs : s ≤ 28) :
    (2 ^ 96 / 10 : ℚ) ≤ m / (10 ^ droppedDigits m s : ℕ) := by
  obtain ⟨d, hd, hlarge⟩ := exists_le_of_droppedDigits hsome (by unfold maxScale; omega)
  have hlarge' : (2 ^ 96 * 10 ^ d : ℚ) ≤ m := by exact_mod_cast hlarge
  have hpow : (0 : ℚ) < (10 ^ droppedDigits m s : ℕ) := by positivity
  rw [div_le_div_iff₀ (by norm_num) hpow, hd, Nat.cast_pow, pow_succ (_ : ℚ) d]
  push_cast
  linarith

theorem abs_div_pow_sub_le {digits : ℚ} {k : Nat} (hk : k ≤ s)
    (h : |digits - m / (10 ^ k : ℕ)| ≤ 6 * (m / (10 ^ k : ℕ)) / 2 ^ 96) :
    |digits / 10 ^ (s - k) - m / 10 ^ s| ≤ 6 * (m / 10 ^ s) / 2 ^ 96 := by
  have hpow : (0 : ℚ) < 10 ^ (s - k) := by positivity
  have hunit : (m / 10 ^ s : ℚ) = m / (10 ^ k : ℕ) / 10 ^ (s - k) := by
    rw [div_div, Nat.cast_pow, Nat.cast_ofNat, pow_mul_pow_sub 10 hk]
  rw [hunit, ← sub_div, abs_div, abs_of_pos hpow, div_le_iff₀ hpow]
  calc |digits - m / (10 ^ k : ℕ)| ≤ 6 * (m / (10 ^ k : ℕ)) / 2 ^ 96 := h
    _ = _ := by field_simp

/-- A number whose integer part is not too large is fitted up to a few units of its ninety-sixth
bit. -/
theorem exists_fit?_near (negative : Bool) (hs : s ≤ 28) (hlt : m < 2 ^ 90 * 10 ^ s) :
    ∃ a, fit? negative m s = some a ∧ a.negative = negative ∧
      |(a.magnitude / 10 ^ a.scale : ℚ) - m / 10 ^ s| ≤ 6 * (m / 10 ^ s) / 2 ^ 96 := by
  have hdropped : droppedDigits m s ≤ s := by
    rw [droppedDigits_le_iff]
    exact ⟨by omega, by omega⟩
  obtain ⟨hround, -⟩ :=
    abs_div_sub_divHalfEven m (Nat.pow_pos (by decide) : 0 < 10 ^ droppedDigits m s)
  change |(m / (10 ^ droppedDigits m s : ℕ) : ℚ) - keptDigits m s| ≤ 1 / 2 at hround
  have hfitted := fitted negative m s
  generalize fit? negative m s = fit at hfitted
  cases hfitted with
  | tooLarge hlarge =>
    exfalso
    obtain hmore | ⟨hall, hfull⟩ := hlarge
    · omega
    · have hquot : m / 10 ^ s < 2 ^ 90 :=
        Nat.div_lt_of_lt_mul (by rw [Nat.mul_comm]; exact hlt)
      have hup := divHalfEven_le_succ m (10 ^ s)
      rw [keptDigits, ← hall] at hfull
      omega
  | @fits a _ hsign hmagnitude hplaces =>
    refine ⟨a, rfl, hsign, ?_⟩
    rw [hmagnitude, hplaces]
    apply abs_div_pow_sub_le hdropped
    rw [abs_sub_comm]
    by_cases hnone : droppedDigits m s = 0
    · have hexact : keptDigits m s = m := by
        rw [keptDigits, hnone, Nat.pow_zero, divHalfEven_one]
      rw [hexact, hnone, Nat.pow_zero, Nat.cast_one, div_one, sub_self, abs_zero]
      positivity
    · have hlarge := le_of_droppedDigits (Nat.pos_of_ne_zero hnone) hs
      linarith
  | @carried a hsome hkept hsign hmagnitude hplaces =>
    refine ⟨a, rfl, hsign, ?_⟩
    have hten : (a.magnitude / 10 ^ a.scale : ℚ) =
        (10 * carry : ℕ) / 10 ^ (s - droppedDigits m s) := by
      obtain ⟨k, hk⟩ := Nat.exists_eq_succ_of_ne_zero (by omega : s - droppedDigits m s ≠ 0)
      rw [hmagnitude, hplaces, hk, Nat.succ_sub_one, Nat.succ_eq_add_one, pow_succ']
      push_cast
      field_simp
    rw [hten]
    apply abs_div_pow_sub_le hdropped
    rw [hkept] at hround
    rw [carry_eq]
    obtain ⟨hlow, hhigh⟩ := abs_le.1 hround
    push_cast at hlow hhigh ⊢
    rw [abs_le]
    constructor
    · linarith
    · linarith

theorem exists_fit?_value_near (n : ℤ) (hs : s ≤ 28) (hlt : |(n / 10 ^ s : ℚ)| < 2 ^ 90) :
    ∃ a, fit? (decide (n < 0)) n.natAbs s = some a ∧
      |a.value - n / 10 ^ s| ≤ 6 * |(n / 10 ^ s : ℚ)| / 2 ^ 96 := by
  have hpow : (0 : ℚ) < 10 ^ s := by positivity
  have habs : |(n / 10 ^ s : ℚ)| = n.natAbs / 10 ^ s := by
    rw [abs_div, abs_of_pos hpow, Nat.cast_natAbs, Int.cast_abs]
  have hsmall : n.natAbs < 2 ^ 90 * 10 ^ s := by
    rw [habs, div_lt_iff₀ hpow] at hlt
    exact_mod_cast hlt
  obtain ⟨a, ha, hsign, hnear⟩ := exists_fit?_near (decide (n < 0)) hs hsmall
  refine ⟨a, ha, ?_⟩
  rw [habs]
  by_cases hneg : n < 0
  · have hn : (n / 10 ^ s : ℚ) = -(n.natAbs / 10 ^ s) := by
      rw [← habs, abs_of_neg (div_neg_of_neg_of_pos (by exact_mod_cast hneg) hpow), neg_neg]
    rw [value_of_negative (hsign.trans (decide_eq_true hneg)), hn, neg_sub_neg, abs_sub_comm]
    exact hnear
  · have hn : (n / 10 ^ s : ℚ) = n.natAbs / 10 ^ s := by
      rw [← habs, abs_of_nonneg (div_nonneg (by exact_mod_cast Int.not_lt.1 hneg) hpow.le)]
    rw [value_of_not_negative (hsign.trans (decide_eq_false hneg)), hn]
    exact hnear

theorem exists_fit?_value_eq (n : ℤ) (hs : s ≤ 28) (hlt : n.natAbs < 2 ^ 96) :
    ∃ a, fit? (decide (n < 0)) n.natAbs s = some a ∧ a.value = n / 10 ^ s := by
  refine ⟨_, fit?_of_lt _ hlt hs, ?_⟩
  have hcoefficient : coefficient ⟨decide (n < 0), n.natAbs, s, hlt, hs⟩ = n := by
    simp only [coefficient, decide_eq_true_eq]
    split <;> omega
  rw [value, hcoefficient]

end fit

section sum

/-- The sum with all its digits, as an integer at the larger of the two scales. -/
theorem value_add_value (a b : Decimal) :
    a.value + b.value =
      ((a.coefficient * 10 ^ (max a.scale b.scale - a.scale) +
        b.coefficient * 10 ^ (max a.scale b.scale - b.scale) : ℤ) : ℚ) /
        10 ^ max a.scale b.scale := by
  have hpow : (10 : ℚ) ^ max a.scale b.scale ≠ 0 := by positivity
  rw [eq_div_iff hpow, add_mul, value_mul_pow (le_max_left a.scale b.scale),
    value_mul_pow (le_max_right a.scale b.scale), Int.cast_add]

/-- Sums that are not too large are right up to a few units of their ninety-sixth bit. -/
theorem exists_add?_near (hlt : |a.value + b.value| < 2 ^ 90) :
    ∃ c, a.add? b = some c ∧
      |c.value - (a.value + b.value)| ≤ 6 * |a.value + b.value| / 2 ^ 96 := by
  unfold add?
  split
  · next hzero =>
    refine ⟨b, rfl, ?_⟩
    rw [value_of_zero hzero, zero_add, sub_self, abs_zero]
    positivity
  · split
    · next hzero =>
      refine ⟨a, rfl, ?_⟩
      rw [value_of_zero hzero, add_zero, sub_self, abs_zero]
      positivity
    · rw [value_add_value] at hlt ⊢
      exact exists_fit?_value_near _ (Nat.max_le.2 ⟨a.scale_le, b.scale_le⟩) hlt

theorem exists_sub?_near (hlt : |a.value - b.value| < 2 ^ 90) :
    ∃ c, a.sub? b = some c ∧
      |c.value - (a.value - b.value)| ≤ 6 * |a.value - b.value| / 2 ^ 96 := by
  rw [sub_eq_add_neg, ← value_neg] at hlt ⊢
  exact exists_add?_near hlt

theorem exists_add?_eq (hlt : |a.value + b.value| * 10 ^ max a.scale b.scale < 2 ^ 96) :
    ∃ c, a.add? b = some c ∧ c.value = a.value + b.value := by
  have hscale := Nat.max_le.2 ⟨a.scale_le, b.scale_le⟩
  unfold add?
  split
  · next hzero => exact ⟨b, rfl, by rw [value_of_zero hzero, zero_add]⟩
  · split
    · next hzero => exact ⟨a, rfl, by rw [value_of_zero hzero, add_zero]⟩
    · have hpow : (0 : ℚ) < 10 ^ max a.scale b.scale := by positivity
      rw [value_add_value, abs_div, abs_of_pos hpow, div_mul_cancel₀ _ hpow.ne', ← Int.cast_abs,
        ← Int.natCast_natAbs] at hlt
      rw [value_add_value]
      exact exists_fit?_value_eq _ hscale (by exact_mod_cast hlt)

theorem exists_sub?_eq (hlt : |a.value - b.value| * 10 ^ max a.scale b.scale < 2 ^ 96) :
    ∃ c, a.sub? b = some c ∧ c.value = a.value - b.value := by
  rw [sub_eq_add_neg, ← value_neg] at hlt ⊢
  exact exists_add?_eq hlt

end sum

end Decimal

end Settlement
