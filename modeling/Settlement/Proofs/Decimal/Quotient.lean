import Settlement.Number.Decimal.Quotient
import Settlement.Proofs.Decimal.Rounded
import Settlement.Proofs.Word

namespace Settlement.Decimal

variable {x : ℚ} {d q r : Nat} {s : Int}

/-- The digits are those of `x`, or `x` rounded where there is no room for more of them. -/
structure LongQuotient.Near (x : ℚ) (l : LongQuotient) : Prop where
  scale_nonneg : 0 ≤ l.scale
  scale_le : l.scale ≤ 28
  digits_lt : l.digits < 2 ^ 96
  near : |x * 10 ^ l.scale.toNat - l.digits| ≤ 1 / 2
  full : x * 10 ^ l.scale.toNat = l.digits ∨ l.scale = 28 ∨ 2 ^ 96 ≤ 10 * (l.digits + 1)

theorem le_of_roomAfter_eq_zero {limit : Nat} (hlimit : 0 < limit) (h : roomAfter q limit = 0) :
    2 ^ 96 ≤ q * 10 := by
  induction limit with
  | zero => omega
  | succ p ih =>
    simp only [roomAfter] at h
    split at h
    · omega
    · next hnone =>
      cases p with
      | zero => omega
      | succ p => exact ih (Nat.succ_pos p) h

theorem mul_pow_roomAfter_lt (hq : q < 2 ^ 96) (limit : Nat) :
    q * 10 ^ roomAfter q limit < 2 ^ 96 := by
  induction limit with
  | zero => rwa [roomAfter, Nat.pow_zero, Nat.mul_one]
  | succ p ih =>
    simp only [roomAfter]
    split
    · next hroom => exact hroom
    · exact ih

theorem longDivision_digits (hd : 0 < d) (q r p : Nat) :
    ((q * 10 ^ p + r * 10 ^ p / d : Nat) : ℚ) + (r * 10 ^ p % d : Nat) / d =
      (q + r / d) * 10 ^ p := by
  have hpos : (d : ℚ) ≠ 0 := by exact_mod_cast hd.ne'
  have hsplit : (d : ℚ) * (r * 10 ^ p / d : Nat) + (r * 10 ^ p % d : Nat) = r * 10 ^ p := by
    exact_mod_cast Nat.div_add_mod (r * 10 ^ p) d
  push_cast at hsplit ⊢
  field_simp
  linarith

/-- The quotient so far and what is still to be divided have the same value after these digits. -/
theorem value_longDivision_digits (hd : 0 < d) (q r p : Nat) (hs : 0 ≤ s) :
    (((q * 10 ^ p + r * 10 ^ p / d : Nat) : ℚ) + (r * 10 ^ p % d : Nat) / d) /
        10 ^ (s + p).toNat = (q + r / d) / 10 ^ s.toNat := by
  have hplaces : (s + p).toNat = s.toNat + p := by omega
  have hpow : (10 : ℚ) ^ p ≠ 0 := by positivity
  rw [longDivision_digits hd, hplaces, pow_add, mul_div_mul_right _ _ hpow]

theorem mul_pow_pred (x : ℚ) (hs : 0 < s) :
    x * 10 ^ (s - 1).toNat = x * 10 ^ s.toNat / 10 := by
  obtain ⟨k, hk⟩ := Nat.exists_eq_succ_of_ne_zero (by omega : s.toNat ≠ 0)
  have hpred : (s - 1).toNat = k := by omega
  rw [hpred, hk, Nat.succ_eq_add_one, pow_succ]
  field_simp

/-- The last digit of a quotient that is rounded to the nearest integer is the last one there is
room for. -/
theorem near_ofDigits_of_full (hnear : |x * 10 ^ s.toNat - q| ≤ 1 / 2) (hs : 0 ≤ s) (hle : s ≤ 28)
    (hq : q ≤ 2 ^ 96) (hfull : s = 28 ∨ 2 ^ 96 ≤ 10 * (q + 1)) (hpos : q = 2 ^ 96 → 0 < s) :
    (LongQuotient.ofDigits q true s).Near x := by
  unfold LongQuotient.ofDigits
  split
  · next hlt =>
    exact ⟨hs, hle, hlt, hnear, Or.inr hfull⟩
  · next hmore =>
    have hpos : 0 < s := hpos (by omega)
    have hkept : q / 10 = 7922816251426433759354395033 := by omega
    have hup : 5 < q % 10 := by omega
    have hvalue : (q : ℚ) = 79228162514264337593543950336 := by
      have : q = 79228162514264337593543950336 := by omega
      exact_mod_cast this
    simp only [if_pos (Or.inl hup), hkept]
    refine ⟨by simp only; omega, by simp only; omega, by simp only; omega, ?_, Or.inr (Or.inr ?_)⟩
    · simp only
      rw [mul_pow_pred x hpos]
      rw [hvalue] at hnear
      obtain ⟨hlow, hhigh⟩ := abs_le.1 hnear
      push_cast
      exact abs_le.2 ⟨by linarith, by linarith⟩
    · simp only
      omega

/-- A quotient that has come to have too many digits is rounded at the one before the last. -/
theorem near_ofDigits_of_long {rest : Nat} (hvalue : x * 10 ^ s.toNat = q + rest / d) (hrest : rest < d)
    (hs : 0 < s) (hle : s ≤ 28) (hlong : 2 ^ 96 ≤ q) (hq : q < 2 ^ 97) :
    (LongQuotient.ofDigits q (rest != 0) s).Near x := by
  have hpos : (0 : ℚ) < d := by exact_mod_cast Nat.lt_of_le_of_lt (Nat.zero_le _) hrest
  have hfrac : (0 : ℚ) ≤ rest / d := by positivity
  have hfrac' : (rest / d : ℚ) < 1 := by
    rw [div_lt_one hpos]
    exact_mod_cast hrest
  have hsplit : (q : ℚ) = 10 * (q / 10 : Nat) + (q % 10 : Nat) := by
    exact_mod_cast (Nat.div_add_mod q 10).symm
  have hscale := mul_pow_pred x hs
  unfold LongQuotient.ofDigits
  rw [if_neg (by omega)]
  simp only
  refine ⟨by simp only; omega, by simp only; omega, ?_, ?_, Or.inr (Or.inr ?_)⟩
  · simp only
    split <;> omega
  · simp only
    rw [hscale, hvalue, hsplit]
    split
    · next hup =>
      -- At least half of the last place is missing.
      have hhalf : (5 : ℚ) ≤ (q % 10 : Nat) := by
        have : 5 ≤ q % 10 := by omega
        exact_mod_cast this
      have hdigit : ((q % 10 : Nat) : ℚ) ≤ 9 := by
        have : q % 10 ≤ 9 := by omega
        exact_mod_cast this
      push_cast
      exact abs_le.2 ⟨by linarith, by linarith⟩
    · next hdown =>
      have hhalf : ((q % 10 : Nat) : ℚ) + rest / d ≤ 5 := by
        rw [not_or, not_and_or] at hdown
        by_cases hfive : q % 10 = 5
        · have hnone : rest = 0 := by
            have := hdown.2.resolve_left (not_not.2 hfive)
            simp only [not_or, bne_iff_ne, ne_eq, not_not] at this
            exact this.1
          rw [hfive, hnone]
          norm_num
        · have : q % 10 ≤ 4 := by omega
          have : ((q % 10 : Nat) : ℚ) ≤ 4 := by exact_mod_cast this
          linarith
      exact abs_le.2 ⟨by linarith, by linarith⟩
  · simp only
    split <;> omega

/-- The digit at which long division stops is rounded by comparing twice the remainder to the
divisor. -/
theorem abs_sub_lastDigit_le (hr : r < d) (q : Nat) :
    |(q + r / d : ℚ) -
      (if d < 2 * r ∨ (2 * r = d ∧ q % 2 = 1) then q + 1 else q : Nat)| ≤ 1 / 2 := by
  have hpos : (0 : ℚ) < d := by exact_mod_cast Nat.lt_of_le_of_lt (Nat.zero_le _) hr
  split
  · next hup =>
    have hhalf : (d : ℚ) ≤ 2 * r := by
      have : d ≤ 2 * r := by omega
      exact_mod_cast this
    have hlow : (1 / 2 : ℚ) ≤ r / d := by
      rw [le_div_iff₀ hpos]
      linarith
    have hhigh : (r / d : ℚ) < 1 := (div_lt_one hpos).2 (by exact_mod_cast hr)
    push_cast
    exact abs_le.2 ⟨by linarith, by linarith⟩
  · next hdown =>
    have hhalf : (2 : ℚ) * r ≤ d := by
      have : 2 * r ≤ d := by omega
      exact_mod_cast this
    have hlow : (0 : ℚ) ≤ r / d := by positivity
    have hhigh : (r / d : ℚ) ≤ 1 / 2 := by
      rw [div_le_iff₀ hpos]
      linarith
    exact abs_le.2 ⟨by linarith, by linarith⟩

/-- Long division gives the quotient exactly, or rounded at the last digit that a decimal has room
for: the twenty-eighth of the fraction, or the last one within 96 bits. The induction follows the
groups of digits. -/
theorem longDivision_near (hd : 0 < d) (hr : r < d) (hq : q < 2 ^ 96) (hs : 0 ≤ s) (hle : s ≤ 28)
    (hsmall : s = 0 → q * 10 < 2 ^ 96) (extended : Bool) :
    (longDivision d q r s extended).Near ((q + r / d) / 10 ^ s.toNat) := by
  fun_induction longDivision d q r s extended with
  | case1 q s extended hs' =>
    have hpow : (10 : ℚ) ^ s.toNat ≠ 0 := by positivity
    have hexact : ((q : ℚ) + (0 : Nat) / d) / 10 ^ s.toNat * 10 ^ s.toNat = q := by
      rw [Nat.cast_zero, zero_div, add_zero, div_mul_cancel₀ _ hpow]
    refine ⟨hs, hle, hq, ?_, Or.inl hexact⟩
    rw [hexact, sub_self, abs_zero]
    norm_num
  | case2 q s extended hs' p ih => omega
  | case3 q r s extended hsome p hfull =>
    have hpow : (10 : ℚ) ^ s.toNat ≠ 0 := by positivity
    apply near_ofDigits_of_full _ hs hle
    · split <;> omega
    · by_cases hlast : s = 28
      · exact Or.inl hlast
      · have hlong := le_of_roomAfter_eq_zero (by omega) hfull
        refine Or.inr ?_
        split <;> omega
    · intro hcarry
      by_contra hnot
      have hshort := hsmall (by omega)
      split at hcarry <;> omega
    · rw [div_mul_cancel₀ _ hpow]
      exact abs_sub_lastDigit_le hr q
  | case4 q r s extended hsome p hroom longer rest hfits ih =>
    have hp := roomAfter_le q (min 9 (28 - s).toNat)
    have hsame := value_longDivision_digits hd q r p hs
    rw [← hsame]
    exact ih (Nat.mod_lt _ hd) hfits (by omega) (by omega) (by omega)
  | case5 q r s extended hsome p hroom longer rest hlong =>
    have hp := roomAfter_le q (min 9 (28 - s).toNat)
    have hpow : (10 : ℚ) ^ (s + p).toNat ≠ 0 := by positivity
    have hnext : longer < 2 ^ 97 := by
      have hkept : q * 10 ^ p < 2 ^ 96 := mul_pow_roomAfter_lt hq _
      have hdigits : r * 10 ^ p / d < 10 ^ p := by
        rw [Nat.div_lt_iff_lt_mul hd, Nat.mul_comm]
        exact Nat.mul_lt_mul_of_pos_left hr (Nat.pow_pos (by decide))
      have hnine : 10 ^ p ≤ 10 ^ 9 := Nat.pow_le_pow_right (by decide) (by omega)
      omega
    rw [← value_longDivision_digits hd q r p hs]
    refine near_ofDigits_of_long (div_mul_cancel₀ _ hpow) (Nat.mod_lt _ hd) ?_ ?_ ?_ hnext
    · omega
    · omega
    · omega

/-- The same fraction in no more places, which is all that matters of the ways in which zeros are
dropped. -/
structure Shortened (digits digits' : Nat × Nat) : Prop where
  places : digits'.2 ≤ digits.2
  le : digits'.1 ≤ digits.1
  value : (digits'.1 / 10 ^ digits'.2 : ℚ) = digits.1 / 10 ^ digits.2

theorem Shortened.refl (digits : Nat × Nat) : Shortened digits digits :=
  ⟨Nat.le_refl _, Nat.le_refl _, rfl⟩

theorem Shortened.trans {digits digits' digits'' : Nat × Nat} (h : Shortened digits digits')
    (h' : Shortened digits' digits'') : Shortened digits digits'' :=
  ⟨Nat.le_trans h'.places h.places, Nat.le_trans h'.le h.le, h'.value.trans h.value⟩

theorem shortened_of_zeros {n s : Nat} (hs : n ≤ s) (hzeros : q % 10 ^ n = 0) :
    Shortened (q, s) (q / 10 ^ n, s - n) := by
  refine ⟨Nat.sub_le _ _, Nat.div_le_self _ _, ?_⟩
  have hpow : (10 : ℚ) ^ n ≠ 0 := by positivity
  have hq : (q : ℚ) = (q / 10 ^ n : Nat) * 10 ^ n := by
    exact_mod_cast (Nat.div_mul_cancel (Nat.dvd_of_mod_eq_zero hzeros)).symm
  rw [hq, ← pow_sub_mul_pow (10 : ℚ) hs, mul_div_mul_right _ _ hpow]

/-- Dropping groups of zeros keeps the fraction, by induction on the groups. -/
theorem shortened_dropGroups (n : Nat) (hn : 0 < n) (q s : Nat) :
    Shortened (q, s) (dropGroups n hn q s) := by
  fun_induction dropGroups n hn q s with
  | case1 q s h ih => exact (shortened_of_zeros h.2.1 h.2.2).trans ih
  | case2 q s h => exact .refl _

theorem shortened_dropGroup (n : Nat) (digits : Nat × Nat) :
    Shortened digits (dropGroup n digits) := by
  unfold dropGroup
  split
  · next h => exact shortened_of_zeros h.1 h.2
  · exact .refl _

theorem shortened_of_extended (extended : Bool) (q s : Nat) :
    Shortened (q, s)
      (if extended then dropGroup 1 (dropGroup 2 (dropGroup 4 (dropGroups 8 (by decide) q s)))
      else (q, s)) := by
  split
  · refine (shortened_dropGroups 8 (by decide) q s).trans ?_
    refine (shortened_dropGroup 4 _).trans ((shortened_dropGroup 2 _).trans ?_)
    exact shortened_dropGroup 1 _
  · exact .refl _

/-- `c` is `x`, or `x` rounded to so many places because there is no room for more. Quotients with
few digits are therefore exact, and all others are off by very little. -/
structure IsQuotient (x : ℚ) (places : Nat) (c : Decimal) : Prop where
  scale_le : c.scale ≤ places
  places_le : places ≤ 28
  near : |x - c.value| * 10 ^ places ≤ 1 / 2
  full : c.value = x ∨ places = 28 ∨ 2 ^ 96 ≤ 10 * (|c.value| * 10 ^ places + 1)

section quotient

variable {c : Decimal} {places : Nat}

/-- A quotient is larger than what it stands for by half a unit of its last place at most. -/
theorem IsQuotient.mul_pow_le (h : IsQuotient x places c) :
    |c.value| * 10 ^ places ≤ |x| * 10 ^ places + 1 / 2 := by
  have hpow : (0 : ℚ) ≤ 10 ^ places := by positivity
  have hclose := abs_sub_abs_le_abs_sub c.value x
  rw [abs_sub_comm] at hclose
  have hscaled := mul_le_mul_of_nonneg_right hclose hpow
  have hnear := h.near
  linarith

/-- A quotient is right up to its last place, or up to a few units of its ninety-sixth bit. -/
theorem IsQuotient.abs_sub_le (h : IsQuotient x places c) :
    |x - c.value| ≤ 1 / 10 ^ 28 + 6 * |x| / 2 ^ 96 := by
  have hpow : (0 : ℚ) < 10 ^ places := by positivity
  have hx : (0 : ℚ) ≤ 6 * |x| / 2 ^ 96 := by positivity
  have hnear := h.near
  rcases h.full with hexact | rfl | hfull
  · rw [hexact, sub_self, abs_zero]
    positivity
  · have hlast : |x - c.value| ≤ 1 / 10 ^ 28 := by
      rw [le_div_iff₀ hpow]
      linarith
    linarith
  · -- The last place is a small part of the whole.
    have hclose := h.mul_pow_le
    have hlast : |x - c.value| * 10 ^ places ≤ 6 * |x| / 2 ^ 96 * 10 ^ places := by
      linarith
    have hdist := le_of_mul_le_mul_right hlast hpow
    have hunit : (0 : ℚ) ≤ 1 / 10 ^ 28 := by positivity
    linarith

theorem IsQuotient.eq_of_short (h : IsQuotient x places c) {k : Nat} {n : ℤ} (hk : k ≤ 28)
    (hn : x * 10 ^ k = n) (hlt : |x| * 10 ^ k < 2 ^ 90) : c.value = x := by
  have hpow : (0 : ℚ) < 10 ^ places := by positivity
  have hnear := h.near
  have hroom : k ≤ places ∨ c.value = x := by
    rcases h.full with hexact | rfl | hfull
    · exact Or.inr hexact
    · exact Or.inl hk
    · refine Or.inl (Nat.le_of_not_lt fun hless => ?_)
      have hclose := h.mul_pow_le
      have hten : (10 : ℚ) ^ places * 10 ≤ 10 ^ k := by
        rw [← pow_succ]
        exact pow_le_pow_right₀ (by norm_num) hless
      have hdigits := mul_le_mul_of_nonneg_left hten (abs_nonneg x)
      linarith
  rcases hroom with hroom | hexact
  · have hx : x * 10 ^ places = ((n * 10 ^ (places - k) : ℤ) : ℚ) := by
      rw [← pow_mul_pow_sub (10 : ℚ) hroom, ← mul_assoc, hn]
      push_cast
      rfl
    have hc := value_mul_pow h.scale_le
    have hdist : |x * 10 ^ places - c.value * 10 ^ places| ≤ 1 / 2 := by
      rw [← sub_mul, abs_mul, abs_of_pos hpow]
      exact hnear
    rw [hx, hc, ← Int.cast_sub, ← Int.cast_abs] at hdist
    have hless : |n * 10 ^ (places - k) - c.coefficient * 10 ^ (places - c.scale)| < 1 := by
      have hone : ((|n * 10 ^ (places - k) - c.coefficient * 10 ^ (places - c.scale)| : ℤ) : ℚ) <
          1 := by
        linarith
      exact_mod_cast hone
    have hsame := sub_eq_zero.1 (Int.abs_lt_one_iff.1 hless)
    rw [← hsame, ← hx] at hc
    exact mul_right_cancel₀ hpow.ne' hc
  · exact hexact

end quotient

/-- What is left of a long division is a quotient with the sign that was put aside. -/
theorem isQuotient_of_near {negative : Bool} {long : LongQuotient} {digits places : Nat}
    {hlt : digits < 2 ^ 96} {hle : places ≤ 28} (hsign : x = sign negative * |x|)
    (hlong : long.Near |x|) (hshort : Shortened (long.digits, long.scale.toNat) (digits, places)) :
    IsQuotient x long.scale.toNat (plainZero ⟨negative, digits, places, hlt, hle⟩) := by
  have hpow : (0 : ℚ) < 10 ^ long.scale.toNat := by positivity
  have hvalue : (plainZero ⟨negative, digits, places, hlt, hle⟩).value =
      sign negative * (long.digits / 10 ^ long.scale.toNat) := by
    rw [value_plainZero, value_eq_sign_mul, ← hshort.value]
  have hscaled : |x| - long.digits / 10 ^ long.scale.toNat =
      (|x| * 10 ^ long.scale.toNat - long.digits) / 10 ^ long.scale.toNat := by
    field_simp
  refine ⟨hshort.places, ?_, ?_, ?_⟩
  · have := hlong.scale_le
    omega
  · rw [hvalue]
    nth_rewrite 1 [hsign]
    rw [← mul_sub, abs_mul, abs_sign, one_mul, hscaled, abs_div, abs_of_pos hpow,
      div_mul_cancel₀ _ hpow.ne']
    exact hlong.near
  · rw [hvalue, abs_mul, abs_sign, one_mul, abs_of_nonneg (by positivity),
      div_mul_cancel₀ _ hpow.ne']
    rcases hlong.full with hexact | hlast | hfull
    · left
      rw [← eq_div_of_mul_eq hpow.ne' hexact]
      exact hsign.symm
    · right; left
      omega
    · right; right
      exact_mod_cast hfull

theorem value_div_value {a b : Decimal} (hb : b.magnitude ≠ 0) (hscale : b.scale ≤ a.scale) :
    a.value / b.value = sign (a.negative != b.negative) * |a.value / b.value| ∧
      |a.value / b.value| = ((a.magnitude / b.magnitude : Nat) +
        (a.magnitude % b.magnitude : Nat) / b.magnitude) / 10 ^ (a.scale - b.scale) := by
  have hd : (b.magnitude : ℚ) ≠ 0 := by exact_mod_cast hb
  have hpow : (10 : ℚ) ^ b.scale ≠ 0 := by positivity
  have hsplit : (10 : ℚ) ^ a.scale = 10 ^ (a.scale - b.scale) * 10 ^ b.scale :=
    (pow_sub_mul_pow 10 hscale).symm
  have hdigits : (a.magnitude : ℚ) =
      b.magnitude * (a.magnitude / b.magnitude : Nat) + (a.magnitude % b.magnitude : Nat) := by
    exact_mod_cast (Nat.div_add_mod a.magnitude b.magnitude).symm
  have habs : |a.value / b.value| =
      a.magnitude / b.magnitude / 10 ^ (a.scale - b.scale) := by
    rw [abs_div, abs_value, abs_value, hsplit]
    field_simp
  constructor
  · rw [abs_div, abs_value, abs_value, value_eq_sign_mul a, value_eq_sign_mul b, sign_bne]
    ring
  · rw [habs]
    congr 1
    rw [hdigits]
    field_simp

/-- The quotient of two decimals, of which the divisor has no more places, exists unless it is too
large, and is exact or as long as can be. -/
theorem exists_div? {a b : Decimal} (hb : b.magnitude ≠ 0) (hscale : b.scale ≤ a.scale)
    (hlt : |a.value / b.value| < 2 ^ 90) :
    ∃ c places, a.div? b = some c ∧ IsQuotient (a.value / b.value) places c := by
  by_cases hzero : a.magnitude = 0
  · refine ⟨zero, 0, by rw [div?, if_neg hb, if_pos hzero], Nat.le_refl _, by decide, ?_, ?_⟩
    · rw [value_of_zero hzero, zero_div, value_of_zero rfl, sub_self, abs_zero, zero_mul]
      norm_num
    · rw [value_of_zero hzero, zero_div, value_of_zero rfl]
      exact Or.inl rfl
  · have hd : 0 < b.magnitude := Nat.pos_of_ne_zero hb
    have hplaces : (a.scale : Int) - b.scale = (a.scale - b.scale : Nat) := by omega
    have hle := a.scale_le
    obtain ⟨hsign, hdigits⟩ := value_div_value hb hscale
    have hquot : a.magnitude / b.magnitude < 2 ^ 96 :=
      Nat.lt_of_le_of_lt (Nat.div_le_self _ _) a.magnitude_lt
    have hsmall (hwhole : (a.scale : Int) - b.scale = 0) :
        a.magnitude / b.magnitude * 10 < 2 ^ 96 := by
      have hnone : a.scale - b.scale = 0 := by omega
      have hfrac : (0 : ℚ) ≤ (a.magnitude % b.magnitude : Nat) / b.magnitude := by positivity
      rw [hdigits, hnone, pow_zero, div_one] at hlt
      have hle : ((a.magnitude / b.magnitude : Nat) : ℚ) < 2 ^ 90 := by linarith
      have : a.magnitude / b.magnitude < 2 ^ 90 := by exact_mod_cast hle
      omega
    have hlong := longDivision_near hd (Nat.mod_lt a.magnitude hd) hquot
      (by omega : 0 ≤ (a.scale : Int) - b.scale) (by omega) hsmall false
    have hcount : ((a.scale : Int) - b.scale).toNat = a.scale - b.scale := by omega
    rw [hcount, ← hdigits] at hlong
    unfold div?
    rw [if_neg hb, if_neg hzero]
    simp only
    generalize longDivision b.magnitude (a.magnitude / b.magnitude)
      (a.magnitude % b.magnitude) ((a.scale : Int) - b.scale) false = long at hlong
    rw [if_neg (Int.not_lt.2 hlong.scale_nonneg)]
    have hshort := shortened_of_extended long.extended long.digits long.scale.toNat
    generalize (if long.extended then _ else _ : Nat × Nat) = short at hshort ⊢
    obtain ⟨digits, places⟩ := short
    have hscale_le := hlong.scale_le
    have hfits : digits < 2 ^ 96 ∧ places ≤ 28 := by
      have hplaces := hshort.places
      have hdigits := hshort.le
      have hlt := hlong.digits_lt
      simp only at hplaces hdigits
      omega
    simp only [ofParts?, dif_pos hfits, Option.map_some, Option.some.injEq]
    exact ⟨_, _, rfl, isQuotient_of_near hsign hlong hshort⟩

theorem exists_div?_ofCount {a : Decimal} {n : Count} (hn : n ≠ 0)
    (hlt : |a.value / n.val| < 2 ^ 90) :
    ∃ c places, a.div? (ofCount n) = some c ∧ IsQuotient (a.value / n.val) places c := by
  have hdivisor : (ofCount n).magnitude ≠ 0 := Nat.ne_of_gt (Word.pos_of_ne_zero hn)
  rw [← value_ofCount n] at hlt ⊢
  exact exists_div? hdivisor (Nat.zero_le a.scale) hlt

end Settlement.Decimal
