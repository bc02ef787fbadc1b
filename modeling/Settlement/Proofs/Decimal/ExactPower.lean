import Settlement.Proofs.Decimal.Power
import Settlement.Proofs.Decimal.Value

namespace Settlement.Decimal

variable {base a b c acc square power : Decimal} {j k exp : Nat}

/-- The number `base` multiplied by itself, one multiplication after the other. -/
def repeatedProduct? (base : Decimal) : Nat → Option Decimal
  | 0 => some one
  | n + 1 => (repeatedProduct? base n).bind fun product => product.mul? base

/-- The power with all its digits, of which none is dropped: the magnitude is a power, and the scale
is a multiple. -/
structure IsPower (base : Decimal) (k : Nat) (a : Decimal) : Prop where
  negative : a.negative = (base.negative && decide (k % 2 = 1))
  magnitude : a.magnitude = base.magnitude ^ k
  scale : a.scale = base.scale * k

/-- All digits of the power fit. Then so do those of the powers to smaller exponents, which all
products on the way are. -/
structure PowerFits (base : Decimal) (k : Nat) : Prop where
  magnitude : base.magnitude ^ k < 2 ^ 96
  scale : base.scale * k ≤ 28

theorem PowerFits.of_le (h : PowerFits base k) (hpos : 0 < base.magnitude) (hle : j ≤ k) :
    PowerFits base j := by
  refine ⟨Nat.lt_of_le_of_lt (Nat.pow_le_pow_right hpos hle) h.magnitude, ?_⟩
  exact Nat.le_trans (Nat.mul_le_mul_left _ hle) h.scale

theorem isPower_zero (base : Decimal) : IsPower base 0 one := ⟨by simp [one], rfl, rfl⟩

theorem isPower_one (base : Decimal) : IsPower base 1 base := ⟨by simp, by simp, by simp⟩

theorem IsPower.eq (ha : IsPower base k a) (hb : IsPower base k b) : a = b := by
  obtain ⟨hsign, hmagnitude, hscale⟩ := ha
  cases a
  cases b
  simp only [mk.injEq]
  exact ⟨hsign.trans hb.negative.symm, hmagnitude.trans hb.magnitude.symm,
    hscale.trans hb.scale.symm⟩

theorem IsPower.mul (hpos : 0 < base.magnitude) (ha : IsPower base j a) (hb : IsPower base k b)
    (hfits : PowerFits base (j + k)) : ∃ c, a.mul? b = some c ∧ IsPower base (j + k) c := by
  have hmagnitude : a.magnitude * b.magnitude = base.magnitude ^ (j + k) := by
    rw [ha.magnitude, hb.magnitude, Nat.pow_add]
  have hscale : a.scale + b.scale = base.scale * (j + k) := by
    rw [ha.scale, hb.scale, Nat.mul_add]
  have hproduct : 0 < a.magnitude * b.magnitude := by
    rw [hmagnitude]
    exact Nat.pow_pos hpos
  refine ⟨_, mul?_of_lt hproduct (hmagnitude ▸ hfits.magnitude) (hscale ▸ hfits.scale), ?_,
    hmagnitude, hscale⟩
  rw [ha.negative, hb.negative]
  cases base.negative with
  | false => rfl
  | true =>
    rcases Nat.mod_two_eq_zero_or_one j with hj | hj <;>
      rcases Nat.mod_two_eq_zero_or_one k with hk | hk <;> simp [Nat.add_mod, hj, hk]

/-- Squaring and multiplying goes through the powers up to the one that is asked for, and no
further: no square is taken that the exponent does not reach. -/
theorem exists_powFrom?_of_fits (hpos : 0 < base.magnitude) (hacc : IsPower base j acc)
    (hsquare : IsPower base k square) (hfits : PowerFits base (j + k * exp)) :
    ∃ power, powFrom? acc square exp = some power ∧ IsPower base (j + k * exp) power := by
  induction exp using Nat.strongRecOn generalizing acc square j k with
  | ind exp ih =>
    by_cases hzero : exp = 0
    · refine ⟨acc, ?_, ?_⟩
      · rw [powFrom?, if_pos hzero]
      · rw [hzero, Nat.mul_zero, Nat.add_zero]
        exact hacc
    · have hbits : j + k * exp = j + k * (exp % 2) + (k + k) * (exp / 2) := by
        have hexp := Nat.div_add_mod exp 2
        calc j + k * exp
            = j + k * (2 * (exp / 2) + exp % 2) := by rw [hexp]
          _ = j + k * (exp % 2) + (k + k) * (exp / 2) := by ring
      obtain ⟨next, hnext, hpower⟩ : ∃ next,
          (if exp % 2 = 1 then acc.mul? square else some acc) = some next ∧
            IsPower base (j + k * (exp % 2)) next := by
        by_cases hodd : exp % 2 = 1
        · rw [if_pos hodd, hodd, Nat.mul_one]
          refine hacc.mul hpos hsquare (hfits.of_le hpos ?_)
          exact Nat.add_le_add_left (Nat.le_mul_of_pos_right _ (by omega)) _
        · have heven : exp % 2 = 0 := by omega
          rw [if_neg hodd, heven, Nat.mul_zero, Nat.add_zero]
          exact ⟨acc, rfl, hacc⟩
      rw [powFrom?_half acc square (by omega), hnext, Option.bind_some]
      by_cases hlast : exp / 2 = 0
      · rw [if_pos hlast, hbits, hlast, Nat.mul_zero, Nat.add_zero]
        exact ⟨next, rfl, hpower⟩
      · have hreached : k + k ≤ j + k * exp := by
          rw [hbits]
          exact Nat.le_trans (Nat.le_mul_of_pos_right _ (by omega)) (Nat.le_add_left _ _)
        obtain ⟨square', hsquare', hdouble⟩ := hsquare.mul hpos hsquare (hfits.of_le hpos hreached)
        rw [if_neg hlast, hsquare', Option.bind_some, hbits]
        exact ih _ (by omega) hpower hdouble (hbits ▸ hfits)

theorem exists_repeatedProduct?_of_fits (hpos : 0 < base.magnitude) (hfits : PowerFits base exp) :
    ∃ power, repeatedProduct? base exp = some power ∧ IsPower base exp power := by
  induction exp with
  | zero => exact ⟨one, rfl, isPower_zero base⟩
  | succ n ih =>
    obtain ⟨power, hpower, hexact⟩ := ih (hfits.of_le hpos (Nat.le_succ n))
    obtain ⟨next, hnext, hexact'⟩ := hexact.mul hpos (isPower_one base) hfits
    refine ⟨next, ?_, hexact'⟩
    rw [repeatedProduct?, hpower, Option.bind_some, hnext]

theorem coefficient_of_isPower (h : IsPower base k a) : a.coefficient = base.coefficient ^ k := by
  unfold coefficient
  rw [h.negative, h.magnitude]
  cases base.negative with
  | false => simp
  | true =>
    rcases Nat.mod_two_eq_zero_or_one k with hk | hk
    · have heven : Even k := Nat.even_iff.2 hk
      simp [hk, heven.neg_pow]
    · have hodd : Odd k := Nat.odd_iff.2 hk
      simp [hk, hodd.neg_pow]

theorem value_of_isPower (h : IsPower base k a) :
    a.value = (base.coefficient : ℚ) ^ k / 10 ^ (base.scale * k) := by
  rw [value, coefficient_of_isPower h, h.scale, Int.cast_pow]

theorem powFrom?_of_zero (hzero : square.magnitude = 0) (hpos : 0 < exp) :
    powFrom? acc square exp = some zero := by
  induction exp using Nat.strongRecOn generalizing acc square with
  | ind exp ih =>
    rw [powFrom?_half acc square hpos, mul?_of_zero (Or.inr hzero), mul?_of_zero (Or.inr hzero)]
    by_cases hodd : exp % 2 = 1
    · rw [if_pos hodd, Option.bind_some]
      split
      · rfl
      · exact ih _ (by omega) rfl (by omega)
    · rw [if_neg hodd, Option.bind_some, if_neg (by omega)]
      exact ih _ (by omega) rfl (by omega)

theorem repeatedProduct?_of_zero (hzero : base.magnitude = 0) (n : Nat) :
    repeatedProduct? base (n + 1) = some zero := by
  have hproduct (a : Decimal) : a.mul? base = some zero := mul?_of_zero (Or.inr hzero)
  induction n with
  | zero => exact hproduct one
  | succ n ih => rw [repeatedProduct?, ih, Option.bind_some, hproduct]

theorem parts_of_mul?_whole (ha : a.scale = 0) (hb : b.scale = 0) (h : a.mul? b = some c) :
    c.magnitude = a.magnitude * b.magnitude ∧ c.scale = 0 := by
  have hscale : a.scale + b.scale = 0 := by omega
  have hextent := extent_mul? a b
  have hcases := eq_of_mul? h
  rw [hscale] at hextent hcases
  rcases hcases with rfl | ⟨d, hd, hc⟩
  · refine ⟨?_, rfl⟩
    rw [h] at hextent
    obtain ⟨d, hd, hsize⟩ := extent_le_coe_iff.1 (le_of_eq hextent.symm)
    have hmagnitude := (parts_of_fit?_whole hd).1
    have hpos : 0 < 10 ^ (maxScale - d.scale) := Nat.pow_pos (by decide)
    have hnone : zero.size = 0 := size_zero_of_magnitude rfl
    rw [hnone, Nat.le_zero, size, Nat.mul_eq_zero] at hsize
    rw [← hmagnitude]
    exact (hsize.resolve_right (Nat.ne_of_gt hpos)).symm
  · obtain ⟨hmagnitude, hwhole⟩ := parts_of_fit?_whole hd
    rcases hc with rfl | rfl
    · exact ⟨hmagnitude, hwhole⟩
    · exact ⟨hmagnitude, hwhole⟩

/-- A power of a whole number is exact if it exists, since every product on the way is. -/
theorem magnitude_of_powFrom?_whole (hacc : acc.scale = 0) (hsquare : square.scale = 0)
    (h : powFrom? acc square exp = some power) :
    power.magnitude = acc.magnitude * square.magnitude ^ exp := by
  induction exp using Nat.strongRecOn generalizing acc square with
  | ind exp ih =>
    by_cases hzero : exp = 0
    · rw [powFrom?, if_pos hzero] at h
      cases h
      rw [hzero, Nat.pow_zero, Nat.mul_one]
    · have hbits : square.magnitude ^ exp =
          square.magnitude ^ (exp % 2) * (square.magnitude * square.magnitude) ^ (exp / 2) := by
        have hexp := Nat.div_add_mod exp 2
        calc square.magnitude ^ exp
            = square.magnitude ^ (2 * (exp / 2) + exp % 2) := by rw [hexp]
          _ = square.magnitude ^ (exp % 2) * (square.magnitude * square.magnitude) ^ (exp / 2) := by
            rw [Nat.pow_add, Nat.pow_mul, Nat.pow_two, Nat.mul_comm]
      rw [powFrom?_half acc square (by omega)] at h
      obtain ⟨next, hnext, h⟩ := Option.bind_eq_some_iff.1 h
      obtain ⟨hmagnitude, hscale⟩ : next.magnitude = acc.magnitude * square.magnitude ^ (exp % 2) ∧
          next.scale = 0 := by
        by_cases hodd : exp % 2 = 1
        · rw [if_pos hodd] at hnext
          rw [hodd, Nat.pow_one]
          exact parts_of_mul?_whole hacc hsquare hnext
        · have heven : exp % 2 = 0 := by omega
          rw [if_neg hodd] at hnext
          cases hnext
          rw [heven, Nat.pow_zero, Nat.mul_one]
          exact ⟨rfl, hacc⟩
      by_cases hlast : exp / 2 = 0
      · rw [if_pos hlast] at h
        cases h
        rw [hbits, hlast, Nat.pow_zero, Nat.mul_one, hmagnitude]
      · rw [if_neg hlast] at h
        obtain ⟨square', hsquare', h⟩ := Option.bind_eq_some_iff.1 h
        obtain ⟨hdouble, hscale'⟩ := parts_of_mul?_whole hsquare hsquare hsquare'
        rw [ih _ (by omega) hscale hscale' h, hbits, hmagnitude, hdouble, Nat.mul_assoc]

/-- A power whose digits all fit is the mathematical one, and the same as multiplying one by one. -/
theorem exists_pow?_of_fits (hfits : PowerFits base exp) :
    ∃ power, base.pow? exp = some power ∧
      power.value = (base.coefficient : ℚ) ^ exp / 10 ^ (base.scale * exp) ∧
      base.repeatedProduct? exp = some power := by
  rcases Nat.eq_zero_or_pos base.magnitude with hzero | hpos
  · cases exp with
    | zero => exact ⟨one, pow?_zero base, by simp [value, coefficient, one], rfl⟩
    | succ n =>
      have hcoefficient : base.coefficient = 0 := by
        rw [coefficient, hzero]
        simp
      refine ⟨zero, powFrom?_of_zero hzero (Nat.succ_pos n), ?_, repeatedProduct?_of_zero hzero n⟩
      rw [hcoefficient]
      simp [value, coefficient, zero]
  · have hreach : 0 + 1 * exp = exp := by omega
    obtain ⟨power, hpower, hexact⟩ := exists_powFrom?_of_fits hpos (isPower_zero base)
      (isPower_one base) (hreach.symm ▸ hfits)
    rw [hreach] at hexact
    obtain ⟨power', hpower', hexact'⟩ := exists_repeatedProduct?_of_fits hpos hfits
    rw [hexact'.eq hexact] at hpower'
    exact ⟨power, hpower, value_of_isPower hexact, hpower'⟩

/-- The power is exact whenever it can be. If all its digits fit, it exists, is the mathematical
one, and is the same as multiplying one by one; and a whole number has a power exactly if the
mathematical one fits, and is refused otherwise. -/
theorem pow?_exact (base : Decimal) (exp : Nat) :
    (base.scale * exp ≤ 28 → base.magnitude ^ exp < 2 ^ 96 →
        ∃ power, base.pow? exp = some power ∧
          power.value = (base.coefficient : ℚ) ^ exp / 10 ^ (base.scale * exp) ∧
          base.repeatedProduct? exp = some power) ∧
      (base.scale = 0 →
        ((∃ power, base.pow? exp = some power) ↔ base.magnitude ^ exp < 2 ^ 96) ∧
          (2 ^ 96 ≤ base.magnitude ^ exp → orRefuse (.overflow "period fee") (base.pow? exp) =
            .error (.overflow "period fee"))) := by
  have hexact (hscale : base.scale * exp ≤ 28) (hmagnitude : base.magnitude ^ exp < 2 ^ 96) :=
    exists_pow?_of_fits ⟨hmagnitude, hscale⟩
  refine ⟨hexact, fun hwhole => ?_⟩
  have hexists : (∃ power, base.pow? exp = some power) ↔ base.magnitude ^ exp < 2 ^ 96 := by
    constructor
    · rintro ⟨power, hpower⟩
      have hmagnitude := magnitude_of_powFrom?_whole rfl hwhole hpower
      have hlt := power.magnitude_lt
      have hone : one.magnitude = 1 := rfl
      rw [hmagnitude, hone, Nat.one_mul] at hlt
      exact hlt
    · intro hlt
      obtain ⟨power, hpower, -⟩ := hexact (by rw [hwhole, Nat.zero_mul]; exact Nat.zero_le _) hlt
      exact ⟨power, hpower⟩
  refine ⟨hexists, fun hlarge => ?_⟩
  cases hpower : base.pow? exp with
  | none => rfl
  | some power =>
    have hlt := hexists.1 ⟨power, hpower⟩
    omega

def percentMore : Decimal := { hundredth with magnitude := 101, magnitude_lt := by decide }

def minusThree : Decimal :=
  { one with negative := true, magnitude := 3, magnitude_lt := by decide }

/-- The last power of either that fits, and the one after it, which a negative whole number does not
have. -/
theorem pow?_exact_of_percentMore_of_minusThree :
    (percentMore.scale * 13 ≤ 28 ∧ percentMore.magnitude ^ 13 < 2 ^ 96 ∧
      ∃ power, percentMore.pow? 13 = some power ∧
        power.value = (percentMore.coefficient : ℚ) ^ 13 / 10 ^ (percentMore.scale * 13) ∧
        percentMore.repeatedProduct? 13 = some power) ∧
      minusThree.scale = 0 ∧ minusThree.magnitude ^ 60 < 2 ^ 96 ∧
        (∃ power, minusThree.pow? 60 = some power) ∧ 2 ^ 96 ≤ minusThree.magnitude ^ 61 ∧
        orRefuse (.overflow "period fee") (minusThree.pow? 61) =
          .error (.overflow "period fee") := by
  have hscale : percentMore.scale * 13 ≤ 28 := by decide
  have hmagnitude : percentMore.magnitude ^ 13 < 2 ^ 96 := by decide
  have hwhole : minusThree.scale = 0 := rfl
  have hfits : minusThree.magnitude ^ 60 < 2 ^ 96 := by decide
  have hlarge : 2 ^ 96 ≤ minusThree.magnitude ^ 61 := by decide
  exact ⟨⟨hscale, hmagnitude, (pow?_exact percentMore 13).1 hscale hmagnitude⟩, hwhole, hfits,
    ((pow?_exact minusThree 60).2 hwhole).1.2 hfits, hlarge,
    ((pow?_exact minusThree 61).2 hwhole).2 hlarge⟩

end Settlement.Decimal
