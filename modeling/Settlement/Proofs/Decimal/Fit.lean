import Mathlib.Algebra.Group.Nat.Defs
import Mathlib.Order.WithBot
import Settlement.Number.Decimal.Basic
import Settlement.Proofs.Rounding

namespace Settlement.Decimal

/-- The magnitude at the largest scale, which all scales can be brought to. -/
def size (a : Decimal) : Nat := a.magnitude * 10 ^ (maxScale - a.scale)

/-- The size of a result. One that does not exist is too large, and counts as larger than all
others. -/
def extent : Option Decimal → WithTop Nat
  | none => ⊤
  | some a => WithTop.some a.size

@[simp] theorem extent_some (a : Decimal) : extent (some a) = WithTop.some a.size := rfl

theorem extent_some_le_iff {a b : Decimal} : extent (some a) ≤ extent (some b) ↔ a.size ≤ b.size :=
  WithTop.coe_le_coe

/-- Numbers that exist have the same extent exactly if they have the same size. -/
theorem extent_some_inj {a b : Decimal} : extent (some a) = extent (some b) ↔ a.size = b.size :=
  WithTop.coe_inj

theorem extent_eq_top_iff {a? : Option Decimal} : extent a? = ⊤ ↔ a? = none := by
  cases a? with
  | none => simp [extent]
  | some a => simp

theorem extent_le_coe_iff {a? : Option Decimal} {n : Nat} :
    extent a? ≤ WithTop.some n ↔ ∃ a, a? = some a ∧ a.size ≤ n := by
  cases a? with
  | none => simp [extent]
  | some a => simp

theorem extent_map_plainZero (a? : Option Decimal) : extent (a?.map plainZero) = extent a? := by
  cases a? with
  | none => rfl
  | some a => rfl

theorem excessDigits_le_iff {m k : Nat} : excessDigits m ≤ k ↔ m < 2 ^ 96 * 10 ^ k := by
  induction k generalizing m with
  | zero =>
    rw [excessDigits]
    split
    · omega
    · omega
  | succ k ih =>
    have hten : 2 ^ 96 * 10 ^ (k + 1) = 2 ^ 96 * 10 ^ k * 10 := (Nat.mul_assoc ..).symm
    have hpos : 0 < 10 ^ k := Nat.pow_pos (by decide)
    rw [excessDigits]
    split
    · next hfits => exact ⟨fun _ => by omega, fun _ => Nat.zero_le _⟩
    · rw [Nat.add_le_add_iff_right, ih, hten]
      omega

section fit

variable {negative negative' : Bool} {m m' s s' k : Nat} {a : Decimal}

/-- How many fraction digits are dropped: those beyond the largest scale, and those beyond 96
bits. -/
def droppedDigits (m s : Nat) : Nat := max (s - maxScale) (excessDigits m)

theorem droppedDigits_le_iff : droppedDigits m s ≤ k ↔ s ≤ maxScale + k ∧ m < 2 ^ 96 * 10 ^ k := by
  rw [droppedDigits, Nat.max_le, excessDigits_le_iff]
  omega

theorem scale_le_add_droppedDigits (m s : Nat) : s ≤ maxScale + droppedDigits m s :=
  (droppedDigits_le_iff.1 (Nat.le_refl _)).1

theorem droppedDigits_le_droppedDigits (h : m ≤ m') : droppedDigits m s ≤ droppedDigits m' s := by
  obtain ⟨hscale, hlt⟩ := droppedDigits_le_iff.1 (Nat.le_refl (droppedDigits m' s))
  exact droppedDigits_le_iff.2 ⟨hscale, Nat.lt_of_le_of_lt h hlt⟩

/-- What is left of the digits when those that are dropped are rounded half to even. It can be one
bit too long. -/
def keptDigits (m s : Nat) : Nat := divHalfEven m (10 ^ droppedDigits m s)

theorem keptDigits_le (m s : Nat) : keptDigits m s ≤ 2 ^ 96 := by
  have hlt := (droppedDigits_le_iff.1 (Nat.le_refl (droppedDigits m s))).2
  have hquot : m / 10 ^ droppedDigits m s < 2 ^ 96 :=
    Nat.div_lt_of_lt_mul (by rw [Nat.mul_comm]; exact hlt)
  have hround := divHalfEven_le_succ m (10 ^ droppedDigits m s)
  unfold keptDigits
  omega

theorem fit?_eq (negative : Bool) (m s : Nat) :
    fit? negative m s =
      if s < droppedDigits m s then none
      else if keptDigits m s < 2 ^ 96 then
        ofParts? negative (keptDigits m s) (s - droppedDigits m s)
      else if s = droppedDigits m s then none
      else ofParts? negative (divHalfEven (keptDigits m s) 10) (s - droppedDigits m s - 1) := rfl

/-- What is kept of a number that is rounded up to 97 bits: its last digit is dropped as well. -/
def carry : Nat := divHalfEven (2 ^ 96) 10

theorem carry_eq : carry = 7922816251426433759354395034 := by decide +kernel

/-- The three ways in which a number is fitted. That there are no others is all that is used of
fitting later. -/
inductive Fitted (negative : Bool) (m s : Nat) : Option Decimal → Prop
  /-- The integer part alone is too large. -/
  | tooLarge (hlarge : s < droppedDigits m s ∨ s = droppedDigits m s ∧ 2 ^ 96 ≤ keptDigits m s) :
      Fitted negative m s none
  /-- The kept digits fit. -/
  | fits {a : Decimal} (hdropped : droppedDigits m s ≤ s) (hsign : a.negative = negative)
      (hmagnitude : a.magnitude = keptDigits m s) (hscale : a.scale = s - droppedDigits m s) :
      Fitted negative m s (some a)
  /-- The kept digits were rounded up to one bit more than fits. -/
  | carried {a : Decimal} (hdropped : droppedDigits m s < s) (hkept : keptDigits m s = 2 ^ 96)
      (hsign : a.negative = negative) (hmagnitude : a.magnitude = carry)
      (hscale : a.scale = s - droppedDigits m s - 1) : Fitted negative m s (some a)

theorem fitted (negative : Bool) (m s : Nat) : Fitted negative m s (fit? negative m s) := by
  have hbound := scale_le_add_droppedDigits m s
  have hkept := keptDigits_le m s
  rw [fit?_eq]
  by_cases hlarge : s < droppedDigits m s
  · rw [if_pos hlarge]
    exact .tooLarge (Or.inl hlarge)
  · rw [if_neg hlarge]
    by_cases hfits : keptDigits m s < 2 ^ 96
    · have hscale : s - droppedDigits m s ≤ 28 := by
        unfold maxScale at hbound
        omega
      rw [if_pos hfits, ofParts?, dif_pos ⟨hfits, hscale⟩]
      exact .fits (by omega) rfl rfl rfl
    · rw [if_neg hfits]
      by_cases hwhole : s = droppedDigits m s
      · rw [if_pos hwhole]
        exact .tooLarge (Or.inr ⟨hwhole, by omega⟩)
      · have hfull : keptDigits m s = 2 ^ 96 := by omega
        have hcarry : divHalfEven (keptDigits m s) 10 = carry := by rw [hfull, carry]
        have hparts : carry < 2 ^ 96 ∧ s - droppedDigits m s - 1 ≤ 28 := by
          unfold maxScale at hbound
          rw [carry_eq]
          omega
        rw [if_neg hwhole, hcarry, ofParts?, dif_pos hparts]
        exact .carried (by omega) hfull rfl rfl rfl

theorem negative_of_fit? (h : fit? negative m s = some a) : a.negative = negative := by
  have hfitted := fitted negative m s
  rw [h] at hfitted
  cases hfitted with
  | fits _ hsign => exact hsign
  | carried _ _ hsign => exact hsign

theorem parts_of_fit?_whole (h : fit? negative m 0 = some a) : a.magnitude = m ∧ a.scale = 0 := by
  have hfitted := fitted negative m 0
  rw [h] at hfitted
  cases hfitted with
  | fits hdropped _ hmagnitude hscale =>
    have hnone : droppedDigits m 0 = 0 := by omega
    rw [hmagnitude, keptDigits, hscale, hnone, Nat.pow_zero, divHalfEven_one]
    exact ⟨rfl, rfl⟩
  | carried hdropped => omega

/-- The size of one unit of the kept digits, in units of the largest scale. Sizes are compared in
these units. -/
private def unitSize (m s : Nat) : Nat := 10 ^ (maxScale + droppedDigits m s - s)

private theorem size_of_fits (hdropped : droppedDigits m s ≤ s)
    (hmagnitude : a.magnitude = keptDigits m s) (hscale : a.scale = s - droppedDigits m s) :
    a.size = keptDigits m s * unitSize m s := by
  have hexponent : maxScale - (s - droppedDigits m s) = maxScale + droppedDigits m s - s := by
    omega
  rw [size, hmagnitude, hscale, hexponent, unitSize]

private theorem size_of_carried (hdropped : droppedDigits m s < s)
    (hmagnitude : a.magnitude = carry) (hscale : a.scale = s - droppedDigits m s - 1) :
    a.size = carry * (10 * unitSize m s) := by
  have hbound := scale_le_add_droppedDigits m s
  have hexponent : maxScale - (s - droppedDigits m s - 1) =
      maxScale + droppedDigits m s - s + 1 := by
    omega
  rw [size, hmagnitude, hscale, hexponent, unitSize, Nat.pow_succ']

private theorem size_le_of_fitted (h : Fitted negative m s (some a)) :
    a.size ≤ carry * (10 * unitSize m s) := by
  cases h with
  | fits hdropped _ hmagnitude hscale =>
    have hlt := a.magnitude_lt
    have hkept : keptDigits m s ≤ carry * 10 := by
      rw [carry_eq]
      omega
    rw [size_of_fits hdropped hmagnitude hscale, ← Nat.mul_assoc]
    exact Nat.mul_le_mul_right _ hkept
  | carried hdropped _ _ hmagnitude hscale =>
    exact Nat.le_of_eq (size_of_carried hdropped hmagnitude hscale)

/-- More digits than the scale asks for are dropped only from numbers that are too large without. -/
theorem exists_le_of_droppedDigits (hsome : 0 < droppedDigits m s)
    (hmore : s < maxScale + droppedDigits m s) :
    ∃ d, droppedDigits m s = d + 1 ∧ 2 ^ 96 * 10 ^ d ≤ m := by
  obtain ⟨d, hd⟩ := Nat.exists_eq_succ_of_ne_zero (Nat.ne_of_gt hsome)
  have hnot : ¬ droppedDigits m s ≤ d := by omega
  rw [droppedDigits_le_iff, not_and, Nat.not_lt] at hnot
  exact ⟨d, hd, hnot (by omega)⟩

/-- A number that loses more digits than its scale asks for is kept with as many bits as fit. -/
private theorem carry_le_keptDigits (hsome : 0 < droppedDigits m s)
    (hmore : s < maxScale + droppedDigits m s) : carry ≤ keptDigits m s := by
  obtain ⟨d, hd, hlarge⟩ := exists_le_of_droppedDigits hsome hmore
  calc carry
      = divHalfEven (2 ^ 96 * 10 ^ d) (10 * 10 ^ d) :=
        (divHalfEven_mul_mul (Nat.pow_pos (by decide)) _ _).symm
    _ = divHalfEven (2 ^ 96 * 10 ^ d) (10 ^ droppedDigits m s) := by rw [← Nat.pow_succ', hd]
    _ ≤ keptDigits m s := divHalfEven_le_divHalfEven _ hlarge

private theorem le_size_of_fitted (hsome : 0 < droppedDigits m s)
    (hmore : s < maxScale + droppedDigits m s) (h : Fitted negative m s (some a)) :
    carry * unitSize m s ≤ a.size := by
  cases h with
  | fits hdropped _ hmagnitude hscale =>
    rw [size_of_fits hdropped hmagnitude hscale]
    exact Nat.mul_le_mul_right _ (carry_le_keptDigits hsome hmore)
  | carried hdropped _ _ hmagnitude hscale =>
    rw [size_of_carried hdropped hmagnitude hscale]
    exact Nat.mul_le_mul_left _ (by omega)

/-- At one scale a larger number is fitted to a larger size. If it loses more digits than the
smaller one, there is a carry between the two. -/
private theorem extent_le_extent_of_fitted {a? b? : Option Decimal} (hle : m ≤ m')
    (ha : Fitted negative m s a?) (hb : Fitted negative' m' s b?) : extent a? ≤ extent b? := by
  have hdropped : droppedDigits m s ≤ droppedDigits m' s := droppedDigits_le_droppedDigits hle
  have hkept (hsame : droppedDigits m s = droppedDigits m' s) :
      keptDigits m s ≤ keptDigits m' s := by
    unfold keptDigits
    rw [hsame]
    exact divHalfEven_le_divHalfEven _ hle
  cases b? with
  | none => exact le_top
  | some b =>
    cases a? with
    | none =>
      -- The smaller number drops all its fraction digits, so the larger one does the same.
      exfalso
      cases ha with
      | tooLarge hlarge =>
        cases hb with
        | fits hdropped' _ hmagnitude =>
          have hlt := b.magnitude_lt
          have := hkept (by omega)
          omega
        | carried hdropped' => omega
    | some a =>
      rw [extent_some_le_iff]
      rcases Nat.lt_or_eq_of_le hdropped with hmore | hsame
      · have hscale := scale_le_add_droppedDigits m s
        calc a.size
            ≤ carry * (10 * unitSize m s) := size_le_of_fitted ha
          _ ≤ carry * unitSize m' s := by
              refine Nat.mul_le_mul_left _ ?_
              unfold unitSize
              rw [← Nat.pow_succ']
              exact Nat.pow_le_pow_right (by decide) (by omega)
          _ ≤ b.size := le_size_of_fitted (by omega) (by omega) hb
      · have hunit : unitSize m s = unitSize m' s := by
          unfold unitSize
          rw [hsame]
        cases hb with
        | carried hdropped' _ _ hmagnitude hscale =>
          rw [size_of_carried hdropped' hmagnitude hscale, ← hunit]
          exact size_le_of_fitted ha
        | fits hdropped' _ hmagnitude hscale =>
          cases ha with
          | fits hdropped'' _ hmagnitude' hscale' =>
            rw [size_of_fits hdropped' hmagnitude hscale,
              size_of_fits hdropped'' hmagnitude' hscale', hunit]
            exact Nat.mul_le_mul_right _ (hkept hsame)
          | carried _ hfull =>
            have hlt := b.magnitude_lt
            have := hkept hsame
            omega

theorem fit?_of_lt (negative : Bool) (hlt : m < 2 ^ 96) (hle : s ≤ 28) :
    fit? negative m s = some ⟨negative, m, s, hlt, hle⟩ := by
  have hnone : droppedDigits m s = 0 := by
    have hdropped : droppedDigits m s ≤ 0 := droppedDigits_le_iff.2 ⟨hle, by omega⟩
    omega
  have hkept : keptDigits m s = m := by rw [keptDigits, hnone, Nat.pow_zero, divHalfEven_one]
  rw [fit?_eq, hnone, hkept, if_neg (Nat.not_lt_zero s), if_pos hlt, Nat.sub_zero, ofParts?,
    dif_pos ⟨hlt, hle⟩]

/-- A further zero is dropped before all other digits, so it is kept only where nothing is
dropped. -/
private theorem extent_fit?_mul_ten (negative : Bool) (m s : Nat) :
    extent (fit? negative (m * 10) (s + 1)) = extent (fit? negative m s) := by
  have hshift (k : Nat) : droppedDigits (m * 10) (s + 1) ≤ k + 1 ↔ droppedDigits m s ≤ k := by
    have hten : 2 ^ 96 * 10 ^ (k + 1) = 2 ^ 96 * 10 ^ k * 10 := (Nat.mul_assoc ..).symm
    rw [droppedDigits_le_iff, droppedDigits_le_iff, hten]
    omega
  by_cases hnone : droppedDigits (m * 10) (s + 1) = 0
  · obtain ⟨hscale, hlt⟩ := droppedDigits_le_iff.1 (Nat.le_of_eq hnone)
    unfold maxScale at hscale
    rw [Nat.pow_zero, Nat.mul_one] at hlt
    have hexponent : maxScale - s = maxScale - (s + 1) + 1 := by
      unfold maxScale
      omega
    rw [fit?_of_lt negative hlt hscale, fit?_of_lt negative (by omega) (by omega)]
    simp only [extent_some, size, hexponent, Nat.pow_succ', Nat.mul_assoc]
  · have hone : droppedDigits (m * 10) (s + 1) = droppedDigits m s + 1 := by
      obtain ⟨d, hd⟩ := Nat.exists_eq_succ_of_ne_zero hnone
      have hle := (hshift d).1 (by omega)
      have hge := (hshift (droppedDigits m s)).2 (Nat.le_refl _)
      omega
    have hkept : keptDigits (m * 10) (s + 1) = keptDigits m s := by
      unfold keptDigits
      rw [hone, Nat.pow_succ]
      exact divHalfEven_mul_mul (by decide) _ _
    have hdropped : s + 1 - (droppedDigits m s + 1) = s - droppedDigits m s := by omega
    simp only [fit?_eq, hone, hkept, hdropped, Nat.add_lt_add_iff_right,
      Nat.add_right_cancel_iff]

theorem extent_fit?_mul_pow (negative : Bool) (m s k : Nat) :
    extent (fit? negative (m * 10 ^ k) (s + k)) = extent (fit? negative m s) := by
  induction k with
  | zero => rw [Nat.pow_zero, Nat.mul_one, Nat.add_zero]
  | succ k ih => rw [Nat.pow_succ, ← Nat.mul_assoc, ← Nat.add_assoc, extent_fit?_mul_ten, ih]

theorem extent_fit?_le_extent_fit? (negative negative' : Bool)
    (h : m * 10 ^ s' ≤ m' * 10 ^ s) :
    extent (fit? negative m s) ≤ extent (fit? negative' m' s') := by
  have hsame := extent_le_extent_of_fitted h (fitted negative (m * 10 ^ s') (s + s'))
    (fitted negative' (m' * 10 ^ s) (s + s'))
  rw [extent_fit?_mul_pow, Nat.add_comm, extent_fit?_mul_pow] at hsame
  exact hsame

end fit

end Settlement.Decimal
