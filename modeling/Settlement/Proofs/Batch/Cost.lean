import Settlement.Batch.Cost
import Settlement.Proofs.ChunkSize
import Settlement.Proofs.Decimal.Product
import Settlement.Proofs.Decimal.Quotient

namespace Settlement

namespace Decimal

/-- A hundred times a count has all its digits, since it is within 96 bits. -/
theorem exists_mul?_hundred (n : Count) :
    ∃ scaled, (ofCount n).mul? hundred = some scaled ∧ scaled.value = 100 * n.val := by
  by_cases hzero : n.val = 0
  · refine ⟨zero, mul?_of_zero (Or.inl hzero), ?_⟩
    rw [value_of_zero rfl, hzero, Nat.cast_zero, mul_zero]
  · have hlt := n.isLt
    have hproduct : (ofCount n).magnitude * hundred.magnitude = n.val * 100 := rfl
    have hscale : (ofCount n).scale + hundred.scale = 0 := rfl
    refine ⟨_, mul?_of_lt (by omega) (by omega) (by omega), ?_⟩
    rw [value_of_not_negative rfl]
    simp only [hproduct, hscale, pow_zero, div_one]
    push_cast
    ring

end Decimal

section percent

variable {part whole : Count}

/-- The share before it is rounded to its two places, with all steps of its computation. -/
theorem exists_share (part : Count) (hwhole : whole ≠ 0) :
    ∃ scaled share places, (Decimal.ofCount part).mul? .hundred = some scaled ∧
      scaled.div? (Decimal.ofCount whole) = some share ∧ percent part whole = share.round 2 ∧
      Decimal.IsQuotient (100 * part.val / whole.val) places share := by
  obtain ⟨scaled, hscaled, hvalue⟩ := Decimal.exists_mul?_hundred part
  have hpos := Word.pos_of_ne_zero hwhole
  have hone : (1 : ℚ) ≤ whole.val := by exact_mod_cast hpos
  have hpart : (part.val : ℚ) < 2 ^ 64 := by exact_mod_cast part.isLt
  have hlt : |scaled.value / whole.val| < 2 ^ 90 := by
    rw [hvalue, abs_of_nonneg (by positivity), div_lt_iff₀ (by linarith)]
    linarith
  obtain ⟨share, places, hshare, hquotient⟩ := Decimal.exists_div?_ofCount hwhole hlt
  rw [hvalue] at hquotient
  refine ⟨scaled, share, places, hscaled, hshare, ?_, hquotient⟩
  have hdivided : ((Decimal.ofCount part).mul? .hundred >>= fun scaled =>
      scaled.div? (Decimal.ofCount whole)) = some share := by
    rw [hscaled]
    exact hshare
  rw [percent, if_neg hwhole]
  simp only [hdivided, Option.getD_some]

/-- A percentage is rounded twice, by the division and to its two places, and still is the exact one
rounded once: counts have 64 bits, so a quotient that is not a tie is farther from all ties than the
division can be off, and a tie has so few digits that it is divided exactly. -/
theorem isRounded_percent (part : Count) (hwhole : whole ≠ 0) :
    IsRounded 2 (100 * part.val / whole.val) (percent part whole).value := by
  obtain ⟨scaled, share, places, -, -, hpercent, hquotient⟩ := exists_share part hwhole
  have hpos := Word.pos_of_ne_zero hwhole
  have hone : (1 : ℚ) ≤ whole.val := by exact_mod_cast hpos
  have hpart : (part.val : ℚ) < 2 ^ 64 := by exact_mod_cast part.isLt
  have hwide : (whole.val : ℚ) < 2 ^ 64 := by exact_mod_cast whole.isLt
  have habs : |(100 * part.val / whole.val : ℚ)| = 100 * part.val / whole.val :=
    abs_of_nonneg (by positivity)
  rw [hpercent]
  refine Decimal.isRounded_round_of_near (m := 10000 * part.val) hpos ?_ ?_ ?_
  · push_cast
    ring
  · have hdist := hquotient.abs_sub_le
    rw [habs] at hdist
    have hwhole' : (0 : ℚ) < whole.val := by linarith
    rw [lt_div_iff₀ (by positivity)]
    have hbound : (1 / 10 ^ 28 + 6 * (100 * part.val / whole.val) / 2 ^ 96 : ℚ) * 10 ^ 2 *
        (2 * whole.val) < 1 := by
      have hcancel : (1 / 10 ^ 28 + 6 * (100 * part.val / whole.val) / 2 ^ 96 : ℚ) * 10 ^ 2 *
          (2 * whole.val) = 200 / 10 ^ 28 * whole.val + 120000 / 2 ^ 96 * part.val := by
        field_simp
        ring
      rw [hcancel]
      linarith
    refine lt_of_le_of_lt ?_ hbound
    gcongr
  · intro n htie
    refine hquotient.eq_of_short (k := 3) (n := 10 * n + 5) (by decide) ?_ ?_
    · push_cast
      linarith
    · rw [habs, div_mul_eq_mul_div, div_lt_iff₀ (by linarith)]
      linarith

theorem percent_mem (hle : part ≤ whole) :
    0 ≤ (percent part whole).value ∧ (percent part whole).value ≤ 100 := by
  by_cases hzero : whole = 0
  · rw [percent, if_pos hzero, Decimal.value_of_zero rfl]
    norm_num
  · have hpos : (0 : ℚ) < whole.val := by exact_mod_cast Word.pos_of_ne_zero hzero
    have hpart : (part.val : ℚ) ≤ whole.val := by exact_mod_cast Word.le_def.1 hle
    have hbelow : (100 * part.val / whole.val : ℚ) * 10 ^ 2 ≤ (10000 : ℤ) := by
      rw [div_mul_eq_mul_div, div_le_iff₀ hpos]
      push_cast
      linarith
    have habove : ((0 : ℤ) : ℚ) ≤ (100 * part.val / whole.val : ℚ) * 10 ^ 2 := by
      rw [Int.cast_zero]
      positivity
    obtain ⟨hlow, hhigh⟩ := (isRounded_percent part hzero).mem_Icc habove hbelow
    push_cast at hlow hhigh
    exact ⟨by linarith, by linarith⟩

end percent

section memory

variable {n : Count}

/-- The size of a chunk is within the width of a count, since it is no larger than the number of
operations. -/
theorem val_clamp_chunkSize (n : Count) :
    (Word.clamp (chunkSize n.val) : Count).val = chunkSize n.val := by
  have hle := chunkSize_le n.val
  have hlt := n.isLt
  rw [Word.val_clamp]
  omega

theorem chunkShare_mem (hn : n ≠ 0) :
    (0 : ℚ) ≤ chunkSize n.val / n.val ∧ (chunkSize n.val / n.val : ℚ) ≤ 1 := by
  have hpos : (0 : ℚ) < n.val := by exact_mod_cast Word.pos_of_ne_zero hn
  have hle : (chunkSize n.val : ℚ) ≤ n.val := by exact_mod_cast chunkSize_le n.val
  exact ⟨by positivity, (div_le_one hpos).2 hle⟩

theorem exists_rest (hn : n ≠ 0) :
    ∃ share rest places,
      (Decimal.ofCount (Word.clamp (chunkSize n.val))).div? (Decimal.ofCount n) = some share ∧
      Decimal.one.sub? share = some rest ∧ memorySavings n = rest.round 4 ∧
      Decimal.IsQuotient (chunkSize n.val / n.val) places share ∧ rest.value = 1 - share.value := by
  obtain ⟨hlow, hhigh⟩ := chunkShare_mem hn
  have hvalue : (Decimal.ofCount (Word.clamp (chunkSize n.val))).value = chunkSize n.val := by
    rw [Decimal.value_ofCount, val_clamp_chunkSize]
  have hlt : |(Decimal.ofCount (Word.clamp (chunkSize n.val))).value / n.val| < 2 ^ 90 := by
    rw [hvalue, abs_of_nonneg hlow]
    linarith
  obtain ⟨share, places, hshare, hquotient⟩ := Decimal.exists_div?_ofCount hn hlt
  rw [hvalue] at hquotient
  -- The difference from one has no more digits than fit.
  have hrest : ∃ rest, Decimal.one.sub? share = some rest ∧ rest.value = 1 - share.value := by
    have hone : Decimal.one.value = 1 := by
      rw [Decimal.value_of_not_negative rfl]
      norm_num [Decimal.one]
    have hdist := hquotient.abs_sub_le
    rw [abs_of_nonneg hlow] at hdist
    obtain ⟨hbelow, habove⟩ := abs_le.1 hdist
    have hsmall : |1 - share.value| ≤ 2 := abs_le.2 ⟨by linarith, by linarith⟩
    have hpow : (10 : ℚ) ^ max Decimal.one.scale share.scale ≤ 10 ^ 28 :=
      pow_le_pow_right₀ (by norm_num) (Nat.max_le.2 ⟨Decimal.one.scale_le, share.scale_le⟩)
    have hdigits : |1 - share.value| * 10 ^ max Decimal.one.scale share.scale ≤ 2 * 10 ^ 28 :=
      mul_le_mul hsmall hpow (by positivity) (by norm_num)
    have hfits : |Decimal.one.value - share.value| * 10 ^ max Decimal.one.scale share.scale <
        2 ^ 96 := by
      rw [hone]
      linarith
    obtain ⟨rest, hrest, hvalue⟩ := Decimal.exists_sub?_eq hfits
    exact ⟨rest, hrest, by rw [hvalue, hone]⟩
  obtain ⟨rest, hrest, hvalue⟩ := hrest
  refine ⟨share, rest, places, hshare, hrest, ?_, hquotient, hvalue⟩
  rw [memorySavings, if_neg hn]
  simp only [hshare, Option.bind_some, hrest, Option.getD_some]

/-- What is saved of the memory is the exact part, rounded once, for the same reason as a
percentage. -/
theorem isRounded_memorySavings (hn : n ≠ 0) :
    IsRounded 4 (1 - chunkSize n.val / n.val) (memorySavings n).value := by
  obtain ⟨share, rest, places, -, -, hsavings, hquotient, hvalue⟩ := exists_rest hn
  obtain ⟨hlow, hhigh⟩ := chunkShare_mem hn
  have hpos : (0 : ℚ) < n.val := by exact_mod_cast Word.pos_of_ne_zero hn
  have hwide : (n.val : ℚ) < 2 ^ 64 := by exact_mod_cast n.isLt
  rw [hsavings]
  refine Decimal.isRounded_round_of_near (m := 10000 * (n.val - chunkSize n.val))
    (Word.pos_of_ne_zero hn) ?_ ?_ ?_
  · push_cast
    field_simp
    ring
  · have hdist := hquotient.abs_sub_le
    rw [abs_of_nonneg hlow] at hdist
    have hgap : |1 - chunkSize n.val / n.val - rest.value| ≤ (2 / 10 ^ 28 : ℚ) := by
      rw [hvalue, sub_sub_sub_cancel_left, abs_sub_comm]
      linarith
    rw [lt_div_iff₀ (by positivity)]
    have hbound : (2 / 10 ^ 28 : ℚ) * 10 ^ 4 * (2 * n.val) < 1 := by linarith
    refine lt_of_le_of_lt ?_ hbound
    gcongr
  · intro k htie
    have hexact : share.value = chunkSize n.val / n.val := by
      refine hquotient.eq_of_short (k := 5) (n := 10 ^ 5 - 10 * k - 5) (by decide) ?_ ?_
      · push_cast
        linarith
      · rw [abs_of_nonneg hlow]
        linarith
    rw [hvalue, hexact]

theorem memorySavings_mem (hn : n ≠ 0) :
    0 ≤ (memorySavings n).value ∧ (memorySavings n).value ≤ 1 := by
  obtain ⟨hlow, hhigh⟩ := chunkShare_mem hn
  have habove : ((0 : ℤ) : ℚ) ≤ (1 - chunkSize n.val / n.val : ℚ) * 10 ^ 4 := by
    push_cast
    linarith
  have hbelow : (1 - chunkSize n.val / n.val : ℚ) * 10 ^ 4 ≤ (10000 : ℤ) := by
    push_cast
    linarith
  obtain ⟨hlower, hupper⟩ := (isRounded_memorySavings hn).mem_Icc habove hbelow
  push_cast at hlower hupper
  exact ⟨by linarith, by linarith⟩

end memory

theorem percent_satSub_mem (naive cost : Count) :
    0 ≤ (percent (naive.satSub cost) naive).value ∧
      (percent (naive.satSub cost) naive).value ≤ 100 := by
  apply percent_mem
  rw [Word.le_def, Word.val_satSub]
  exact Nat.sub_le _ _

/-- Reported percentages are the exact ones, rounded once: no step of their computation overflows,
and neither the division nor the subtraction before the rounding changes what it gives. What is
saved is between nothing and all. -/
theorem percentages_rounded :
    (∀ part whole : Count, whole ≠ 0 →
      (∃ scaled share, (Decimal.ofCount part).mul? .hundred = some scaled ∧
        scaled.div? (Decimal.ofCount whole) = some share ∧ percent part whole = share.round 2) ∧
      IsRounded 2 (100 * part.val / whole.val) (percent part whole).value) ∧
    (∀ n : Count, n ≠ 0 →
      (∃ share rest,
        (Decimal.ofCount (Word.clamp (chunkSize n.val))).div? (Decimal.ofCount n) = some share ∧
        Decimal.one.sub? share = some rest ∧ memorySavings n = rest.round 4) ∧
      IsRounded 4 (1 - chunkSize n.val / n.val) (memorySavings n).value ∧
      0 ≤ (memorySavings n).value ∧ (memorySavings n).value ≤ 1) ∧
    (∀ (m : CostModel) (operations settleCalls eraUpdates : Count),
      0 ≤ (m.estimate operations settleCalls eraUpdates).savingsPercent.value ∧
      (m.estimate operations settleCalls eraUpdates).savingsPercent.value ≤ 100) ∧
    (∀ (m : CostModel) (participants : Count),
      0 ≤ (m.eraSavings participants).savingsPercent.value ∧
      (m.eraSavings participants).savingsPercent.value ≤ 100) ∧
    ∀ (m : CostModel) (bytes : Count),
      0 ≤ (m.blobSavings bytes).savingsPercent.value ∧
      (m.blobSavings bytes).savingsPercent.value ≤ 100 := by
  refine ⟨fun part whole hwhole => ⟨?_, isRounded_percent part hwhole⟩,
    fun n hn => ⟨?_, isRounded_memorySavings hn, memorySavings_mem hn⟩,
    fun m operations settleCalls eraUpdates => percent_satSub_mem _ _,
    fun m participants => percent_satSub_mem _ _, fun m bytes => percent_satSub_mem _ _⟩
  · obtain ⟨scaled, share, -, hscaled, hshare, hpercent, -⟩ := exists_share part hwhole
    exact ⟨scaled, share, hscaled, hshare, hpercent⟩
  · obtain ⟨share, rest, -, hshare, hrest, hsavings, -, -⟩ := exists_rest hn
    exact ⟨share, rest, hshare, hrest, hsavings⟩

/-- An eighth of a percent lies between two numbers of two places, and the even one is reported. -/
theorem percentages_rounded_eighth :
    (800 : Count) ≠ 0 ∧ (percent 1 800).value = 12 / 100 ∧
      (3 : Count) ≠ 0 ∧ 0 ≤ (memorySavings 3).value := by
  obtain ⟨hpercent, hmemory, -⟩ := percentages_rounded
  refine ⟨by decide, ?_, by decide, (hmemory 3 (by decide)).2.2.1⟩
  have hone : (1 : Count).val = 1 := rfl
  have hwhole : (800 : Count).val = 800 := rfl
  refine (hpercent 1 800 (by decide)).2.unique ⟨12, by norm_num, ?_, fun _ => by decide⟩
  rw [hone, hwhole, abs_le]
  norm_num

end Settlement
