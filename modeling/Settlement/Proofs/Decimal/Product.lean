import Settlement.Proofs.Decimal.Fit

namespace Settlement.Decimal

variable {a a' b b' c : Decimal}

theorem size_zero_of_magnitude (h : a.magnitude = 0) : a.size = 0 := by rw [size, h, Nat.zero_mul]

theorem atMaxScale_eq_size (h : a.negative = false) : a.atMaxScale = a.size := by
  rw [atMaxScale, coefficient, h, if_neg Bool.false_ne_true, size]
  push_cast
  rfl

theorem le_iff_size_le (ha : a.negative = false) (hb : b.negative = false) :
    a ≤ b ↔ a.size ≤ b.size := by
  change a.atMaxScale ≤ b.atMaxScale ↔ _
  rw [atMaxScale_eq_size ha, atMaxScale_eq_size hb, Int.ofNat_le]

theorem size_le_size_iff :
    a.size ≤ b.size ↔ a.magnitude * 10 ^ b.scale ≤ b.magnitude * 10 ^ a.scale := by
  have hpos : 0 < 10 ^ (a.scale + b.scale) := Nat.pow_pos (by decide)
  have hwhole : 0 < 10 ^ maxScale := Nat.pow_pos (by decide)
  have hleft : a.size * 10 ^ (a.scale + b.scale) = a.magnitude * 10 ^ b.scale * 10 ^ maxScale := by
    have hscale := a.scale_le
    rw [size, Nat.mul_assoc, Nat.mul_assoc, ← Nat.pow_add, ← Nat.pow_add]
    congr 2
    unfold maxScale
    omega
  have hright : b.size * 10 ^ (a.scale + b.scale) =
      b.magnitude * 10 ^ a.scale * 10 ^ maxScale := by
    have hscale := b.scale_le
    rw [size, Nat.mul_assoc, Nat.mul_assoc, ← Nat.pow_add, ← Nat.pow_add]
    congr 2
    unfold maxScale
    omega
  rw [← Nat.mul_le_mul_right_iff hpos, hleft, hright, Nat.mul_le_mul_right_iff hwhole]

private theorem extent_fit?_zero (negative : Bool) (s : Nat) :
    extent (fit? negative 0 s) = WithTop.some 0 := by
  have hwritten := extent_fit?_mul_pow negative 0 0 s
  rw [Nat.zero_mul, Nat.zero_add, fit?_of_lt (m := 0) (s := 0) negative (by decide) (by decide)]
    at hwritten
  rw [hwritten, extent_some, size_zero_of_magnitude rfl]

private theorem extent_fit?_of_small (negative : Bool) {m s : Nat} (hsmall : m < 2 ^ 64)
    (hlong : 47 < s) : extent (fit? negative m s) = WithTop.some 0 := by
  have hle : m * 10 ^ 29 ≤ 4 * 10 ^ s := by
    have hpow : 10 ^ 48 ≤ 10 ^ s := Nat.pow_le_pow_right (by decide) hlong
    omega
  have hfour : extent (fit? negative 4 29) = WithTop.some 0 := by
    have hdropped : droppedDigits 4 29 = 1 := by
      have hone : droppedDigits 4 29 ≤ 1 := droppedDigits_le_iff.2 (by decide)
      have hzero : ¬ droppedDigits 4 29 ≤ 0 := by
        rw [droppedDigits_le_iff]
        decide
      omega
    have hkept : keptDigits 4 29 = 0 := by
      rw [keptDigits, hdropped]
      exact divHalfEven_eq_zero (by decide)
    rw [fit?_eq, hdropped, hkept]
    rfl
  have hbound := extent_fit?_le_extent_fit? negative negative hle
  rw [hfour, extent_le_coe_iff] at hbound
  obtain ⟨a, ha, hsize⟩ := hbound
  rw [ha, extent_some, Nat.le_zero.1 hsize]

/-- The size of a product is that of the exact product, fitted: the short ways that multiplication
takes for zeros and for small factors give what fitting would give as well. -/
theorem extent_mul? (a b : Decimal) :
    extent (a.mul? b) =
      extent (fit? (a.negative != b.negative) (a.magnitude * b.magnitude) (a.scale + b.scale)) := by
  unfold mul?
  split
  · next hzero =>
    have hproduct : a.magnitude * b.magnitude = 0 := Nat.mul_eq_zero.2 hzero
    rw [hproduct, extent_fit?_zero]
    rfl
  · simp only
    split
    · next hshort =>
      split
      · next hlong =>
        have hsmall : a.magnitude * b.magnitude < 2 ^ 32 * 2 ^ 32 :=
          Nat.mul_lt_mul_of_lt_of_lt hshort.1 hshort.2
        rw [extent_fit?_of_small _ hsmall hlong]
        rfl
      · rw [extent_map_plainZero]
    · rfl

theorem extent_mul?_comm (a b : Decimal) : extent (a.mul? b) = extent (b.mul? a) := by
  rw [extent_mul?, extent_mul?, Nat.mul_comm, Nat.add_comm, bne_comm]

theorem extent_mul?_le_extent_mul? (ha : a.size ≤ a'.size) (hb : b.size ≤ b'.size) :
    extent (a.mul? b) ≤ extent (a'.mul? b') := by
  rw [size_le_size_iff] at ha hb
  rw [extent_mul?, extent_mul?]
  apply extent_fit?_le_extent_fit?
  calc a.magnitude * b.magnitude * 10 ^ (a'.scale + b'.scale)
      = a.magnitude * 10 ^ a'.scale * (b.magnitude * 10 ^ b'.scale) := by
        rw [Nat.pow_add, Nat.mul_mul_mul_comm]
    _ ≤ a'.magnitude * 10 ^ a.scale * (b'.magnitude * 10 ^ b.scale) := Nat.mul_le_mul ha hb
    _ = a'.magnitude * b'.magnitude * 10 ^ (a.scale + b.scale) := by
        rw [Nat.pow_add, Nat.mul_mul_mul_comm]

theorem mul?_of_lt (hpos : 0 < a.magnitude * b.magnitude)
    (hlt : a.magnitude * b.magnitude < 2 ^ 96) (hle : a.scale + b.scale ≤ 28) :
    a.mul? b = some ⟨a.negative != b.negative, a.magnitude * b.magnitude, a.scale + b.scale,
      hlt, hle⟩ := by
  have hnonzero : ¬ (a.magnitude = 0 ∨ b.magnitude = 0) := by
    rw [← Nat.mul_eq_zero]
    omega
  have hplain : (a.magnitude * b.magnitude != 0) = true := by
    rw [bne_iff_ne]
    omega
  unfold mul?
  rw [if_neg hnonzero]
  simp only [fit?_of_lt _ hlt hle, Option.map_some, plainZero, hplain, Bool.and_true]
  split
  · rw [if_neg (by omega)]
  · rfl

theorem mul?_of_zero (h : a.magnitude = 0 ∨ b.magnitude = 0) : a.mul? b = some zero := if_pos h

/-- A product is the fitted one, which loses its sign if it is a short zero, or a zero of scale
0. -/
theorem eq_of_mul? (h : a.mul? b = some c) :
    c = zero ∨ ∃ d, fit? (a.negative != b.negative) (a.magnitude * b.magnitude)
      (a.scale + b.scale) = some d ∧ (c = d ∨ c = d.plainZero) := by
  unfold mul? at h
  split at h
  · cases h
    exact Or.inl rfl
  · simp only at h
    split at h
    · split at h
      · cases h
        exact Or.inl rfl
      · obtain ⟨d, hd, rfl⟩ := Option.map_eq_some_iff.1 h
        exact Or.inr ⟨d, hd, Or.inr rfl⟩
    · exact Or.inr ⟨c, h, Or.inl rfl⟩

theorem negative_of_mul? (ha : a.negative = false) (hb : b.negative = false)
    (h : a.mul? b = some c) : c.negative = false := by
  rcases eq_of_mul? h with rfl | ⟨d, hd, hc⟩
  · rfl
  · have hsign : d.negative = false := by
      rw [negative_of_fit? hd, ha, hb]
      rfl
    rcases hc with rfl | rfl
    · exact hsign
    · rw [plainZero, hsign, Bool.false_and]

end Settlement.Decimal
