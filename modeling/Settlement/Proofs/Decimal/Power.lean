import Settlement.Fee
import Settlement.Proofs.Decimal.Product

namespace Settlement.Decimal

variable {a b : Decimal} {a? a'? b? b'? acc? acc'? square? square'? : Option Decimal} {p q : Nat}

/-- The product of two results. It is too large if one of them is, so powers can be followed beyond
the point where they cease to exist. -/
def times (a? b? : Option Decimal) : Option Decimal := do (← a?).mul? (← b?)

theorem times_some (a b : Decimal) : times (some a) (some b) = a.mul? b := rfl

@[simp] theorem times_none_left (b? : Option Decimal) : times none b? = none := rfl

@[simp] theorem times_none_right (a? : Option Decimal) : times a? none = none := by
  cases a? with
  | none => rfl
  | some a => rfl

theorem extent_times_le_extent_times (ha : extent a? ≤ extent a'?) (hb : extent b? ≤ extent b'?) :
    extent (times a? b?) ≤ extent (times a'? b'?) := by
  cases a'? with
  | none => exact le_top
  | some a' =>
    cases b'? with
    | none =>
      rw [times_none_right]
      exact le_top
    | some b' =>
      rw [extent_some, extent_le_coe_iff] at ha hb
      obtain ⟨a, rfl, ha⟩ := ha
      obtain ⟨b, rfl, hb⟩ := hb
      exact extent_mul?_le_extent_mul? ha hb

theorem extent_one_times (a? : Option Decimal) : extent (times (some one) a?) = extent a? := by
  cases a? with
  | none => rfl
  | some a =>
    rw [times_some]
    by_cases hzero : a.magnitude = 0
    · rw [mul?_of_zero (Or.inr hzero), extent_some, extent_some, size_zero_of_magnitude hzero]
      rfl
    · have hproduct : one.magnitude * a.magnitude = a.magnitude := Nat.one_mul _
      have hscale : one.scale + a.scale = a.scale := Nat.zero_add _
      have hlt := a.magnitude_lt
      have hle := a.scale_le
      rw [mul?_of_lt (by omega) (by omega) (by omega)]
      simp only [extent_some, size, hproduct, hscale]

theorem extent_times_comm (a? b? : Option Decimal) :
    extent (times a? b?) = extent (times b? a?) := by
  cases a? with
  | none => rw [times_none_left, times_none_right]
  | some a =>
    cases b? with
    | none => rw [times_none_left, times_none_right]
    | some b => exact extent_mul?_comm a b

/-- The power by squaring, where the numbers that it begins with may be too large already. The last
square is taken although nothing is multiplied by it any more. -/
def powAll (acc? square? : Option Decimal) (exp : Nat) : Option Decimal :=
  if exp = 0 then acc?
  else
    powAll (if exp % 2 = 1 then times acc? square? else acc?) (times square? square?) (exp / 2)
termination_by exp
decreasing_by omega

@[simp] theorem powAll_zero : powAll acc? square? 0 = acc? := by simp [powAll]

theorem powAll_half (acc? square? : Option Decimal) (exp : Nat) :
    powAll acc? square? exp =
      powAll (if exp % 2 = 1 then times acc? square? else acc?) (times square? square?)
        (exp / 2) := by
  by_cases hzero : exp = 0
  · simp [hzero]
  · rw [powAll, if_neg hzero]

theorem powAll_none_left (square? : Option Decimal) (exp : Nat) :
    powAll none square? exp = none := by
  induction exp using Nat.strongRecOn generalizing square? with
  | ind exp ih =>
    by_cases hzero : exp = 0
    · rw [hzero, powAll_zero]
    · rw [powAll_half, times_none_left, ite_self]
      exact ih _ (by omega) _

theorem powAll_none_right (acc? : Option Decimal) {exp : Nat} (hpos : 0 < exp) :
    powAll acc? none exp = none := by
  induction exp using Nat.strongRecOn with
  | ind exp ih =>
    rw [powAll_half, times_none_right, times_none_right]
    split
    · exact powAll_none_left _ _
    · exact ih _ (by omega) (by omega)

/-- One turn as the program takes it: it stops before the square that is not needed. -/
theorem powFrom?_half (acc square : Decimal) {exp : Nat} (hpos : 0 < exp) :
    powFrom? acc square exp =
      (if exp % 2 = 1 then acc.mul? square else some acc).bind fun acc =>
        if exp / 2 = 0 then some acc
        else (square.mul? square).bind fun square => powFrom? acc square (exp / 2) := by
  rw [powFrom?, if_neg (by omega)]
  by_cases hodd : exp % 2 = 1
  · simp only [if_pos hodd]
    rfl
  · simp only [if_neg hodd]
    rfl

theorem powFrom?_eq_powAll (acc square : Decimal) (exp : Nat) :
    powFrom? acc square exp = powAll (some acc) (some square) exp := by
  induction exp using Nat.strongRecOn generalizing acc square with
  | ind exp ih =>
    by_cases hzero : exp = 0
    · rw [powFrom?, if_pos hzero, hzero, powAll_zero]
    · rw [powFrom?_half acc square (by omega), powAll_half, times_some, times_some]
      generalize (if exp % 2 = 1 then acc.mul? square else some acc) = next?
      cases next? with
      | none => rw [powAll_none_left, Option.bind_none]
      | some next =>
        rw [Option.bind_some]
        by_cases hlast : exp / 2 = 0
        · rw [if_pos hlast, hlast, powAll_zero]
        · rw [if_neg hlast]
          cases square.mul? square with
          | none => rw [Option.bind_none, powAll_none_right _ (by omega)]
          | some square' => rw [Option.bind_some, ih _ (by omega)]

theorem pow?_eq_powAll (a : Decimal) (exp : Nat) :
    a.pow? exp = powAll (some one) (some a) exp :=
  powFrom?_eq_powAll one a exp

theorem pow?_zero (a : Decimal) : a.pow? 0 = some one := by rw [pow?_eq_powAll, powAll_zero]

/-- A result without a sign, if there is one. Bases of fees have none, so none of their powers
has. -/
def Unsigned (a? : Option Decimal) : Prop := ∀ a, a? = some a → a.negative = false

theorem unsigned_some (h : a.negative = false) : Unsigned (some a) := by
  rintro _ ⟨⟩
  exact h

theorem Unsigned.times (ha : Unsigned a?) (hb : Unsigned b?) : Unsigned (times a? b?) := by
  intro c hc
  obtain ⟨a, rfl, hc⟩ := Option.bind_eq_some_iff.1 hc
  obtain ⟨b, rfl, hc⟩ := Option.bind_eq_some_iff.1 hc
  exact negative_of_mul? (ha a rfl) (hb b rfl) hc

/-- A power of what has no sign has none, by induction on the turns. -/
theorem Unsigned.powAll (hacc : Unsigned acc?) (hsquare : Unsigned square?) (exp : Nat) :
    Unsigned (powAll acc? square? exp) := by
  induction exp using Nat.strongRecOn generalizing acc? square? with
  | ind exp ih =>
    by_cases hzero : exp = 0
    · rw [hzero, powAll_zero]
      exact hacc
    · rw [powAll_half]
      refine ih _ (by omega) ?_ (hsquare.times hsquare)
      split
      · exact hacc.times hsquare
      · exact hacc

theorem unsigned_pow? (h : a.negative = false) (exp : Nat) : Unsigned (a.pow? exp) := by
  rw [pow?_eq_powAll]
  exact (unsigned_some rfl).powAll (unsigned_some h) exp

/-- Results without a sign are ordered by their sizes: where the larger exists, so does the
smaller. -/
theorem Unsigned.exists_le (ha : Unsigned a?) (hb : Unsigned (some b))
    (h : extent a? ≤ extent (some b)) : ∃ a, a? = some a ∧ a ≤ b := by
  obtain ⟨a, rfl, hsize⟩ := extent_le_coe_iff.1 h
  exact ⟨a, rfl, (le_iff_size_le (ha a rfl) (hb b rfl)).2 hsize⟩

/-- An order of sizes that products keep. The powers of a number not below one rise with the
exponent, and those of a number not above one fall: both are the same argument, for the order of
sizes and for its reverse. -/
structure Compatible (r : WithTop Nat → WithTop Nat → Prop) : Prop where
  refl : ∀ x, r x x
  trans : ∀ {x y z}, r x y → r y z → r x z
  mul : ∀ {a? a'? b? b'? : Option Decimal}, r (extent a?) (extent a'?) →
    r (extent b?) (extent b'?) → r (extent (times a? b?)) (extent (times a'? b'?))

theorem compatible_le : Compatible (· ≤ ·) := ⟨le_refl, le_trans, extent_times_le_extent_times⟩

theorem compatible_ge : Compatible (· ≥ ·) :=
  ⟨le_refl, fun hxy hyz => le_trans hyz hxy, extent_times_le_extent_times⟩

namespace Compatible

variable {r : WithTop Nat → WithTop Nat → Prop}

theorem times_of_one (h : Compatible r) (ha : r (extent (some one)) (extent a?))
    (b? : Option Decimal) : r (extent b?) (extent (times a? b?)) := by
  have hmul := h.mul ha (h.refl (extent b?))
  rw [extent_one_times] at hmul
  exact hmul

theorem powAll_same (h : Compatible r) (hacc : r (extent acc?) (extent acc'?))
    (hsquare : r (extent square?) (extent square'?)) (exp : Nat) :
    r (extent (powAll acc? square? exp)) (extent (powAll acc'? square'? exp)) := by
  induction exp using Nat.strongRecOn generalizing acc? acc'? square? square'? with
  | ind exp ih =>
    by_cases hzero : exp = 0
    · rw [hzero, powAll_zero, powAll_zero]
      exact hacc
    · rw [powAll_half acc?, powAll_half acc'?]
      refine ih _ (by omega) ?_ (h.mul hsquare hsquare)
      split
      · exact h.mul hacc hsquare
      · exact hacc

/-- The power to the smaller of two exponents comes first. Neighbouring exponents are multiplied out
along different trees of products, each with its own roundings. As long as the bits that are left of
the exponents differ, what was multiplied for the smaller one comes before the next square. Where
they differ in the last bit only, the larger exponent multiplies by that square and the smaller one
does not. -/
theorem powAll_of_lt (h : Compatible r) (hone : r (extent (some one)) (extent square?))
    (hacc : r (extent acc?) (extent square?)) (hacc' : r (extent (some one)) (extent acc'?))
    (hlt : p < q) : r (extent (powAll acc? square? p)) (extent (powAll acc'? square? q)) := by
  induction q using Nat.strongRecOn generalizing acc? acc'? square? p with
  | ind q ih =>
    have hsquare := h.times_of_one hone square?
    have hodd : r (extent (some one)) (extent (times acc'? square?)) :=
      h.trans hone (h.times_of_one hacc' square?)
    rw [powAll_half acc?, powAll_half acc'?]
    rcases Nat.lt_or_eq_of_le (Nat.div_le_div_right (c := 2) (Nat.le_of_lt hlt)) with hbits | hbits
    · refine ih _ (by omega) (h.trans hone hsquare) ?_ ?_ hbits
      · split
        · exact h.mul hacc (h.refl _)
        · exact h.trans hacc hsquare
      · split
        · exact hodd
        · exact hacc'
    · have hp : ¬ p % 2 = 1 := by omega
      have hq : q % 2 = 1 := by omega
      rw [hbits, if_neg hp, if_pos hq]
      exact h.powAll_same (h.trans hacc (h.times_of_one hacc' square?)) (h.refl _) _

/-- The powers of a number that comes after one go in the order of their exponents. -/
theorem pow?_of_le (h : Compatible r) (hone : r (extent (some one)) (extent (some a)))
    (hle : p ≤ q) : r (extent (a.pow? p)) (extent (a.pow? q)) := by
  rcases Nat.lt_or_eq_of_le hle with hlt | rfl
  · rw [pow?_eq_powAll, pow?_eq_powAll]
    exact h.powAll_of_lt hone hone (h.refl _) hlt
  · exact h.refl _

end Compatible

end Settlement.Decimal
