import Mathlib.Algebra.Group.Int.Defs
import Settlement.Proofs.Decimal.Power
import Settlement.Proofs.Result

namespace Settlement

namespace Decimal

variable {b : Decimal}

private theorem one_add?_eq_fit? (hb : b.magnitude ≠ 0) :
    one.add? b = fit? (decide (10 ^ b.scale + b.coefficient < 0))
      (10 ^ b.scale + b.coefficient).natAbs b.scale := by
  have hscale : max one.scale b.scale = b.scale := Nat.zero_max _
  have hone : one.coefficient * 10 ^ (b.scale - one.scale) = 10 ^ b.scale := Int.one_mul _
  unfold add?
  rw [if_neg (by decide), if_neg hb]
  simp only [hscale, hone, Nat.sub_self, Int.pow_zero, Int.mul_one]

theorem one_add?_of_nonneg (hb : b.negative = false) :
    one.add? b =
      if b.magnitude = 0 then some one else fit? false (10 ^ b.scale + b.magnitude) b.scale := by
  split
  · next hzero => rw [add?, if_neg (by decide), if_pos hzero]
  · next hsome =>
    have hsum : (10 : Int) ^ b.scale + b.coefficient = (10 ^ b.scale + b.magnitude : Nat) := by
      rw [coefficient, hb, if_neg Bool.false_ne_true]
      push_cast
      rfl
    rw [one_add?_eq_fit? hsome, hsum, Int.natAbs_natCast,
      decide_eq_false (Int.not_lt.2 (Int.natCast_nonneg _))]

theorem one_sub?_of_part (hb : b.negative = false) (hpart : b.magnitude ≤ 10 ^ b.scale) :
    one.sub? b =
      if b.magnitude = 0 then some one else fit? false (10 ^ b.scale - b.magnitude) b.scale := by
  have hneg : b.neg.magnitude = b.magnitude ∧ b.neg.scale = b.scale := ⟨rfl, rfl⟩
  unfold sub?
  split
  · next hzero => rw [add?, if_neg (by decide), if_pos (hneg.1.trans hzero)]
  · next hsome =>
    have hrest : (10 : Int) ^ b.scale + b.neg.coefficient = (10 ^ b.scale - b.magnitude : Nat) := by
      rw [coefficient_neg, coefficient, hb, if_neg Bool.false_ne_true, Int.ofNat_sub hpart]
      push_cast
      omega
    rw [one_add?_eq_fit? (by rw [hneg.1]; exact hsome), hneg.2, hrest, Int.natAbs_natCast,
      decide_eq_false (Int.not_lt.2 (Int.natCast_nonneg _))]

theorem extent_fit?_ten_pow (negative : Bool) (s : Nat) :
    extent (fit? negative (10 ^ s) s) = extent (some one) := by
  have hwritten := extent_fit?_mul_pow negative 1 0 s
  rw [Nat.one_mul, Nat.zero_add, fit?_of_lt (m := 1) (s := 0) negative (by decide) (by decide)]
    at hwritten
  rw [hwritten]
  rfl

end Decimal

namespace FeeSchedule

open Decimal

variable {s : FeeSchedule} {p q : PeriodId}

/-- The conditions of a schedule: neither the base fee nor the rate is negative, and no more decays
than there is. -/
structure Valid (s : FeeSchedule) : Prop where
  baseFee : s.baseFee.negative = false
  rate : s.rate.negative = false
  part : s.curve = .decay → s.rate.magnitude ≤ 10 ^ s.rate.scale

theorem valid_of_validate (h : s.validate = .ok ()) : s.Valid := by
  obtain ⟨_, hbase, h⟩ := Result.bind_eq_ok_iff.1 h
  obtain ⟨_, hrate, hpart⟩ := Result.bind_eq_ok_iff.1 h
  rw [require_eq_ok_iff, Bool.not_eq_true'] at hbase hrate
  rw [require_eq_ok_iff, not_and] at hpart
  refine ⟨hbase, hrate, fun hdecay => ?_⟩
  have hsize : ¬ Decimal.one.atMaxScale < s.rate.atMaxScale := hpart hdecay
  rw [atMaxScale_eq_size hrate, atMaxScale_eq_size rfl, Int.not_lt, Int.ofNat_le,
    size_le_size_iff] at hsize
  have hone : Decimal.one.magnitude = 1 ∧ Decimal.one.scale = 0 := ⟨rfl, rfl⟩
  rw [hone.1, hone.2, Nat.pow_zero, Nat.mul_one, Nat.one_mul] at hsize
  exact hsize

theorem Valid.extent_factor?_of_growth (h : s.Valid) (hgrowth : s.curve = .growth) :
    extent (some Decimal.one) ≤ extent s.factor? := by
  have hfactor : s.factor? = Decimal.one.add? s.rate := by rw [factor?, hgrowth]
  rw [hfactor, one_add?_of_nonneg h.rate]
  split
  · exact le_refl _
  · rw [← extent_fit?_ten_pow false s.rate.scale]
    exact extent_fit?_le_extent_fit? _ _ (Nat.mul_le_mul_right _ (Nat.le_add_right _ _))

theorem Valid.extent_factor?_of_decay (h : s.Valid) (hdecay : s.curve = .decay) :
    extent s.factor? ≤ extent (some Decimal.one) := by
  have hfactor : s.factor? = Decimal.one.sub? s.rate := by rw [factor?, hdecay]
  rw [hfactor, one_sub?_of_part h.rate (h.part hdecay)]
  split
  · exact le_refl _
  · rw [← extent_fit?_ten_pow false s.rate.scale]
    exact extent_fit?_le_extent_fit? _ _ (Nat.mul_le_mul_right _ (Nat.sub_le _ _))

theorem Valid.unsigned_factor? (h : s.Valid) : Unsigned s.factor? := by
  have hone : Decimal.one.negative = false := rfl
  cases hcurve : s.curve with
  | growth =>
    have hfactor : s.factor? = Decimal.one.add? s.rate := by rw [factor?, hcurve]
    rw [hfactor, one_add?_of_nonneg h.rate]
    split
    · exact unsigned_some hone
    · exact fun _ => negative_of_fit?
  | decay =>
    have hfactor : s.factor? = Decimal.one.sub? s.rate := by rw [factor?, hcurve]
    rw [hfactor, one_sub?_of_part h.rate (h.part hcurve)]
    split
    · exact unsigned_some hone
    · exact fun _ => negative_of_fit?

/-- What the base fee is multiplied by: the power of the factor for this period. -/
def multiplier? (s : FeeSchedule) (period : PeriodId) : Option Decimal :=
  s.factor?.bind fun factor => factor.pow? period.number.val

/-- A fee is the base fee times a power of the factor of its schedule, so fees go the way that the
powers go. -/
theorem feeOf?_eq_times (s : FeeSchedule) (period : PeriodId) :
    s.feeOf? period = times (some s.baseFee) (s.multiplier? period) := by
  unfold feeOf? multiplier?
  cases s.factor? with
  | none => rfl
  | some factor => rfl

/-- A schedule has a fee where the products on the way to it can be formed. -/
theorem feeOf_eq_ok_iff {fee : Decimal} : s.feeOf p = .ok fee ↔ s.feeOf? p = some fee :=
  orRefuse_eq_ok_iff

theorem feeOf_eq_error_iff {e : Error} :
    s.feeOf p = .error e ↔ s.feeOf? p = none ∧ e = .overflow "period fee" := by
  unfold feeOf
  cases s.feeOf? p with
  | none => simp [orRefuse, eq_comm]
  | some fee => simp [orRefuse]

theorem Valid.unsigned_feeOf? (h : s.Valid) (period : PeriodId) : Unsigned (s.feeOf? period) := by
  rw [feeOf?_eq_times]
  refine (unsigned_some h.baseFee).times fun power hpower => ?_
  obtain ⟨factor, hfactor, hpower⟩ := Option.bind_eq_some_iff.1 hpower
  exact unsigned_pow? (h.unsigned_factor? factor hfactor) _ power hpower

theorem extent_feeOf?_of_zero (hfactor : s.factor?.isSome) (hzero : p.number = 0) :
    extent (s.feeOf? p) = extent (some s.baseFee) := by
  obtain ⟨factor, hfactor⟩ := Option.isSome_iff_exists.1 hfactor
  have hpower : s.multiplier? p = some Decimal.one := by
    rw [multiplier?, hfactor, Option.bind_some, hzero, Word.val_zero, pow?_zero]
  rw [feeOf?_eq_times, hpower, extent_times_comm, extent_one_times]

section order

variable {r : WithTop Nat → WithTop Nat → Prop}

theorem feeOf?_of_le (h : Compatible r) (hone : r (extent (some Decimal.one)) (extent s.factor?))
    (hle : p.number ≤ q.number) : r (extent (s.feeOf? p)) (extent (s.feeOf? q)) := by
  rw [feeOf?_eq_times, feeOf?_eq_times]
  refine h.mul (h.refl _) ?_
  unfold multiplier?
  cases hfactor : s.factor? with
  | none => exact h.refl _
  | some factor =>
    rw [hfactor] at hone
    exact h.pow?_of_le hone hle

theorem baseFee_feeOf? (h : Compatible r)
    (hone : r (extent (some Decimal.one)) (extent s.factor?)) (period : PeriodId) :
    r (extent (some s.baseFee)) (extent (s.feeOf? period)) := by
  rw [feeOf?_eq_times, extent_times_comm]
  refine h.times_of_one ?_ _
  unfold multiplier?
  cases hfactor : s.factor? with
  | none =>
    rw [hfactor] at hone
    exact hone
  | some factor =>
    rw [hfactor] at hone
    rw [← pow?_zero factor]
    exact h.pow?_of_le hone (Nat.zero_le _)

end order

/-- The fees of a decaying schedule. There is one for every period, between zero and the base fee;
that of period 0 is the base fee, and from period to period fees never rise. -/
theorem fees_fall_of_decay (hvalid : s.validate = .ok ()) (hdecay : s.curve = .decay) :
    ∃ fee : PeriodId → Decimal,
      (∀ p, s.feeOf p = .ok (fee p) ∧ Decimal.zero ≤ fee p ∧ fee p ≤ s.baseFee) ∧
        (∀ p, p.number = 0 → SameValue (fee p) s.baseFee) ∧
        ∀ p q, p.number ≤ q.number → fee q ≤ fee p := by
  have hschedule := valid_of_validate hvalid
  have hone := hschedule.extent_factor?_of_decay hdecay
  have hbelow (p : PeriodId) := baseFee_feeOf? compatible_ge hone p
  have hexists (p : PeriodId) : ∃ fee, s.feeOf? p = some fee ∧ fee ≤ s.baseFee :=
    (hschedule.unsigned_feeOf? p).exists_le (unsigned_some hschedule.baseFee) (hbelow p)
  choose fee hfee hle using hexists
  have hsign (p : PeriodId) : (fee p).negative = false := hschedule.unsigned_feeOf? p _ (hfee p)
  refine ⟨fee, fun p => ⟨feeOf_eq_ok_iff.2 (hfee p), ?_, hle p⟩, fun p hzero => ?_,
    fun p q hpq => ?_⟩
  · rw [le_iff_size_le rfl (hsign p)]
    exact Nat.zero_le _
  · obtain ⟨factor, hfactor, -⟩ := extent_le_coe_iff.1 hone
    have hsize := extent_feeOf?_of_zero (Option.isSome_iff_exists.2 ⟨factor, hfactor⟩) hzero
    rw [hfee, extent_some_inj] at hsize
    rw [SameValue, atMaxScale_eq_size (hsign p), atMaxScale_eq_size hschedule.baseFee, hsize]
  · have hfall := feeOf?_of_le compatible_ge hone hpq
    rw [hfee, hfee] at hfall
    rw [le_iff_size_le (hsign q) (hsign p)]
    exact extent_some_le_iff.1 hfall

/-- The largest base fee, and the smallest rate. Every product on the way to a fee is rounded, so
that the order of the fees rests on the rounding. -/
def fineSchedule : FeeSchedule where
  baseFee := { Decimal.zero with magnitude := 2 ^ 96 - 1, magnitude_lt := by decide }
  rate := { Decimal.one with scale := 28, scale_le := by decide }
  curve := .decay

theorem fees_fall_of_decay_of_fineSchedule :
    fineSchedule.validate = .ok () ∧ fineSchedule.curve = .decay ∧
      ∃ fee : PeriodId → Decimal,
        (∀ p, fineSchedule.feeOf p = .ok (fee p) ∧ Decimal.zero ≤ fee p ∧
            fee p ≤ fineSchedule.baseFee) ∧
          (∀ p, p.number = 0 → SameValue (fee p) fineSchedule.baseFee) ∧
          ∀ p q, p.number ≤ q.number → fee q ≤ fee p := by
  have hvalid : fineSchedule.validate = .ok () := rfl
  exact ⟨hvalid, rfl, fees_fall_of_decay hvalid rfl⟩

/-- The fees of a growing schedule. If a period has a fee, every earlier one has, which is not below
the base fee and not above the later fee; if a fee is too large, so is that of every later
period. -/
theorem fees_rise_of_growth (hvalid : s.validate = .ok ()) (hgrowth : s.curve = .growth)
    (hle : p.number ≤ q.number) :
    (∀ later, s.feeOf q = .ok later →
        ∃ fee, s.feeOf p = .ok fee ∧ s.baseFee ≤ fee ∧ fee ≤ later) ∧
      ∀ e, s.feeOf p = .error e → e = .overflow "period fee" ∧ s.feeOf q = .error e := by
  have hschedule := valid_of_validate hvalid
  have hone := hschedule.extent_factor?_of_growth hgrowth
  have hrise := feeOf?_of_le compatible_le hone hle
  have hsign (period : PeriodId) := hschedule.unsigned_feeOf? period
  constructor
  · intro later hlater
    rw [feeOf_eq_ok_iff] at hlater
    rw [hlater] at hrise
    obtain ⟨fee, hfee, hbelow⟩ := (hsign p).exists_le (hlater ▸ hsign q) hrise
    have habove := baseFee_feeOf? compatible_le hone p
    rw [hfee, extent_some_le_iff] at habove
    refine ⟨fee, feeOf_eq_ok_iff.2 hfee, ?_, hbelow⟩
    rwa [le_iff_size_le hschedule.baseFee (hsign p fee hfee)]
  · intro e herror
    rw [feeOf_eq_error_iff] at herror ⊢
    obtain ⟨hnone, rfl⟩ := herror
    rw [hnone] at hrise
    exact ⟨rfl, extent_eq_top_iff.1 (top_le_iff.1 hrise), rfl⟩

/-- A schedule whose fees double. Some later periods have no fee. -/
def doublingSchedule : FeeSchedule where
  baseFee := Decimal.hundred
  rate := Decimal.one
  curve := .growth

theorem fees_rise_of_growth_of_doublingSchedule :
    doublingSchedule.validate = .ok () ∧ doublingSchedule.curve = .growth ∧
      (∃ earlier later, doublingSchedule.feeOf ⟨60⟩ = .ok earlier ∧
        doublingSchedule.feeOf ⟨80⟩ = .ok later ∧ doublingSchedule.baseFee ≤ earlier ∧
          earlier ≤ later) ∧
      ∃ e, doublingSchedule.feeOf ⟨90⟩ = .error e ∧ e = .overflow "period fee" ∧
        doublingSchedule.feeOf ⟨1000⟩ = .error e := by
  have hvalid : doublingSchedule.validate = .ok () := rfl
  obtain ⟨later, hsome⟩ : ∃ later, doublingSchedule.feeOf? ⟨80⟩ = some later :=
    Option.isSome_iff_exists.1 (by decide +kernel)
  have hlater : doublingSchedule.feeOf ⟨80⟩ = .ok later := feeOf_eq_ok_iff.2 hsome
  have hnone : doublingSchedule.feeOf? ⟨90⟩ = none := by decide +kernel
  have herror : doublingSchedule.feeOf ⟨90⟩ = .error (.overflow "period fee") :=
    feeOf_eq_error_iff.2 ⟨hnone, rfl⟩
  have hfees := fees_rise_of_growth (p := ⟨60⟩) (q := ⟨80⟩) hvalid rfl (by decide)
  have hoverflow := fees_rise_of_growth (p := ⟨90⟩) (q := ⟨1000⟩) hvalid rfl (by decide)
  obtain ⟨earlier, hearlier, hbase, hrises⟩ := hfees.1 later hlater
  exact ⟨hvalid, rfl, ⟨earlier, later, hearlier, hlater, hbase, hrises⟩, _, herror,
    hoverflow.2 _ herror⟩

end FeeSchedule

end Settlement
