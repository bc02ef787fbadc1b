import Mathlib.Order.WellFounded
import Settlement.Proofs.Time

namespace Settlement.Timestamp

variable {s t u start now later deadline : Timestamp} {d : Span}

/-- The count of a time beside another one is its own, unless it lies in a leap second and earlier
in the day than the other: then the leap second is not counted. This is what all comparisons of
elapsed times come down to. -/
theorem countBeside_cases (t other : Timestamp) :
    (t.countBeside other = t.seconds * 1_000_000_000 + t.nanos - 1_000_000_000 ∧
        1_000_000_000 ≤ t.nanos ∧ t.seconds % 86400 < other.seconds % 86400) ∨
      (t.countBeside other = t.seconds * 1_000_000_000 + t.nanos ∧
        (t.nanos < 1_000_000_000 ∨ other.seconds % 86400 ≤ t.seconds % 86400)) := by
  unfold countBeside
  split
  · next h => exact .inl ⟨rfl, inLeapSecond_iff.1 h.1, h.2⟩
  · next h =>
    rw [inLeapSecond_iff, Classical.not_and_iff_not_or_not, Nat.not_le, Int.not_lt] at h
    exact .inr ⟨rfl, h⟩

section plain

theorem lapse_eq_sub (hstart : start.inLeapSecond = false) (ht : t.inLeapSecond = false) :
    start.lapse t = t.count - start.count := by
  unfold lapse countBeside
  simp [hstart, ht]

theorem lapse_le_lapse (hstart : start.inLeapSecond = false) (hnow : now.inLeapSecond = false)
    (hlater : later.inLeapSecond = false) (h : now ≤ later) : start.lapse now ≤ start.lapse later := by
  rw [lapse_eq_sub hstart hnow, lapse_eq_sub hstart hlater]
  have hcount := (le_iff_count_le hnow hlater).1 h
  omega

/-- What is left until a time that is to come is positive, and is over at that time, both outside of
leap seconds. -/
theorem after_since (hnow : now.inLeapSecond = false) (hdeadline : deadline.inLeapSecond = false)
    (h : now < deadline) :
    0 < (deadline.since now).nanos ∧ now.after (deadline.since now) = deadline := by
  have hlapse := lapse_eq_sub hnow hdeadline
  have hcount : now.count < deadline.count := by
    rw [← Int.not_le, ← le_iff_count_le hdeadline hnow]
    exact not_le.2 h
  have hend : deadline.count < countEnd := by
    have hseconds := deadline.lt_end
    rw [not_inLeapSecond_iff] at hdeadline
    unfold count countEnd
    omega
  have hreached : (now.after (deadline.since now)).count = deadline.count := by
    rw [count_after hnow, nanos_since, hlapse]
    omega
  have hplain : (now.after (deadline.since now)).inLeapSecond = false := inLeapSecond_after hnow
  refine ⟨?_, le_antisymm ?_ ?_⟩
  · rw [nanos_since, hlapse]
    omega
  · exact (le_iff_count_le hplain hdeadline).2 (Int.le_of_eq hreached)
  · exact (le_iff_count_le hdeadline hplain).2 (Int.le_of_eq hreached.symm)

end plain

/-- What is yet to begin is less than a second old by any clock, be it a leap second or not. -/
theorem lapse_lt_second (h : now < start) : start.lapse now < 1_000_000_000 := by
  have hnow := now.bounds
  have hstart := start.bounds
  rw [lt_def] at h
  unfold rank at h
  have hcases := now.countBeside_cases start
  have hcases' := start.countBeside_cases now
  unfold lapse
  omega

theorem lapse_le_final (start t : Timestamp) : start.lapse t ≤ start.lapse final := by
  have hbounds := t.bounds
  have hseconds : final.seconds = 8210266876799 := rfl
  have hfinal : final.nanos = 2 * 1_000_000_000 - 1 := rfl
  have ht := t.countBeside_cases start
  have hstart := start.countBeside_cases t
  have hend := final.countBeside_cases start
  have hstart' := start.countBeside_cases final
  rw [hseconds, hfinal] at hend
  rw [hseconds] at hstart'
  unfold lapse
  omega

section dips

/-- The points from `now` on at which a clock may fall back: now itself, the start of the leap
second that may follow this second, and the start of the next second. -/
def dips (now : Timestamp) : List Timestamp :=
  now :: [ofParts? now.seconds (max now.nanos 1_000_000_000),
    ofParts? (now.seconds + 1) 0].filterMap id

theorem mem_dips : t ∈ now.dips ↔ t = now ∨
    ofParts? now.seconds (max now.nanos 1_000_000_000) = some t ∨
      ofParts? (now.seconds + 1) 0 = some t := by
  simp [dips, eq_comm]

theorem le_of_mem_dips (h : t ∈ now.dips) : now ≤ t := by
  have hnanos := now.nanos_lt
  rcases mem_dips.1 h with rfl | hleap | hnext
  · exact le_refl _
  · obtain ⟨hseconds, hnanos'⟩ := ofParts?_eq_some hleap
    rw [le_def]
    unfold rank
    omega
  · obtain ⟨hseconds, hnanos'⟩ := ofParts?_eq_some hnext
    rw [le_def]
    unfold rank
    omega

/-- Elapsed times fall only at the ends of a second, and what is later than the next second is over
a second away: so the least elapsed time from now on is found at one of these points. -/
theorem exists_mem_dips_lapse_le (start : Timestamp) (h : now ≤ later) :
    ∃ t ∈ now.dips, start.lapse t ≤ start.lapse later := by
  have hnow := now.bounds
  have hlater := later.bounds
  have hleap := later.leap_ends_minute
  have hclock := later.countBeside_cases start
  have hstart := start.countBeside_cases later
  rw [le_def] at h
  unfold rank at h
  obtain hsecond | ⟨hsecond, hleaps⟩ | ⟨hsecond, hstays⟩ : now.seconds < later.seconds ∨
      (now.seconds = later.seconds ∧ now.nanos < 1_000_000_000 ∧ 1_000_000_000 ≤ later.nanos) ∨
      (now.seconds = later.seconds ∧
        (1_000_000_000 ≤ later.nanos → 1_000_000_000 ≤ now.nanos)) := by omega
  · -- A later second: the start of the next one is no later.
    obtain ⟨next, hnext, hseconds, hnanos⟩ :=
      exists_ofParts? (now.seconds + 1) 0 (by omega)
    have hclock' := next.countBeside_cases start
    have hstart' := start.countBeside_cases next
    refine ⟨next, mem_dips.2 (.inr (.inr hnext)), ?_⟩
    unfold lapse
    omega
  · -- The leap second after this second: its start is no later.
    obtain ⟨leap, hleap, hseconds, hnanos⟩ :=
      exists_ofParts? now.seconds (max now.nanos 1_000_000_000) (by omega)
    have hclock' := leap.countBeside_cases start
    have hstart' := start.countBeside_cases leap
    refine ⟨leap, mem_dips.2 (.inr (.inl hleap)), ?_⟩
    unfold lapse
    omega
  · have hclock' := now.countBeside_cases start
    have hstart' := start.countBeside_cases now
    refine ⟨now, mem_dips.2 (.inl rfl), ?_⟩
    unfold lapse
    omega

end dips

/-- There is a least elapsed time from now on, since it is found at one of finitely many points. -/
theorem exists_least_since (start now : Timestamp) : ∃ low, now ≤ low ∧
    ∀ t, now ≤ t → (low.since start).nanos ≤ (t.since start).nanos := by
  obtain ⟨low, hlow, hleast⟩ := WellFounded.has_min
    (measure fun t : Timestamp => (t.since start).nanos).wf {t | now ≤ t} ⟨now, le_refl now⟩
  exact ⟨low, hlow, fun t ht => Nat.not_lt.1 (hleast t ht)⟩

section between

/-- No clock jumps ahead: for every later time there is an earlier one, no earlier than now, that
shows at most a nanosecond less. -/
theorem exists_lapse_le_succ (start : Timestamp) (h : now < later) :
    ∃ t, now ≤ t ∧ t < later ∧ start.lapse later ≤ start.lapse t + 1 := by
  have hnow := now.bounds
  have hlater := later.bounds
  have hleap := now.leap_ends_minute
  have hleap' := later.leap_ends_minute
  have hminute := start.leap_ends_minute
  have hclock := later.countBeside_cases start
  have hstart := start.countBeside_cases later
  rw [lt_def] at h
  unfold rank at h
  -- The nanosecond before, which is in a leap second when a minute begins.
  obtain ⟨t, hseconds, hnanos⟩ : ∃ t : Timestamp,
      (0 < later.nanos ∧ t.seconds = later.seconds ∨
        later.nanos = 0 ∧ t.seconds = later.seconds - 1) ∧
      (0 < later.nanos ∧ t.nanos = later.nanos - 1 ∨
        later.nanos = 0 ∧ (later.seconds - 1) % 60 = 59 ∧ t.nanos = 2 * 1_000_000_000 - 1 ∨
        later.nanos = 0 ∧ (later.seconds - 1) % 60 ≠ 59 ∧ t.nanos = 1_000_000_000 - 1) := by
    obtain hinside | ⟨hbegins, hends⟩ | ⟨hbegins, hends⟩ : 0 < later.nanos ∨
        (later.nanos = 0 ∧ (later.seconds - 1) % 60 = 59) ∨
        (later.nanos = 0 ∧ (later.seconds - 1) % 60 ≠ 59) := by omega
    · obtain ⟨t, -, hseconds, hnanos⟩ :=
        exists_ofParts? later.seconds (later.nanos - 1) (by omega)
      exact ⟨t, by omega, by omega⟩
    · obtain ⟨t, -, hseconds, hnanos⟩ :=
        exists_ofParts? (later.seconds - 1) (2 * 1_000_000_000 - 1) (by omega)
      exact ⟨t, by omega, by omega⟩
    · obtain ⟨t, -, hseconds, hnanos⟩ :=
        exists_ofParts? (later.seconds - 1) (1_000_000_000 - 1) (by omega)
      exact ⟨t, by omega, by omega⟩
  have hclock' := t.countBeside_cases start
  have hstart' := start.countBeside_cases t
  refine ⟨t, ?_, ?_, ?_⟩
  · rw [le_def]
    unfold rank
    omega
  · rw [lt_def]
    unfold rank
    omega
  · unfold lapse
    omega

/-- A clock that does not show `x` yet and shows it or more at some time from now on shows exactly
`x` at some time from now on. -/
theorem exists_since_eq {x : Nat} (hle : now ≤ later) (hnow : (now.since start).nanos ≤ x)
    (hlater : x ≤ (later.since start).nanos) : ∃ t, now ≤ t ∧ (t.since start).nanos = x := by
  generalize hsteps : (later.rank - now.rank).toNat = steps
  induction steps using Nat.strongRecOn generalizing later with
  | ind steps ih =>
    rcases Nat.lt_or_eq_of_le hlater with hmore | heq
    · have hbefore : now < later := by
        refine not_le.1 fun hback => ?_
        rw [le_antisymm hle hback] at hnow
        omega
      obtain ⟨t, hnowt, htlater, hstep⟩ := exists_lapse_le_succ start hbefore
      have hshown : x ≤ (t.since start).nanos := by
        rw [nanos_since] at hmore ⊢
        omega
      refine ih _ ?_ hnowt hshown rfl
      rw [lt_def] at htlater
      rw [le_def] at hnowt
      omega
    · exact ⟨later, hle, heq.symm⟩

end between

end Settlement.Timestamp
