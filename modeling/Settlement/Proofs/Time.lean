import Settlement.Time.Basic

namespace Settlement.Timestamp

variable {s t u : Timestamp} {d e : Span}

section order

/-- The range of the parts of a time. Each of its nanoseconds can be one of a leap second. -/
theorem bounds (t : Timestamp) : -8334601228800 ≤ t.seconds ∧ t.seconds < 8210266876800 ∧
    t.nanos < 2 * 1_000_000_000 :=
  ⟨t.earliest_le, t.lt_end, t.nanos_lt⟩

/-- Times are ordered by one number, their rank, so that the laws of a linear order are those of the
integers. -/
theorem le_refl (t : Timestamp) : t ≤ t := Int.le_refl _

theorem le_trans (hst : s ≤ t) (htu : t ≤ u) : s ≤ u := Int.le_trans hst htu

theorem le_total (s t : Timestamp) : s ≤ t ∨ t ≤ s := Int.le_total _ _

theorem not_lt : ¬ s < t ↔ t ≤ s := Int.not_lt

theorem not_le : ¬ s ≤ t ↔ t < s := Int.not_le

theorem le_of_lt (h : s < t) : s ≤ t := Int.le_of_lt h

theorem le_antisymm (hst : s ≤ t) (hts : t ≤ s) : s = t := by
  have hs := s.bounds
  have ht := t.bounds
  obtain ⟨seconds, nanos⟩ := s
  obtain ⟨seconds', nanos'⟩ := t
  rw [le_def] at hst hts
  simp only [rank] at hst hts hs ht
  obtain ⟨rfl, rfl⟩ : seconds = seconds' ∧ nanos = nanos' := by omega
  rfl

/-- What comes no later than any time from two others on is no later than one of them. -/
theorem le_or_le_of_forall (h : ∀ later, s ≤ later → t ≤ later → u ≤ later) : u ≤ t ∨ u ≤ s := by
  rcases le_total s t with hst | hts
  · exact .inl (h t hst (le_refl t))
  · exact .inr (h s (le_refl s) hts)

theorem inLeapSecond_iff : t.inLeapSecond = true ↔ 1_000_000_000 ≤ t.nanos := decide_eq_true_iff

theorem not_inLeapSecond_iff : t.inLeapSecond = false ↔ t.nanos < 1_000_000_000 := by
  rw [← Bool.not_eq_true, inLeapSecond_iff, Nat.not_le]

/-- Outside of leap seconds the order is that of the counts. In a leap second the count is that of
the next second already, which is later. -/
theorem le_iff_count_le (hs : s.inLeapSecond = false) (ht : t.inLeapSecond = false) :
    s ≤ t ↔ s.count ≤ t.count := by
  rw [not_inLeapSecond_iff] at hs ht
  rw [le_def]
  unfold rank count
  omega

/-- The rank of the last point in time, as a closed number that arithmetic can use. -/
theorem rank_latest : latest.rank = 8210266876799 * (2 * 1_000_000_000) + (1_000_000_000 - 1) := rfl

/-- Only the leap second that ends the last minute is later than the last point in time. -/
theorem le_latest_iff : t ≤ latest ↔ t.inLeapSecond = false ∨ t.seconds < 8210266876799 := by
  have hbounds := t.bounds
  rw [not_inLeapSecond_iff, le_def, rank_latest]
  unfold rank
  omega

/-- The last point in time that a clock can show, in the leap second after all others. It is later
than the point at which deadlines stop. -/
def final : Timestamp :=
  { latest with
    nanos := 2 * 1_000_000_000 - 1
    nanos_lt := by decide
    leap_ends_minute := by decide }

theorem le_final (t : Timestamp) : t ≤ final := by
  have hbounds := t.bounds
  have hfinal : final.rank = 8210266876799 * (2 * 1_000_000_000) + (2 * 1_000_000_000 - 1) := rfl
  rw [le_def, hfinal]
  unfold rank
  omega

end order

section after

theorem ofParts?_eq_some {seconds : Int} {nanos : Nat} (h : ofParts? seconds nanos = some t) :
    t.seconds = seconds ∧ t.nanos = nanos := by
  unfold ofParts? at h
  split at h
  · cases h
    exact ⟨rfl, rfl⟩
  · cases h

/-- There is a time of every second within the range and of every fraction of it. Fractions beyond a
second are those of a leap second and need the last second of a minute. -/
theorem exists_ofParts? (seconds : Int) (nanos : Nat)
    (h : (-8334601228800 ≤ seconds ∧ seconds < 8210266876800) ∧ nanos < 2 * 1_000_000_000 ∧
      (1_000_000_000 ≤ nanos → seconds % 60 = 59)) :
    ∃ t, ofParts? seconds nanos = some t ∧ t.seconds = seconds ∧ t.nanos = nanos :=
  ⟨_, dif_pos h, rfl, rfl⟩

/-- The end of the last second, in nanoseconds since the start of 1970. -/
def countEnd : Int := 8210266876800 * 1_000_000_000

/-- A time and a length of it have a sum within the leap second that the time lies in, or outside of
all leap seconds. There it is told by the count, which goes on from the second before when the leap
second is left; and there is none if it would lie beyond the last second. -/
theorem add?_cases (t : Timestamp) (d : Span) :
    (1_000_000_000 ≤ t.nanos ∧ t.nanos + d.nanos < 2 * 1_000_000_000 ∧
        ∃ sum, t.add? d = some sum ∧ sum.seconds = t.seconds ∧ sum.nanos = t.nanos + d.nanos) ∨
      ((1_000_000_000 ≤ t.nanos → 2 * 1_000_000_000 ≤ t.nanos + d.nanos) ∧
        t.seconds * 1_000_000_000 + (t.nanos % 1_000_000_000 : Nat) + d.nanos < countEnd ∧
        ∃ sum, t.add? d = some sum ∧ sum.nanos < 1_000_000_000 ∧
          sum.seconds * 1_000_000_000 + sum.nanos =
            t.seconds * 1_000_000_000 + (t.nanos % 1_000_000_000 : Nat) + d.nanos) ∨
      ((1_000_000_000 ≤ t.nanos → 2 * 1_000_000_000 ≤ t.nanos + d.nanos) ∧
        countEnd ≤ t.seconds * 1_000_000_000 + (t.nanos % 1_000_000_000 : Nat) + d.nanos ∧
        t.add? d = none) := by
  have hbounds := t.bounds
  have hleap := t.leap_ends_minute
  unfold add? ofCount? subsecond countEnd
  simp only [inLeapSecond_iff]
  split
  · next hstays =>
    exact .inl ⟨hstays.1, hstays.2, exists_ofParts? _ _ (by omega)⟩
  · next hleaves =>
    have hleaves : 1_000_000_000 ≤ t.nanos → 2 * 1_000_000_000 ≤ t.nanos + d.nanos := by omega
    generalize hcount : t.seconds * 1_000_000_000 + (t.nanos % 1_000_000_000 : Nat) + d.nanos = count
    rcases Int.lt_or_le count (8210266876800 * 1_000_000_000) with hbefore | hbeyond
    · obtain ⟨sum, hsum, hseconds, hnanos⟩ := exists_ofParts? (count / 1_000_000_000)
        (count % 1_000_000_000).toNat (by omega)
      exact .inr (.inl ⟨hleaves, hbefore, sum, hsum, by omega, by omega⟩)
    · refine .inr (.inr ⟨hleaves, hbeyond, dif_neg ?_⟩)
      omega

/-- A deadline lies in the leap second that it is counted from, or outside of all leap seconds,
where it is told by the count and stops at the last point in time. -/
theorem after_cases (t : Timestamp) (d : Span) :
    (1_000_000_000 ≤ t.nanos ∧ t.nanos + d.nanos < 2 * 1_000_000_000 ∧
        (t.after d).seconds = t.seconds ∧ (t.after d).nanos = t.nanos + d.nanos) ∨
      ((1_000_000_000 ≤ t.nanos → 2 * 1_000_000_000 ≤ t.nanos + d.nanos) ∧
        (t.after d).nanos < 1_000_000_000 ∧
        (t.after d).seconds * 1_000_000_000 + (t.after d).nanos =
          min (t.seconds * 1_000_000_000 + (t.nanos % 1_000_000_000 : Nat) + d.nanos)
            (countEnd - 1)) := by
  unfold after
  obtain ⟨hleap, hstays, sum, hsum, hseconds, hnanos⟩ |
    ⟨hleaves, hbefore, sum, hsum, hnanos, hcount⟩ | ⟨hleaves, hbeyond, hnone⟩ := t.add?_cases d
  · rw [hsum]
    exact .inl ⟨hleap, hstays, hseconds, hnanos⟩
  · rw [hsum]
    refine .inr ⟨hleaves, hnanos, ?_⟩
    rw [Option.getD_some]
    omega
  · rw [hnone]
    have hlast : latest.seconds * 1_000_000_000 + latest.nanos = countEnd - 1 := by decide
    refine .inr ⟨hleaves, by decide, ?_⟩
    rw [Option.getD_none]
    omega

/-- A deadline lies in a leap second only if what it is counted from does. -/
theorem inLeapSecond_after (ht : t.inLeapSecond = false) : (t.after d).inLeapSecond = false := by
  rw [not_inLeapSecond_iff] at *
  have hcases := t.after_cases d
  omega

/-- Outside of leap seconds deadlines are sums of counts, up to the last point in time. -/
theorem count_after (ht : t.inLeapSecond = false) :
    (t.after d).count = min (t.count + d.nanos) (countEnd - 1) := by
  have hcases := t.after_cases d
  rw [not_inLeapSecond_iff] at ht
  unfold count
  omega

/-- A deadline is not in the past, unless it is counted from the one leap second that is later than
all deadlines. -/
theorem le_after (ht : t ≤ latest) : t ≤ t.after d := by
  have hbounds := t.bounds
  have hcases := t.after_cases d
  rw [le_latest_iff, not_inLeapSecond_iff] at ht
  rw [le_def]
  unfold rank countEnd at *
  omega

/-- A longer time ends no earlier. Where both ends are beyond the last point in time they are the
same. -/
theorem after_le_after (ht : t ≤ latest) (h : d ≤ e) : t.after d ≤ t.after e := by
  have hbounds := t.bounds
  have hd := t.after_cases d
  have he := t.after_cases e
  rw [le_latest_iff, not_inLeapSecond_iff] at ht
  rw [Span.le_def] at h
  rw [le_def]
  unfold rank countEnd at *
  omega

/-- What is waited for ends no earlier for who begins later, outside of leap seconds. Within a leap
second one can begin later and still be done earlier, since the time goes on from the second
before. -/
theorem after_le_after_of_le (ht : t.inLeapSecond = false) (h : s ≤ t) : s.after d ≤ t.after d := by
  have hbounds := t.bounds
  have hbounds' := s.bounds
  have hs := s.after_cases d
  have ht' := t.after_cases d
  rw [not_inLeapSecond_iff] at ht
  rw [le_def] at h ⊢
  unfold rank countEnd at *
  omega

/-- No wait of `d` that begins at `t` or later is over before the one that begins at `t`. It can be
when a leap second comes next: a wait that begins in it goes on as if from the second before. -/
def Steady (t : Timestamp) (d : Span) : Prop :=
  ∀ later, t ≤ later → t.after d ≤ later ∨ t.after d ≤ later.after d

/-- Only the last second of a minute can have a leap second after it, so a wait that begins in any
other second is steady. -/
theorem steady_of_seconds_ne (h : t.seconds % 60 ≠ 59) : t.Steady d := by
  intro later hlater
  have hminute := later.leap_ends_minute
  have hplain := t.leap_ends_minute
  have hbounds := t.bounds
  have hbounds' := later.bounds
  have hd := t.after_cases d
  have hd' := later.after_cases d
  rw [le_def] at hlater ⊢
  rw [le_def]
  unfold rank countEnd at *
  omega

/-- A wait that begins in a leap second is steady: there is no other one in this minute. -/
theorem steady_of_inLeapSecond (hleap : t.inLeapSecond = true) (ht : t ≤ latest) : t.Steady d := by
  intro later hlater
  have hbounds := t.bounds
  have hbounds' := later.bounds
  have hd := t.after_cases d
  have hd' := later.after_cases d
  rw [inLeapSecond_iff] at hleap
  rw [le_latest_iff, not_inLeapSecond_iff] at ht
  rw [le_def] at hlater ⊢
  rw [le_def]
  unfold rank countEnd at *
  omega

end after

end Settlement.Timestamp
