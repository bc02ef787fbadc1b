import Settlement.Proofs.Decimal.Quotient
import Settlement.Relay.Metrics

namespace Settlement

/-- The average of `n` values of which `x` is the last and `avg` the average of the others. -/
def movedAverage (avg x : ℚ) (n : Nat) : ℚ := avg + (x - avg) / n

/-- Moving an average adds the value to the sum of the values, which is the average times their
number. -/
theorem mul_movedAverage (avg x : ℚ) (n : Nat) :
    (n + 1 : Nat) * movedAverage avg x (n + 1) = n * avg + x := by
  have hpos : ((n + 1 : Nat) : ℚ) ≠ 0 := by positivity
  rw [movedAverage]
  field_simp
  push_cast
  ring

theorem abs_movedAverage_le {avg x bound : ℚ} (havg : |avg| ≤ bound) (hx : |x| ≤ bound) (n : Nat) :
    |movedAverage avg x (n + 1)| ≤ bound := by
  have hpos : (0 : ℚ) < (n + 1 : Nat) := by positivity
  have hscaled : |(n + 1 : Nat) * movedAverage avg x (n + 1)| ≤ (n + 1 : Nat) * bound := by
    rw [mul_movedAverage]
    calc |n * avg + x| ≤ |n * avg| + |x| := abs_add_le _ _
      _ = n * |avg| + |x| := by rw [abs_mul, Nat.abs_cast]
      _ ≤ n * bound + bound := by gcongr
      _ = (n + 1 : Nat) * bound := by push_cast; ring
  rw [abs_mul, abs_of_pos hpos] at hscaled
  exact le_of_mul_le_mul_left hscaled hpos

section update

variable {avg x : Decimal} {n : Count}

theorem exists_step (hn : n ≠ 0) (havg : |avg.value| ≤ 2 ^ 65) (hx : |x.value| ≤ 2 ^ 64) :
    ∃ difference step, x.sub? avg = some difference ∧
      difference.div? (Decimal.ofCount n) = some step ∧ |step.value| ≤ 2 ^ 67 ∧
      |step.value - (x.value - avg.value) / n.val| ≤ 2 / 10 ^ 8 := by
  have hone : (1 : ℚ) ≤ n.val := by exact_mod_cast Word.pos_of_ne_zero hn
  have hpos : (0 : ℚ) < n.val := by linarith
  have hpart (y : ℚ) : |y / n.val| ≤ |y| := by
    rw [abs_div, abs_of_pos hpos]
    exact div_le_self (abs_nonneg y) hone
  have hdiff : |x.value - avg.value| ≤ 2 ^ 64 + 2 ^ 65 :=
    le_trans (abs_sub _ _) (by linarith)
  obtain ⟨difference, hdifference, hnear⟩ :=
    Decimal.exists_sub?_near (lt_of_le_of_lt hdiff (by norm_num))
  have hsize : |difference.value| ≤ 2 ^ 66 := by
    have := abs_sub_abs_le_abs_sub difference.value (x.value - avg.value)
    linarith
  have hdivided : |difference.value / n.val| ≤ 2 ^ 66 := le_trans (hpart _) hsize
  obtain ⟨step, places, hstep, hquotient⟩ :=
    Decimal.exists_div?_ofCount hn (lt_of_le_of_lt hdivided (by norm_num))
  have hnear' := hquotient.abs_sub_le
  rw [abs_sub_comm] at hnear'
  refine ⟨difference, step, hdifference, hstep, ?_, ?_⟩
  · have := abs_sub_abs_le_abs_sub step.value (difference.value / n.val)
    linarith
  · -- The error of the difference does not grow when it is divided.
    have hclose : |difference.value / n.val - (x.value - avg.value) / n.val| ≤ 1 / 10 ^ 8 := by
      rw [← sub_div]
      exact le_trans (hpart _) (by linarith)
    have := abs_sub_le step.value (difference.value / n.val) ((x.value - avg.value) / n.val)
    linarith

theorem exists_moveTowards? (hn : n ≠ 0) (havg : |avg.value| ≤ 2 ^ 65) (hx : |x.value| ≤ 2 ^ 64) :
    ∃ moved, moveTowards? avg x n = some moved ∧
      |moved.value - movedAverage avg.value x.value n.val| ≤ 1 / 10 ^ 7 := by
  obtain ⟨difference, step, hdifference, hstep, hsize, hnear⟩ := exists_step hn havg hx
  have hsum : |avg.value + step.value| ≤ 2 ^ 68 :=
    le_trans (abs_add_le _ _) (by linarith)
  obtain ⟨moved, hmoved, hnear'⟩ := Decimal.exists_add?_near (lt_of_le_of_lt hsum (by norm_num))
  refine ⟨moved, ?_, ?_⟩
  · rw [moveTowards?, hdifference]
    change (difference.div? (Decimal.ofCount n) >>= fun step => avg.add? step) = some moved
    rw [hstep]
    exact hmoved
  · have := abs_sub_le moved.value (avg.value + step.value)
      (movedAverage avg.value x.value n.val)
    rw [movedAverage, add_sub_add_left_eq_sub] at this
    rw [movedAverage]
    linarith

theorem exists_runningAverage (hn : n ≠ 0) (havg : |avg.value| ≤ 2 ^ 65) (hx : |x.value| ≤ 2 ^ 64) :
    ∃ moved : ℚ, IsRounded 4 moved (runningAverage avg x n).value ∧
      |moved - movedAverage avg.value x.value n.val| ≤ 1 / 10 ^ 7 := by
  obtain ⟨moved, hmoved, hnear⟩ := exists_moveTowards? hn havg hx
  refine ⟨moved.value, ?_, hnear⟩
  rw [runningAverage, if_neg hn, hmoved, Option.getD_some]
  exact Decimal.isRounded_round moved 4

/-- What an update adds to the average beyond the exact one: half a unit of the last place at most,
but for the error before the rounding. -/
theorem abs_runningAverage_sub_le (hn : n ≠ 0) (havg : |avg.value| ≤ 2 ^ 65)
    (hx : |x.value| ≤ 2 ^ 64) :
    |(runningAverage avg x n).value - movedAverage avg.value x.value n.val| ≤ 501 / 10 ^ 7 := by
  obtain ⟨moved, hrounded, hnear⟩ := exists_runningAverage hn havg hx
  have hhalf := hrounded.abs_sub_le
  have := abs_sub_le (runningAverage avg x n).value moved (movedAverage avg.value x.value n.val)
  linarith

theorem runningAverage_of_near (hn : n ≠ 0) (havg : |avg.value| ≤ 2 ^ 65) (hx : |x.value| ≤ 2 ^ 64)
    {y : ℚ} {k : ℤ} (hplaces : y * 10 ^ 4 = k)
    (hnear : |movedAverage avg.value x.value n.val - y| < 499 / 10 ^ 7) :
    (runningAverage avg x n).value = y := by
  obtain ⟨moved, hrounded, herror⟩ := exists_runningAverage hn havg hx
  have hclose : |moved * 10 ^ 4 - k| < 1 / 2 := by
    have := abs_sub_le moved (movedAverage avg.value x.value n.val) y
    rw [← hplaces, ← sub_mul, abs_mul, abs_of_pos (by norm_num : (0 : ℚ) < 10 ^ 4)]
    linarith
  exact hrounded.unique ⟨k, hplaces, hclose.le, fun htie => absurd htie hclose.ne⟩

end update

/-- The average that is kept when these values have followed `n` others. Each is rounded before the
next one comes. -/
def keptAverage (avg : Decimal) (n : Count) : List Decimal → Decimal
  | [] => avg
  | x :: xs => keptAverage (runningAverage avg x (n.satAdd 1)) (n.satAdd 1) xs

/-- What the roundings have added to the sum of the values. An error made at the k-th value counts k
times in it, so the errors of later updates weigh more and more. -/
def drift (avg : Decimal) (n : Count) : List Decimal → ℚ
  | [] => 0
  | x :: xs =>
    let moved := runningAverage avg x (n.satAdd 1)
    (n.satAdd 1).val * (moved.value - movedAverage avg.value x.value (n.satAdd 1).val) +
      drift moved (n.satAdd 1) xs

section run

variable {avg : Decimal} {n : Count} {xs : List Decimal}

theorem mul_keptAverage (avg : Decimal) (hcount : n.val + xs.length < 2 ^ 64) :
    (n.val + xs.length : Nat) * (keptAverage avg n xs).value =
      n.val * avg.value + (xs.map Decimal.value).sum + drift avg n xs := by
  induction xs generalizing avg n with
  | nil => simp [keptAverage, drift]
  | cons x xs ih =>
    rw [List.length_cons] at hcount
    have hnext : (n.satAdd 1).val = n.val + 1 := Word.val_satAdd_one (by omega)
    have hrest := ih (n := n.satAdd 1) (runningAverage avg x (n.satAdd 1)) (by omega)
    have hmoved := mul_movedAverage avg.value x.value n.val
    rw [hnext] at hrest
    rw [keptAverage, drift, List.length_cons, List.map_cons, List.sum_cons, ← Nat.add_assoc,
      Nat.add_right_comm, hrest, hnext, mul_sub, hmoved]
    ring

theorem abs_drift_le (hcount : n.val + xs.length < 2 ^ 64) (havg : |avg.value| ≤ 2 ^ 64 + n.val)
    (hxs : ∀ x ∈ xs, |x.value| ≤ 2 ^ 64) :
    |drift avg n xs| ≤ 501 / 10 ^ 7 * (xs.length * (2 * n.val + xs.length + 1) / 2) := by
  induction xs generalizing avg n with
  | nil => simp [drift]
  | cons x xs ih =>
    rw [List.length_cons] at hcount
    have hnext : (n.satAdd 1).val = n.val + 1 := Word.val_satAdd_one (by omega)
    have hsome : n.satAdd 1 ≠ 0 := Word.satAdd_one_ne_zero (by omega)
    have hwide : (n.val : ℚ) < 2 ^ 64 := by exact_mod_cast n.isLt
    have hx := hxs x List.mem_cons_self
    have herror := abs_runningAverage_sub_le hsome (by linarith : |avg.value| ≤ 2 ^ 65) hx
    -- The average stays as small as the values, but for the errors.
    have hkept : |(runningAverage avg x (n.satAdd 1)).value| ≤ 2 ^ 64 + (n.satAdd 1).val := by
      have hexact := abs_movedAverage_le havg (by linarith : |x.value| ≤ 2 ^ 64 + n.val) n.val
      have := abs_sub_abs_le_abs_sub (runningAverage avg x (n.satAdd 1)).value
        (movedAverage avg.value x.value (n.satAdd 1).val)
      rw [hnext] at this herror ⊢
      push_cast
      linarith
    have hrest := ih (by omega) hkept fun y hy => hxs y (List.mem_cons_of_mem _ hy)
    rw [hnext] at hrest herror
    rw [drift, hnext]
    calc |(n.val + 1 : Nat) * ((runningAverage avg x (n.satAdd 1)).value -
            movedAverage avg.value x.value (n.val + 1)) +
            drift (runningAverage avg x (n.satAdd 1)) (n.satAdd 1) xs|
        ≤ (n.val + 1 : Nat) * |(runningAverage avg x (n.satAdd 1)).value -
            movedAverage avg.value x.value (n.val + 1)| +
            |drift (runningAverage avg x (n.satAdd 1)) (n.satAdd 1) xs| := by
          refine le_trans (abs_add_le _ _) ?_
          rw [abs_mul, Nat.abs_cast]
      _ ≤ (n.val + 1 : Nat) * (501 / 10 ^ 7) + 501 / 10 ^ 7 *
            (xs.length * (2 * (n.val + 1 : Nat) + xs.length + 1) / 2) := by gcongr
      _ = _ := by
          rw [List.length_cons]
          push_cast
          ring

theorem keptAverage_of_near {k : ℤ} (hplaces : avg.value * 10 ^ 4 = k) (havg : |avg.value| ≤ 2 ^ 65)
    (hcount : n.val + xs.length < 2 ^ 64)
    (hxs : ∀ x ∈ xs, |x.value| ≤ 2 ^ 64 ∧
      |x.value - avg.value| < 499 / 10 ^ 7 * (n.val + 1 : Nat)) :
    (keptAverage avg n xs).value = avg.value := by
  induction xs generalizing avg n with
  | nil => rfl
  | cons x xs ih =>
    rw [List.length_cons] at hcount
    have hnext : (n.satAdd 1).val = n.val + 1 := Word.val_satAdd_one (by omega)
    have hsome : n.satAdd 1 ≠ 0 := Word.satAdd_one_ne_zero (by omega)
    obtain ⟨hx, hnear⟩ := hxs x List.mem_cons_self
    have hsame : (runningAverage avg x (n.satAdd 1)).value = avg.value := by
      refine runningAverage_of_near hsome havg hx hplaces ?_
      have hpos : (0 : ℚ) < (n.val + 1 : Nat) := by positivity
      rw [movedAverage, add_sub_cancel_left, hnext, abs_div, abs_of_pos hpos, div_lt_iff₀ hpos]
      exact hnear
    rw [keptAverage, ← hsame]
    refine ih (by rw [hsame]; exact hplaces) (by rw [hsame]; exact havg) (by omega) fun y hy => ?_
    obtain ⟨hy', hnear'⟩ := hxs y (List.mem_cons_of_mem _ hy)
    refine ⟨hy', ?_⟩
    rw [hsame, hnext]
    push_cast at hnear' ⊢
    linarith

/-- The average kept of a whole sequence of values is their mean, but for the drift. -/
theorem keptAverage_sub_mean (hsome : xs ≠ []) (hcount : xs.length < 2 ^ 64) :
    (keptAverage .zero 0 xs).value - (xs.map Decimal.value).sum / xs.length =
      drift .zero 0 xs / xs.length := by
  have hpos : (xs.length : ℚ) ≠ 0 := by
    exact_mod_cast Nat.ne_of_gt (List.length_pos_iff.2 hsome)
  have hzero : (0 : Count).val = 0 := rfl
  have htotal := mul_keptAverage (n := 0) .zero (by rw [hzero, Nat.zero_add]; exact hcount)
  rw [hzero, Nat.zero_add, Nat.cast_zero, zero_mul, zero_add] at htotal
  field_simp
  linarith

/-- The average kept is the mean up to its last place as long as the drift is no more than that for
each value. -/
theorem keptAverage_within_iff (hsome : xs ≠ []) (hcount : xs.length < 2 ^ 64) :
    |(keptAverage .zero 0 xs).value - (xs.map Decimal.value).sum / xs.length| ≤ 1 / 10 ^ 4 ↔
      |drift .zero 0 xs| ≤ xs.length / 10 ^ 4 := by
  have hpos : (0 : ℚ) < xs.length := by exact_mod_cast List.length_pos_iff.2 hsome
  rw [keptAverage_sub_mean hsome hcount, abs_div, abs_of_pos hpos, div_le_iff₀ hpos,
    one_div_mul_eq_div]

theorem abs_keptAverage_sub_mean_le (hsome : xs ≠ []) (hcount : xs.length < 2 ^ 64)
    (hxs : ∀ x ∈ xs, |x.value| ≤ 2 ^ 64) :
    |(keptAverage .zero 0 xs).value - (xs.map Decimal.value).sum / xs.length| ≤
      501 / 10 ^ 7 * ((xs.length + 1) / 2) := by
  have hpos : (0 : ℚ) < xs.length := by exact_mod_cast List.length_pos_iff.2 hsome
  have hzero : (0 : Count).val = 0 := rfl
  have hstart : |Decimal.zero.value| ≤ 2 ^ 64 + ((0 : Count).val : ℚ) := by
    rw [Decimal.value_of_zero rfl, abs_zero]
    positivity
  have hdrift := abs_drift_le (by rw [hzero, Nat.zero_add]; exact hcount) hstart hxs
  rw [hzero, Nat.cast_zero, mul_zero, zero_add] at hdrift
  rw [keptAverage_sub_mean hsome hcount, abs_div, abs_of_pos hpos, div_le_iff₀ hpos]
  linarith

end run

namespace SettlementReport

variable {r : SettlementReport} {reports : List SettlementReport}

def size (r : SettlementReport) : Decimal := Decimal.ofCount (.clamp r.results.length)

theorem value_size (h : r.results.length < 2 ^ 64) : r.size.value = r.results.length := by
  have hlength : (Word.clamp r.results.length : Count).val = r.results.length := by
    rw [Word.val_clamp]
    omega
  rw [size, Decimal.value_ofCount, hlength]

theorem abs_value_size_le (r : SettlementReport) : |r.size.value| ≤ 2 ^ 64 := by
  have hlt := (Word.clamp r.results.length : Count).isLt
  rw [size, Decimal.value_ofCount, Nat.abs_cast]
  exact_mod_cast hlt.le

theorem sum_value_size (h : (reports.map (·.results.length)).sum < 2 ^ 64) :
    ((reports.map size).map Decimal.value).sum = ((reports.map (·.results.length)).sum : Nat) := by
  induction reports with
  | nil => rfl
  | cons r reports ih =>
    rw [List.map_cons, List.sum_cons] at h
    rw [List.map_cons, List.map_cons, List.sum_cons, List.map_cons, List.sum_cons, ih (by omega),
      value_size (by omega), Nat.cast_add]

end SettlementReport

namespace RelayMetrics

variable {m : RelayMetrics} {reports : List SettlementReport}

/-- The metrics of a relay that has settled these batches, one after the other. -/
def ofReports (reports : List SettlementReport) : RelayMetrics := reports.foldl record {}

theorem avgBatchSize_foldl (m : RelayMetrics) (reports : List SettlementReport) :
    (reports.foldl record m).avgBatchSize =
      keptAverage m.avgBatchSize m.totalBatches (reports.map SettlementReport.size) := by
  induction reports generalizing m with
  | nil => rfl
  | cons r reports ih => exact ih (m.record r)

theorem avgSavingsPercent_foldl (m : RelayMetrics) (reports : List SettlementReport) :
    (reports.foldl record m).avgSavingsPercent =
      keptAverage m.avgSavingsPercent m.totalBatches (reports.map (·.cost.savingsPercent)) := by
  induction reports generalizing m with
  | nil => rfl
  | cons r reports ih => exact ih (m.record r)

theorem val_totalBatches_foldl (h : m.totalBatches.val + reports.length < 2 ^ 64) :
    (reports.foldl record m).totalBatches.val = m.totalBatches.val + reports.length := by
  induction reports generalizing m with
  | nil => rfl
  | cons r reports ih =>
    rw [List.length_cons] at h ⊢
    have hnext : (m.record r).totalBatches.val = m.totalBatches.val + 1 :=
      Word.val_satAdd_one (by omega)
    rw [List.foldl_cons, ih (by omega), hnext]
    omega

theorem val_totalOperations_foldl
    (h : m.totalOperations.val + (reports.map (·.results.length)).sum < 2 ^ 64) :
    (reports.foldl record m).totalOperations.val =
      m.totalOperations.val + (reports.map (·.results.length)).sum := by
  induction reports generalizing m with
  | nil => rfl
  | cons r reports ih =>
    rw [List.map_cons, List.sum_cons] at h ⊢
    have hsize : (Word.clamp r.results.length : Count).val = r.results.length := by
      rw [Word.val_clamp]
      omega
    have hnext : (m.record r).totalOperations.val = m.totalOperations.val + r.results.length := by
      change (m.totalOperations.satAdd (.clamp r.results.length)).val = _
      rw [Word.val_satAdd_of_lt (by omega), hsize]
    rw [List.foldl_cons, ih (by omega), hnext]
    omega

theorem val_totalBatches_ofReports (h : reports.length < 2 ^ 64) :
    (ofReports reports).totalBatches.val = reports.length := by
  have hstart : (0 : Count).val = 0 := rfl
  have := val_totalBatches_foldl (m := {}) (by rw [hstart, Nat.zero_add]; exact h)
  rwa [hstart, Nat.zero_add] at this

theorem val_totalOperations_ofReports (h : (reports.map (·.results.length)).sum < 2 ^ 64) :
    (ofReports reports).totalOperations.val = (reports.map (·.results.length)).sum := by
  have hstart : (0 : Count).val = 0 := rfl
  have := val_totalOperations_foldl (m := {}) (by rw [hstart, Nat.zero_add]; exact h)
  rwa [hstart, Nat.zero_add] at this

theorem totalOperations_div_totalBatches (hcount : reports.length < 2 ^ 64)
    (hoperations : (reports.map (·.results.length)).sum < 2 ^ 64) :
    ((ofReports reports).totalOperations.val / (ofReports reports).totalBatches.val : ℚ) =
      ((reports.map SettlementReport.size).map Decimal.value).sum /
        (reports.map SettlementReport.size).length := by
  rw [val_totalBatches_ofReports hcount, val_totalOperations_ofReports hoperations,
    SettlementReport.sum_value_size hoperations, List.length_map]

/-- The averages kept are right up to their last place exactly as long as the roundings have added
no more than one such place for each batch. An update adds hardly more than half of one, times the
number of the batches so far, so the error grows no faster than that number. -/
theorem averages_within_iff (hsome : reports ≠ []) (hcount : reports.length < 2 ^ 64)
    (hoperations : (reports.map (·.results.length)).sum < 2 ^ 64) :
    (|(ofReports reports).avgBatchSize.value -
        (ofReports reports).totalOperations.val / (ofReports reports).totalBatches.val| ≤
          1 / 10 ^ 4 ↔
      |drift .zero 0 (reports.map SettlementReport.size)| ≤ reports.length / 10 ^ 4) ∧
    (|(ofReports reports).avgSavingsPercent.value -
        (reports.map (·.cost.savingsPercent.value)).sum / reports.length| ≤ 1 / 10 ^ 4 ↔
      |drift .zero 0 (reports.map (·.cost.savingsPercent))| ≤ reports.length / 10 ^ 4) ∧
    |(ofReports reports).avgBatchSize.value -
        (ofReports reports).totalOperations.val / (ofReports reports).totalBatches.val| ≤
      501 / 10 ^ 7 * ((reports.length + 1) / 2) ∧
    ((∀ r ∈ reports, |r.cost.savingsPercent.value| ≤ 2 ^ 64) →
      |(ofReports reports).avgSavingsPercent.value -
          (reports.map (·.cost.savingsPercent.value)).sum / reports.length| ≤
        501 / 10 ^ 7 * ((reports.length + 1) / 2)) := by
  have hsavings : (reports.map (·.cost.savingsPercent.value)).sum =
      ((reports.map (·.cost.savingsPercent)).map Decimal.value).sum := by
    rw [List.map_map]
    rfl
  -- Both lists of values are as long as the list of the reports.
  have hsome' {f : SettlementReport → Decimal} : reports.map f ≠ [] := by simpa using hsome
  have hcount' {f : SettlementReport → Decimal} : (reports.map f).length < 2 ^ 64 := by
    rwa [List.length_map]
  have hsize : ∀ x ∈ reports.map SettlementReport.size, |x.value| ≤ 2 ^ 64 := by
    intro x hx
    obtain ⟨r, -, rfl⟩ := List.mem_map.1 hx
    exact r.abs_value_size_le
  have hbatch := keptAverage_within_iff (hsome' (f := SettlementReport.size)) hcount'
  have hbatch' := abs_keptAverage_sub_mean_le hsome' hcount' hsize
  have hpercent := keptAverage_within_iff (hsome' (f := (·.cost.savingsPercent))) hcount'
  rw [totalOperations_div_totalBatches hcount hoperations, hsavings, ofReports,
    avgBatchSize_foldl, avgSavingsPercent_foldl]
  rw [List.length_map] at hbatch hbatch' hpercent ⊢
  refine ⟨hbatch, hpercent, hbatch', fun hbound => ?_⟩
  have hsavings' : ∀ x ∈ reports.map (·.cost.savingsPercent), |x.value| ≤ 2 ^ 64 := by
    intro x hx
    obtain ⟨r, hr, rfl⟩ := List.mem_map.1 hx
    exact hbound r hr
  have hpercent' := abs_keptAverage_sub_mean_le hsome' hcount' hsavings'
  rwa [List.length_map] at hpercent'

theorem avgBatchSize_of_forall_eq {size : Nat} (hsome : reports ≠ [])
    (hcount : reports.length < 2 ^ 64) (hsize : size < 2 ^ 64)
    (hreports : ∀ r ∈ reports, r.results.length = size) :
    (ofReports reports).avgBatchSize.value = size := by
  have hvalue {r : SettlementReport} (hr : r ∈ reports) : r.size.value = size := by
    rw [SettlementReport.value_size (by rw [hreports r hr]; exact hsize), hreports r hr]
  have hplaces : (size : ℚ) * 10 ^ 4 = ((size * 10 ^ 4 : ℤ) : ℚ) := by push_cast; rfl
  have hwide : (size : ℚ) < 2 ^ 64 := by exact_mod_cast hsize
  have habs : |(size : ℚ)| ≤ 2 ^ 64 := by rw [Nat.abs_cast]; exact hwide.le
  obtain ⟨r, later, rfl⟩ := List.exists_cons_of_ne_nil hsome
  rw [List.length_cons] at hcount
  -- The first value becomes the average, and the others do not move it.
  have hstart : (runningAverage .zero r.size 1).value = size := by
    refine runningAverage_of_near (by decide) ?_ (r.abs_value_size_le) hplaces ?_
    · rw [Decimal.value_of_zero rfl, abs_zero]
      positivity
    · have hone : (1 : Count).val = 1 := rfl
      rw [Decimal.value_of_zero rfl, hvalue List.mem_cons_self, hone, movedAverage]
      norm_num
  have hone : (0 : Count).satAdd 1 = 1 := by decide
  rw [ofReports, avgBatchSize_foldl, List.map_cons, keptAverage]
  change (keptAverage (runningAverage .zero r.size ((0 : Count).satAdd 1)) ((0 : Count).satAdd 1)
    (later.map SettlementReport.size)).value = size
  rw [hone, ← hstart]
  refine keptAverage_of_near (by rw [hstart]; exact hplaces) (by rw [hstart]; linarith) ?_ ?_
  · have hone' : (1 : Count).val = 1 := rfl
    rw [hone', List.length_map]
    omega
  · intro x hx
    obtain ⟨r', hr', rfl⟩ := List.mem_map.1 hx
    refine ⟨r'.abs_value_size_le, ?_⟩
    rw [hstart, hvalue (List.mem_cons_of_mem _ hr'), sub_self, abs_zero]
    positivity

/-- After many batches of one size the average is stuck there: no number of later ones moves it,
unless one differs from it by a twenty-thousandth of the number of the batches. -/
theorem avgBatchSize_of_near {first later : List SettlementReport} {size : Nat} (hsome : first ≠ [])
    (hcount : first.length + later.length < 2 ^ 64) (hsize : size < 2 ^ 64)
    (hfirst : ∀ r ∈ first, r.results.length = size)
    (hlater : ∀ r ∈ later, r.results.length < 2 ^ 64 ∧
      |(r.results.length - size : ℚ)| < 499 / 10 ^ 7 * (first.length + 1 : Nat)) :
    (ofReports (first ++ later)).avgBatchSize.value = size := by
  have hwide : (size : ℚ) < 2 ^ 64 := by exact_mod_cast hsize
  have hstart : (ofReports first).avgBatchSize.value = size :=
    avgBatchSize_of_forall_eq hsome (by omega) hsize hfirst
  have hbatches : (ofReports first).totalBatches.val = first.length :=
    val_totalBatches_ofReports (by omega)
  rw [ofReports, List.foldl_append, ← ofReports, avgBatchSize_foldl]
  rw [← hstart]
  refine keptAverage_of_near (k := size * 10 ^ 4) ?_ ?_ ?_ ?_
  · rw [hstart]
    push_cast
    rfl
  · rw [hstart, Nat.abs_cast]
    linarith
  · rw [hbatches, List.length_map]
    exact hcount
  · intro x hx
    obtain ⟨r, hr, rfl⟩ := List.mem_map.1 hx
    obtain ⟨hlength, hnear⟩ := hlater r hr
    refine ⟨r.abs_value_size_le, ?_⟩
    rw [hstart, SettlementReport.value_size hlength, hbatches]
    exact hnear

/-- The report on a batch of this size whose operations were all settled. -/
def settledOf (size : Nat) : SettlementReport where
  batchId := default
  batchHash := 0
  results := List.replicate size true
  strongOperations := size
  weakOperations := 0
  strongChunkSize := size
  weakChunkSize := 0
  settleCalls := 1
  maxCallLength := size
  eraRecorded := 0
  cost :=
    { operations := .clamp size
      settleCalls := 1
      eraUpdates := 0
      naiveCost := 0
      optimizedCost := 0
      saved := 0
      savingsPercent := .zero }
  priorityScore := .zero
  resultsRoot := 0

/-- No bound holds for the errors of all runs: enough batches of one operation keep the average at
one while as many larger ones follow. -/
theorem avgBatchSize_apart {size : Nat} (hsome : 0 < size) (hsize : size ≤ 2 ^ 20) :
    ∃ reports, (ofReports reports).avgBatchSize.value = 1 ∧
      ((ofReports reports).totalOperations.val / (ofReports reports).totalBatches.val : ℚ) =
        1 + size / 2 := by
  have hlength (k n : Nat) : ∀ r ∈ List.replicate k (settledOf n), r.results.length = n := by
    intro r hr
    rw [List.eq_of_mem_replicate hr]
    exact List.length_replicate
  have hsum (k n : Nat) :
      ((List.replicate k (settledOf n)).map (·.results.length)).sum = k * n := by
    rw [List.map_replicate, List.sum_replicate_nat]
    congr 1
    exact List.length_replicate
  refine ⟨List.replicate (20100 * size) (settledOf 1) ++
    List.replicate (20100 * size) (settledOf (size + 1)), ?_, ?_⟩
  · rw [← Nat.cast_one]
    refine avgBatchSize_of_near ?_ ?_ (by decide) (hlength _ 1) ?_
    · rw [ne_eq, List.replicate_eq_nil_iff]
      omega
    · rw [List.length_replicate, List.length_replicate]
      omega
    · intro r hr
      rw [hlength _ (size + 1) r hr, List.length_replicate, Nat.cast_succ, Nat.cast_one,
        add_sub_cancel_right, Nat.abs_cast]
      refine ⟨by omega, ?_⟩
      push_cast
      have hpos : (0 : ℚ) < size := by exact_mod_cast hsome
      linarith
  · have hall : 20100 * size * (size + 1) ≤ 20100 * 2 ^ 20 * (2 ^ 20 + 1) := by gcongr
    rw [val_totalBatches_ofReports, val_totalOperations_ofReports, List.map_append,
      List.sum_append, hsum, hsum, List.length_append, List.length_replicate, List.length_replicate]
    · have hpos : (size : ℚ) ≠ 0 := by exact_mod_cast Nat.ne_of_gt hsome
      push_cast
      field_simp
      ring
    · rw [List.map_append, List.sum_append, hsum, hsum, Nat.mul_one]
      omega
    · rw [List.length_append, List.length_replicate, List.length_replicate]
      omega

/-- Nine batches of one, one and three operations in turn. -/
def uneven : List SettlementReport :=
  [1, 1, 3, 1, 1, 3, 1, 1, 3].map settledOf

theorem uneven_averages : (ofReports uneven).totalBatches.val = 9 ∧
    (ofReports uneven).totalOperations.val = 15 ∧
    (ofReports uneven).avgBatchSize.value = 16668 / 10 ^ 4 := by
  have hcoefficient : (ofReports uneven).avgBatchSize.coefficient = 16668 ∧
      (ofReports uneven).avgBatchSize.scale = 4 := by decide +kernel
  refine ⟨by decide +kernel, by decide +kernel, ?_⟩
  rw [Decimal.value, hcoefficient.1, hcoefficient.2]
  norm_num

/-- The roundings of these nine updates have added more than nine units of the last place. -/
theorem averages_within_iff_of_uneven : uneven ≠ [] ∧ uneven.length < 2 ^ 64 ∧
    (uneven.map (·.results.length)).sum < 2 ^ 64 ∧
    ¬ |drift .zero 0 (uneven.map SettlementReport.size)| ≤ 9 / 10 ^ 4 := by
  obtain ⟨hbatches, hoperations, haverage⟩ := uneven_averages
  obtain ⟨hwithin, -⟩ := averages_within_iff (by decide : uneven ≠ []) (by decide) (by decide)
  refine ⟨by decide, by decide, by decide, fun hdrift => ?_⟩
  have hlength : uneven.length = 9 := rfl
  rw [hlength, hbatches, hoperations, haverage] at hwithin
  have hapart := hwithin.2 hdrift
  rw [abs_le] at hapart
  norm_num at hapart

/-- The nine batches have an average of five thirds, and the one kept is more than its precision
off. -/
theorem avgBatchSize_apart_of_uneven : uneven ≠ [] ∧
    1 / 10 ^ 4 < |(ofReports uneven).avgBatchSize.value -
      (ofReports uneven).totalOperations.val / (ofReports uneven).totalBatches.val| := by
  obtain ⟨hbatches, hoperations, haverage⟩ := uneven_averages
  refine ⟨by decide, ?_⟩
  rw [hbatches, hoperations, haverage, lt_abs]
  norm_num

end RelayMetrics

end Settlement
