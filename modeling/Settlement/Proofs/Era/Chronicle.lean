import Settlement.Proofs.Era.Call
import Settlement.Proofs.Table

namespace Settlement

/-- A period that was closed in accordance with a policy. Its length is what the clock shows, so it
would be negative for a period that ends before it starts. -/
structure PeriodSnapshot.Lasted (policy : EraPolicy) (s : PeriodSnapshot) : Prop where
  long : (policy.minPeriodDuration.nanos : Int) ≤ s.openedAt.lapse s.closedAt
  overdue : s.overdue = true ↔ (policy.maxPeriodDuration.nanos : Int) < s.openedAt.lapse s.closedAt
  blocked : policy.overduePolicy = .block → s.overdue = false

/-- The books of the periods after some granted calls. The snapshots stand in the order of their
periods and follow each other without a gap, in numbers and in time; what they have counted and what
the current period has counted so far is all that was ever counted. The first period was opened at
the start, and each later one at the time at which the one before it was closed. -/
structure Era.Chronicle (policy : EraPolicy) (opened : Timestamp) (granted : List EraCall)
    (e : Era) : Prop where
  terms : e.policy = { policy with feeSchedule := e.policy.feeSchedule }
  numbered : e.snapshots.keys.map (fun p => p.number.val) = List.range e.current.number.val
  own : ∀ p s, e.snapshot? p = some s → s.period = p
  chained : e.snapshots.values.map PeriodSnapshot.openedAt ++ [e.startedAt] =
    opened :: e.snapshots.values.map PeriodSnapshot.closedAt
  closings : e.snapshots.values.map PeriodSnapshot.closedAt = granted.filterMap EraCall.closing?
  lasted : ∀ s ∈ e.snapshots.values, s.Lasted policy
  bounded : e.current.number ≤ policy.maxPeriod
  counted : (e.snapshots.values.map fun s => s.operations.val).sum + e.accumulator.val =
    e.totalOperations.val
  total : e.totalOperations.val = ((granted.filterMap EraCall.count?).map Word.val).sum

theorem EraPolicy.minPeriodDuration_pos {p : EraPolicy} (h : p.validate = .ok ()) :
    0 < p.minPeriodDuration.nanos := by
  obtain ⟨_, hmin, -⟩ := Result.bind_eq_ok_iff.1 h
  rw [require_eq_ok_iff] at hmin
  exact Nat.pos_of_ne_zero fun hzero => hmin (decide_eq_true hzero)

namespace Era

variable {policy : EraPolicy} {opened now : Timestamp} {e e' : Era} {call : EraCall}
  {granted : List EraCall}

/-- A wait that is long enough is not negative, since the shortest one is positive. -/
theorem lasted_closed (hvalid : policy.validate = .ok ())
    (hpolicy : e.policy = { policy with feeSchedule := e.policy.feeSchedule })
    (hlong : e.policy.minPeriodDuration ≤ now.since e.startedAt)
    (hblock : e.policy.overduePolicy = .block → (e.closed now).overdue = false) :
    (e.closed now).Lasted policy := by
  have hpos := EraPolicy.minPeriodDuration_pos hvalid
  have helapsed : (now.since e.startedAt).nanos = (e.startedAt.lapse now).toNat := rfl
  rw [hpolicy, Span.le_def, helapsed] at hlong
  rw [hpolicy] at hblock
  refine ⟨?_, ?_, hblock⟩
  · change _ ≤ e.startedAt.lapse now
    simp only at hlong
    omega
  · change decide (e.policy.maxPeriodDuration < now.since e.startedAt) = true ↔
      _ < e.startedAt.lapse now
    rw [decide_eq_true_iff, hpolicy, Span.lt_def, helapsed]
    simp only
    omega

namespace Chronicle

theorem start (h : Era.start policy now = .ok e) : Chronicle policy now [] e := by
  obtain ⟨-, rfl⟩ := start_eq_ok h
  exact {
    terms := rfl
    numbered := rfl
    own := fun _ _ h => by cases h
    chained := rfl
    closings := rfl
    lasted := fun _ h => (List.not_mem_nil h).elim
    bounded := Nat.zero_le _
    counted := rfl
    total := rfl }

theorem mem_keys_iff (h : Chronicle policy opened granted e) {p : PeriodId} :
    p ∈ e.snapshots.keys ↔ p < e.current := by
  rw [PeriodId.lt_def, ← List.mem_range, ← h.numbered, List.mem_map]
  constructor
  · intro hmem
    exact ⟨p, hmem, rfl⟩
  · rintro ⟨q, hmem, hnumber⟩
    obtain rfl : q = p := rank_inj hnumber
    exact hmem

theorem exists_snapshot?_iff (h : Chronicle policy opened granted e) {p : PeriodId} :
    (∃ s, e.snapshot? p = some s) ↔ p < e.current :=
  Table.mem_keys_iff.symm.trans h.mem_keys_iff

theorem rows_insert_current (h : Chronicle policy opened granted e) (s : PeriodSnapshot) :
    (e.snapshots.insert e.current s).rows = e.snapshots.rows ++ [(e.current, s)] :=
  Table.rows_insert_of_forall_lt s fun _ hrow => h.mem_keys_iff.1 (List.mem_map_of_mem hrow)

theorem values_insert_current (h : Chronicle policy opened granted e) (s : PeriodSnapshot) :
    (e.snapshots.insert e.current s).values = e.snapshots.values ++ [s] := by
  rw [Table.values, h.rows_insert_current, List.map_append]
  rfl

theorem period_of_insert_current (h : Chronicle policy opened granted e) {p : PeriodId}
    {s : PeriodSnapshot}
    (hs : (e.snapshots.insert e.current (e.closed now)).get? p = some s) : s.period = p := by
  rw [Table.get?_insert] at hs
  split at hs
  · next hp =>
    cases hs
    exact hp.symm
  · exact h.own p s hs

/-- Every granted call keeps the books. Only closing a period adds to them, and what it adds comes
last. -/
theorem step (hvalid : policy.validate = .ok ()) (h : Chronicle policy opened granted e)
    (hstep : Stepped e call e') : Chronicle policy opened (granted ++ [call]) e' := by
  have htotal : e'.totalOperations.val =
      (((granted ++ [call]).filterMap EraCall.count?).map Word.val).sum := by
    rw [hstep.val_totalOperations, h.total, List.filterMap_append, List.map_append, List.sum_append,
      List.filterMap_cons]
    cases call.count? <;> rfl
  have hunclosed (hnone : call.closing? = none) :
      e.snapshots.values.map PeriodSnapshot.closedAt =
        (granted ++ [call]).filterMap EraCall.closing? := by
    rw [List.filterMap_append, List.filterMap_cons_none hnone, List.filterMap_nil,
      List.append_nil, h.closings]
  cases hstep with
  | @advanced now next hlong hlast hnext hblock =>
    -- the snapshot of the period is the last row, so every list grows by one at its end
    have hrows := h.rows_insert_current (e.closed now)
    have hvalues := h.values_insert_current (e.closed now)
    have hlasted := lasted_closed hvalid h.terms hlong hblock
    exact {
      terms := h.terms
      numbered := by
        rw [Table.keys, hrows, List.map_append, List.map_append, hnext, List.range_succ,
          ← h.numbered]
        rfl
      own := fun p s hs => h.period_of_insert_current hs
      chained := by
        rw [hvalues, List.map_append, List.map_append, ← List.cons_append, ← h.chained]
        rfl
      closings := by
        rw [hvalues, List.map_append, List.filterMap_append, ← h.closings]
        rfl
      lasted := by
        rw [hvalues, List.forall_mem_append]
        exact ⟨h.lasted, List.forall_mem_singleton.2 hlasted⟩
      bounded := by
        rw [Word.le_def, hnext]
        rw [h.terms] at hlast
        exact hlast
      counted := by
        rw [hvalues, List.map_append, List.sum_append, ← h.counted]
        rfl
      total := htotal }
  | @recorded count accumulator totalOperations haccumulator hadded =>
    exact { h with
      closings := hunclosed rfl
      counted := by
        have hcounted := h.counted
        change (e.snapshots.values.map fun s => s.operations.val).sum + accumulator.val =
          totalOperations.val
        omega
      total := htotal }
  | @priced schedule =>
    exact { h with
      terms := congrArg (fun p => { p with feeSchedule := schedule }) h.terms
      closings := hunclosed rfl
      total := htotal }

theorem after (hstart : Era.start policy now = .ok e) (calls : List EraCall) :
    Chronicle policy now (e.granted calls) (e.after calls) :=
  after_of_stepped (P := Chronicle policy now) (fun h hstep => h.step (start_eq_ok hstart).1 hstep)
    (start hstart) calls

end Chronicle

/-- The books after any calls at any times. They agree with the granted calls, and exactly the
closed periods have a snapshot. The next call either is refused and leaves everything as it is, or
it is granted and moves the current period by one if it closes one, and not at all otherwise. -/
theorem accounts_in_order (hstart : Era.start policy now = .ok e) (calls : List EraCall) :
    Chronicle policy now (e.granted calls) (e.after calls) ∧
      (∀ p, (∃ s, (e.after calls).snapshot? p = some s) ↔ p < (e.after calls).current) ∧
      ∀ call,
        (∃ cause, (e.after calls).apply call = .error cause ∧
          e.granted (calls ++ [call]) = e.granted calls ∧
          e.after (calls ++ [call]) = e.after calls) ∨
        ∃ e', (e.after calls).apply call = .ok e' ∧
          e.granted (calls ++ [call]) = e.granted calls ++ [call] ∧
          e.after (calls ++ [call]) = e' ∧
          e'.current.number.val =
            (e.after calls).current.number.val + call.closing?.toList.length := by
  have h := Chronicle.after hstart calls
  refine ⟨h, fun p => h.exists_snapshot?_iff, fun call => ?_⟩
  rw [after_concat, granted_concat]
  cases happly : (e.after calls).apply call with
  | error cause => exact .inl ⟨cause, rfl, rfl, next_of_error happly⟩
  | ok e' => exact .inr ⟨e', rfl, rfl, next_of_ok happly, (stepped happly).val_current⟩

/-- A period that is counted in and closed, after one attempt too soon, and another that lasts too
long. -/
def overdueCalls : List EraCall :=
  [.record 40, .advance .epoch, .advance (Timestamp.epoch.after (.ofSeconds 3600)), .record 2,
    .advance (Timestamp.epoch.after (.ofSeconds 694800))]

/-- The attempt too soon is refused and the other four calls are granted. Of the two periods that
are closed the second is overdue. -/
theorem accounts_in_order_of_overdue : ∃ e : Era, Era.start {} .epoch = .ok e ∧
    (e.after overdueCalls).totalOperations = 42 ∧
    (e.after overdueCalls).snapshots.values.map PeriodSnapshot.overdue = [false, true] ∧
    (e.granted overdueCalls).length = 4 ∧
    Chronicle {} .epoch (e.granted overdueCalls) (e.after overdueCalls) ∧
    ∀ p, (∃ s, (e.after overdueCalls).snapshot? p = some s) ↔ p < ⟨2⟩ := by
  obtain ⟨e, hstart, htotal, hoverdue, hgranted, hcurrent⟩ : ∃ e : Era, Era.start {} .epoch = .ok e ∧
      (e.after overdueCalls).totalOperations = 42 ∧
      (e.after overdueCalls).snapshots.values.map PeriodSnapshot.overdue = [false, true] ∧
      (e.granted overdueCalls).length = 4 ∧ (e.after overdueCalls).current = ⟨2⟩ :=
    ⟨_, rfl, by decide +kernel, by decide +kernel, by decide +kernel, by decide +kernel⟩
  obtain ⟨hchronicle, hclosed, -⟩ := accounts_in_order hstart overdueCalls
  exact ⟨e, hstart, htotal, hoverdue, hgranted, hchronicle, hcurrent ▸ hclosed⟩

end Era

end Settlement
