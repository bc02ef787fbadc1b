import Settlement.Policy

namespace Settlement

/-- What is known of a closed period. Closing freezes its count, its times and the fee schedule in
force. -/
structure PeriodSnapshot where
  period : PeriodId
  operations : Count
  openedAt : Timestamp
  closedAt : Timestamp
  /-- Whether the period lasted longer than its maximum duration. -/
  overdue : Bool
  /-- The schedule that prices the period for good. -/
  feeSchedule : FeeSchedule
deriving DecidableEq

/-- How long the period lasted by the clock, which counts a leap second of either end as it does
elsewhere. -/
def PeriodSnapshot.duration (s : PeriodSnapshot) : Span := s.closedAt.since s.openedAt

/-- The periods up to the current one. Weak operations are only counted, in the current period. -/
structure Era where
  policy : EraPolicy
  current : PeriodId
  /-- The operations of the current period. -/
  accumulator : Count
  startedAt : Timestamp
  snapshots : Table PeriodId PeriodSnapshot
  /-- The operations of all periods. -/
  totalOperations : Count

namespace Era

/-- The era that begins with period 0 at `now`, if its policy is in order. -/
def start (policy : EraPolicy) (now : Timestamp) : Result Era := do
  policy.validate
  return ⟨policy, ⟨0⟩, 0, now, .empty, 0⟩

/-- Counts operations in the current period and in the total. Nothing is counted if one of the two
sums leaves its width. -/
def record (e : Era) (count : Count) : Result Era := do
  let accumulator ← orRefuse (.overflow "era accumulator") (e.accumulator.add? count)
  let total ← orRefuse (.overflow "era total operations") (e.totalOperations.add? count)
  return { e with accumulator, totalOperations := total }

/-- Closes the current period and opens the next. It is refused before the minimum duration, beyond
the last period, and after the maximum duration if that is what the policy says. -/
def advance (e : Era) (now : Timestamp) : Result (PeriodSnapshot × Era) := do
  let elapsed := now.since e.startedAt
  require (e.policy.minPeriodDuration ≤ elapsed) (.tooSoon elapsed e.policy.minPeriodDuration)
  require (e.current.number < e.policy.maxPeriod) (.maxPeriodExceeded e.policy.maxPeriod)
  let next ← orRefuse (.overflow "period counter") e.current.next?
  let overdue : Bool := e.policy.maxPeriodDuration < elapsed
  require (¬ (overdue ∧ e.policy.overduePolicy = .block))
    (.overdue elapsed e.policy.maxPeriodDuration)
  let snapshot : PeriodSnapshot :=
    { period := e.current
      operations := e.accumulator
      openedAt := e.startedAt
      closedAt := now
      overdue
      feeSchedule := e.policy.feeSchedule }
  return (snapshot,
    { e with
      current := next
      accumulator := 0
      startedAt := now
      snapshots := e.snapshots.insert e.current snapshot })

/-- Whether the current period has lasted its minimum duration. A time before the start of the
period is too early, whatever the minimum is. -/
def shouldAdvance (e : Era) (now : Timestamp) : Bool :=
  0 ≤ e.startedAt.lapse now && e.policy.minPeriodDuration ≤ now.since e.startedAt

/-- What is known of a period, if it is closed. The current period has no snapshot. -/
def snapshot? (e : Era) (period : PeriodId) : Option PeriodSnapshot := e.snapshots.get? period

/-- Whether the period lies before the current one. Roots, claims and sweeps wait for that. -/
def isClosed (e : Era) (period : PeriodId) : Bool := period < e.current

/-- The fee per operation. A closed period keeps the schedule that it was closed with; all others go
by the one in force. -/
def periodFee (e : Era) (period : PeriodId) : Result Decimal :=
  match e.snapshot? period with
  | some s => s.feeSchedule.feeOf period
  | none => e.policy.feeSchedule.feeOf period

/-- The fees of all operations of a closed period, at the fee that was frozen with it. -/
def feesForPeriod (e : Era) (period : PeriodId) : Result Decimal := do
  let s ← orRefuse (.periodNotClosed period e.current) (e.snapshot? period)
  totalFee (← s.feeSchedule.feeOf period) s.operations

/-- The fees of `count` operations, if they are counted in the current period. -/
def batchFees (e : Era) (count : Count) : Result Decimal := do
  totalFee (← e.periodFee e.current) count

/-- Changes the schedule of the current and all later periods, if it is in order. Closed periods
keep theirs. -/
def setFeeSchedule (e : Era) (schedule : FeeSchedule) : Result Era := do
  schedule.validate
  return { e with policy.feeSchedule := schedule }

end Era

end Settlement
