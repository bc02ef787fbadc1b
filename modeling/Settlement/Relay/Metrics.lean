import Settlement.Batch.Report

namespace Settlement

/-- What the relay has done so far: totals and averages over the settled batches, and how many
failed. -/
structure RelayMetrics where
  totalBatches : Count := 0
  totalOperations : Count := 0
  /-- The operations that were settled without success. -/
  totalRejected : Count := 0
  failedBatches : Count := 0
  totalCostSaved : Amount := 0
  totalEraOperations : Count := 0
  avgBatchSize : Decimal := .zero
  avgSavingsPercent : Decimal := .zero
deriving DecidableEq

/-- The decimal `avg` moved towards `x` by the `n`-th part of their difference, if every decimal on
the way is within bounds. -/
def moveTowards? (avg x : Decimal) (n : Count) : Option Decimal := do
  let difference ← x.sub? avg
  let step ← difference.div? (Decimal.ofCount n)
  avg.add? step

/-- The average over `n` values of which `x` is the last and `avg` that of the others, in four
places. As long as neither is larger than `2 ^ 64` every decimal on the way is within bounds, so
that the old average never stands in for the new one (`exists_moveTowards?`). What is averaged here
are sizes of batches, which have 64 bits, and percentages. -/
def runningAverage (avg x : Decimal) (n : Count) : Decimal :=
  if n = 0 then avg else ((moveTowards? avg x n).getD avg).round 4

namespace RelayMetrics

instance : Inhabited RelayMetrics := ⟨{}⟩

/-- Adds a settled batch. A counter that is full stays full. The counters of batches and of
operations have 64 bits and grow by what one batch holds, so that no relay settles enough to fill
one, and the sum of what was saved has 128 bits for parts of 64. -/
def record (m : RelayMetrics) (r : SettlementReport) : RelayMetrics :=
  let size : Count := .clamp r.results.length
  let totalBatches := m.totalBatches.satAdd 1
  { m with
    totalBatches
    totalOperations := m.totalOperations.satAdd size
    totalRejected := m.totalRejected.satAdd (.clamp r.failed)
    totalCostSaved := m.totalCostSaved.satAdd (.clamp r.cost.saved.val)
    totalEraOperations := m.totalEraOperations.satAdd r.eraRecorded
    avgBatchSize := runningAverage m.avgBatchSize (Decimal.ofCount size) totalBatches
    avgSavingsPercent := runningAverage m.avgSavingsPercent r.cost.savingsPercent totalBatches }

/-- Counts a batch that failed. Nothing else changes, since its operations are still to come. -/
def recordFailure (m : RelayMetrics) : RelayMetrics :=
  { m with failedBatches := m.failedBatches.satAdd 1 }

/-- The figures in one line, as they are printed for an operator of the relay. -/
def summary (m : RelayMetrics) : String :=
  let size := m.avgBatchSize.normalize
  let savings := m.avgSavingsPercent.normalize
  s!"batches={m.totalBatches.val} (failed {m.failedBatches.val}) " ++
    s!"operations={m.totalOperations.val} rejected={m.totalRejected.val} " ++
    s!"era_operations={m.totalEraOperations.val} cost_saved={m.totalCostSaved.val} " ++
    s!"avg_batch_size={size} avg_savings={savings}%"

end RelayMetrics

end Settlement
