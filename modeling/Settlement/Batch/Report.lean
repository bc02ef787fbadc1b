import Settlement.Batch.Basic
import Settlement.Batch.Cost
import Settlement.Batch.Group
import Settlement.Batch.Priority

namespace Settlement

/-- What counts weak operations. The ledger is one, and so is whatever stands for it where a batch
is settled without one. -/
class EraRecorder (ε : Type) where
  record : ε → Count → Result ε

/-- What became of a batch: its results, what it took to settle it and what that cost. -/
structure SettlementReport where
  batchId : BatchId
  batchHash : Digest
  /-- One flag for each operation, in the order of the batch. -/
  results : List Bool
  strongOperations : Nat
  weakOperations : Nat
  strongChunkSize : Nat
  weakChunkSize : Nat
  settleCalls : Nat
  maxCallLength : Nat
  /-- The operations counted in the current period. -/
  eraRecorded : Count
  cost : CostReport
  /-- The mean score of the operations when the batch was sealed. -/
  priorityScore : Decimal
  resultsRoot : Digest
deriving DecidableEq

namespace SettlementReport

def succeeded (r : SettlementReport) : Nat := r.results.count true

/-- The number of operations that were settled without success. The others succeeded. -/
def failed (r : SettlementReport) : Nat := r.results.length - r.succeeded

end SettlementReport

namespace BatchPolicy

/-- Refuses batches of other sizes than the policy allows, before anything is sent. -/
def checkSize (p : BatchPolicy) (size : Nat) : Result Unit := do
  require (p.minBatchSize.val ≤ size) (.batchTooSmall size p.minBatchSize.val)
  require (size ≤ p.maxBatchSize.val) (.batchTooLarge size p.maxBatchSize.val)

end BatchPolicy

/-- The report on a batch whose groups are settled. Updating the era costs the same for any number
of weak operations, and nothing if none was settled. -/
def reportOf (policy : BatchPolicy) (batch : Batch) (groups : Partition)
    (strong weak : GroupOutcome) (results : List Bool) : SettlementReport :=
  let settleCalls := strong.report.calls + weak.report.calls
  let eraRecorded : Count := .clamp weak.eraOperations
  let batchHash := batch.hash
  { batchId := batch.id
    batchHash
    results
    strongOperations := groups.strong.size
    weakOperations := groups.weak.size
    strongChunkSize := strong.report.chunkSize
    weakChunkSize := weak.report.chunkSize
    settleCalls
    maxCallLength := max strong.report.maxCallLength weak.report.maxCallLength
    eraRecorded
    cost := policy.costModel.estimate (.clamp batch.size) (.clamp settleCalls)
      (if eraRecorded = 0 then 0 else 1)
    priorityScore := meanScore batch.sealedAt batch.operations
    resultsRoot := resultsRoot batchHash results }

/-- Counts settled weak operations all at once, unless there are none to count. -/
def recordWeak {ε : Type} [EraRecorder ε] (era : ε) (count : Nat) : Result ε :=
  if count = 0 then .ok era else EraRecorder.record era (.clamp count)

/-- Settles a batch, and gives the states of the client and of the recorder after it. The strong
group goes first, then the weak one; the results are put in the order of the batch, and only then
are the settled weak operations counted. A failure on the way fails the batch and counts nothing. -/
def settleBatch {σ ε : Type} [SettlementClient σ] [EraRecorder ε] (policy : BatchPolicy)
    (batch : Batch) (client : σ) (era : ε) : Result SettlementReport × σ × ε :=
  match policy.checkSize batch.size with
  | .error e => (.error e, client, era)
  | .ok () =>
    let groups := classify policy.eraPathEnabled batch.operations
    match groups.strong.settle policy.chunkingEnabled client with
    | (.error e, client) => (.error e, client, era)
    | (.ok strong, client) =>
      match groups.weak.settle policy.chunkingEnabled client with
      | (.error e, client) => (.error e, client, era)
      | (.ok weak, client) =>
        let finished := do
          let results ← groups.reassemble weak.report.results strong.report.results
          let era ← recordWeak era weak.eraOperations
          return (reportOf policy batch groups strong weak results, era)
        match finished with
        | .error e => (.error e, client, era)
        | .ok (report, era) => (.ok report, client, era)

end Settlement
