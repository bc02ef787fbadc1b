import Settlement.Era
import Settlement.Ledger.State
import Settlement.Relay.Metrics
import Settlement.Relay.Queue

namespace Settlement

instance : EraRecorder Era := ⟨Era.record⟩

instance {τ : Type} : EraRecorder (Ledger τ) :=
  ⟨fun l count => (l.era.record count).map fun era => { l with era }⟩

/-- A relay over a client of type `σ` and a recorder of weak operations of type `ε`. It checks the
authorization of submitted operations, keeps them in a queue, and settles them in batches. -/
structure Relay (σ ε : Type) where
  policy : RelayPolicy
  authorizer : Authorizer
  queue : PendingQueue
  client : σ
  era : ε
  metrics : RelayMetrics := {}
  /-- The number of the next batch. -/
  nextBatch : BatchId := ⟨1⟩

namespace Relay

variable {σ ε : Type}

/-- A relay with an empty queue, if its policy is in order. -/
def start (policy : RelayPolicy) (authorizer : Authorizer) (client : σ) (era : ε) :
    Result (Relay σ ε) := do
  policy.validate
  let queue : PendingQueue := { capacity := policy.maxPending.val, order := policy.ordering }
  return { policy, authorizer, queue, client, era }

/-- Accepts an operation into the queue. The signature is checked before there is a look at the
room. -/
def submit (r : Relay σ ε) (op : SignedOperation) : Result (OperationId × Relay σ ε) := do
  r.authorizer op.operation op.signature
  let queue ← r.queue.push op
  return (op.operation.id, { r with queue })

/-- Submits operations one after the other, and gives an answer to each. A refused one does not stop
the others. -/
def submitAll (r : Relay σ ε) : List SignedOperation → List (Result OperationId) × Relay σ ε
  | [] => ([], r)
  | op :: rest =>
    let (answer, r) := match r.submit op with
      | .ok (id, r) => (Except.ok id, r)
      | .error e => (Except.error e, r)
    let (answers, r) := r.submitAll rest
    (answer :: answers, r)

/-- The number of waiting operations, those of failed batches included. -/
def pending (r : Relay σ ε) : Nat := r.queue.size

/-- Whether there are enough operations for a batch, which is when one is settled. -/
def isReady (r : Relay σ ε) : Bool := r.policy.batching.minBatchSize.val ≤ r.pending

variable [SettlementClient σ] [EraRecorder ε]

/-- Settles one batch, if there are enough operations for it. A batch that fails goes back to the
queue as a whole, so that no accepted operation is lost; its number is used up all the same. -/
def processBatch (r : Relay σ ε) (now : Timestamp) :
    Result (Option SettlementReport) × Relay σ ε :=
  if r.isReady then
    let (operations, queue) := r.queue.take r.policy.batching.maxBatchSize.val now
    let batch : Batch := { id := r.nextBatch, operations, sealedAt := now }
    let r := { r with queue, nextBatch := r.nextBatch.next }
    match settleBatch r.policy.batching batch r.client r.era with
    | (.ok report, client, era) =>
      (.ok (some report), { r with client, era, metrics := r.metrics.record report })
    | (.error e, client, era) =>
      (.error e,
        { r with client, era, metrics := r.metrics.recordFailure, queue := queue.requeue operations })
  else (.ok none, r)

/-- Settles batches until too few operations are left or a batch fails. Each settled batch makes the
queue shorter; the loop also ends should it not. -/
def flush (r : Relay σ ε) (now : Timestamp) : Result (List SettlementReport) × Relay σ ε :=
  match r.processBatch now with
  | (.error e, r) => (.error e, r)
  | (.ok none, r) => (.ok [], r)
  | (.ok (some report), next) =>
    if next.pending < r.pending then
      match next.flush now with
      | (.error e, r) => (.error e, r)
      | (.ok reports, r) => (.ok (report :: reports), r)
    else (.ok [report], next)
termination_by r.pending

/-- One turn of the background loop, which settles a batch and goes on whatever comes of it. -/
def tick (r : Relay σ ε) (now : Timestamp) : Relay σ ε := (r.processBatch now).2

end Relay

end Settlement
