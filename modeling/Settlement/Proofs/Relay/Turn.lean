import Settlement.Proofs.Batch.Log
import Settlement.Proofs.Relay.Queue
import Settlement.Relay.Basic

namespace Settlement

/-- A sealed batch, the calls for it, and what became of it: settled, or back in the queue. -/
structure Turn where
  batch : Batch
  calls : List SettleCall
  outcome : Result SettlementReport

/-- The operations that are done with: all of the batch, if there is a report on it. -/
def Turn.reported (turn : Turn) : List SignedOperation :=
  match turn.outcome with
  | .ok _ => turn.batch.operations
  | .error _ => []

/-- The limits of a valid policy, as far as they bear on the queue. -/
structure RelayPolicy.Bounded (p : RelayPolicy) : Prop where
  least : 0 < p.batching.minBatchSize.val
  ordered : p.batching.minBatchSize.val ≤ p.batching.maxBatchSize.val
  room : p.batching.maxBatchSize.val ≤ p.maxPending.val

theorem RelayPolicy.bounded_of_validate {p : RelayPolicy} (h : p.validate = .ok ()) :
    p.Bounded := by
  obtain ⟨_, hbatching, hrest⟩ := Result.bind_eq_ok_iff.1 h
  obtain ⟨_, hleast, hbatching⟩ := Result.bind_eq_ok_iff.1 hbatching
  obtain ⟨_, hordered, -⟩ := Result.bind_eq_ok_iff.1 hbatching
  obtain ⟨_, -, hroom⟩ := Result.bind_eq_ok_iff.1 hrest
  exact ⟨Nat.pos_of_ne_zero (require_eq_ok_iff.1 hleast), require_eq_ok_iff.1 hordered,
    require_eq_ok_iff.1 hroom⟩

namespace Relay

variable {σ ε : Type}

theorem start_eq_ok {policy : RelayPolicy} {authorizer : Authorizer} {client : σ} {era : ε}
    {r : Relay σ ε} (h : start policy authorizer client era = .ok r) :
    policy.Bounded ∧ r.policy = policy ∧
      r.queue = { capacity := policy.maxPending.val, order := policy.ordering } := by
  obtain ⟨_, hvalid, hr⟩ := Result.bind_eq_ok_iff.1 h
  cases hr
  exact ⟨RelayPolicy.bounded_of_validate hvalid, rfl, rfl⟩

theorem submit_eq_ok {r next : Relay σ ε} {op : SignedOperation} {id : OperationId}
    (h : r.submit op = .ok (id, next)) :
    ∃ queue, r.queue.push op = .ok queue ∧ next = { r with queue } := by
  obtain ⟨_, -, hpushed⟩ := Result.bind_eq_ok_iff.1 h
  obtain ⟨queue, hqueue, hanswer⟩ := Result.bind_eq_ok_iff.1 hpushed
  exact ⟨queue, hqueue, (Prod.ext_iff.1 (Result.pure_eq_ok_iff.1 hanswer)).2.symm⟩

/-- The batch that is taken out of the queue next, with its number and the time at which it is
sealed. -/
def nextSealed (r : Relay σ ε) (now : Timestamp) : Batch :=
  { id := r.nextBatch
    operations := (r.queue.take r.policy.batching.maxBatchSize.val now).1
    sealedAt := now }

/-- The queue without the next batch. If the batch fails it goes back in front of this. -/
def rest (r : Relay σ ε) (now : Timestamp) : PendingQueue :=
  (r.queue.take r.policy.batching.maxBatchSize.val now).2

theorem size_nextSealed (r : Relay σ ε) (now : Timestamp) :
    (r.nextSealed now).size = min r.policy.batching.maxBatchSize.val r.pending :=
  r.queue.length_take ..

theorem size_rest (r : Relay σ ε) (now : Timestamp) :
    (r.rest now).size = r.pending - (r.nextSealed now).size := by
  rw [size_nextSealed]
  exact r.queue.size_take ..

variable [SettlementClient σ] [EraRecorder ε]

/-- The turn that the relay takes, if enough operations wait for it. -/
def turn? (r : Relay σ ε) (now : Timestamp) : Option Turn :=
  if r.isReady then
    some
      { batch := r.nextSealed now
        calls := settleCalls r.policy.batching (r.nextSealed now) r.client r.era
        outcome := (settleBatch r.policy.batching (r.nextSealed now) r.client r.era).1 }
  else none

/-- How a turn ends: with its answer and the relay after it. There are three ways, and everything
that is said of a turn goes over these three. -/
inductive Processed (r : Relay σ ε) (now : Timestamp) :
    Option Turn → Result (Option SettlementReport) → Relay σ ε → Prop
  | idle (hfew : r.pending < r.policy.batching.minBatchSize.val) :
    Processed r now none (.ok none) r
  | settled {report : SettlementReport} {client : σ} {era : ε}
      (hready : r.policy.batching.minBatchSize.val ≤ r.pending)
      (hsettled : settleBatch r.policy.batching (r.nextSealed now) r.client r.era =
        (.ok report, client, era)) :
    Processed r now
      (some ⟨r.nextSealed now,
        settleCalls r.policy.batching (r.nextSealed now) r.client r.era, .ok report⟩)
      (.ok (some report))
      { r with
        queue := r.rest now
        nextBatch := r.nextBatch.next
        client, era
        metrics := r.metrics.record report }
  | failed {e : Error} {client : σ} {era : ε}
      (hready : r.policy.batching.minBatchSize.val ≤ r.pending)
      (hfailed : settleBatch r.policy.batching (r.nextSealed now) r.client r.era =
        (.error e, client, era)) :
    Processed r now
      (some ⟨r.nextSealed now,
        settleCalls r.policy.batching (r.nextSealed now) r.client r.era, .error e⟩)
      (.error e)
      { r with
        queue := (r.rest now).requeue (r.nextSealed now).operations
        nextBatch := r.nextBatch.next
        client, era
        metrics := r.metrics.recordFailure }

private theorem processBatch_eq {r : Relay σ ε} (hready : r.isReady = true) (now : Timestamp) :
    r.processBatch now =
      match settleBatch r.policy.batching (r.nextSealed now) r.client r.era with
      | (.ok report, client, era) =>
        (.ok (some report),
          { r with
            queue := r.rest now
            nextBatch := r.nextBatch.next
            client, era
            metrics := r.metrics.record report })
      | (.error e, client, era) =>
        (.error e,
          { r with
            queue := (r.rest now).requeue (r.nextSealed now).operations
            nextBatch := r.nextBatch.next
            client, era
            metrics := r.metrics.recordFailure }) := by
  unfold processBatch
  rw [if_pos hready]
  rfl

theorem processed (r : Relay σ ε) (now : Timestamp) :
    Processed r now (r.turn? now) (r.processBatch now).1 (r.processBatch now).2 := by
  unfold turn?
  by_cases hready : r.isReady = true
  · have hle : r.policy.batching.minBatchSize.val ≤ r.pending := of_decide_eq_true hready
    rw [if_pos hready, processBatch_eq hready]
    cases hbatch : settleBatch r.policy.batching (r.nextSealed now) r.client r.era with
    | mk answer after =>
      cases answer with
      | ok report => exact .settled hle hbatch
      | error e => exact .failed hle hbatch
  · have hfew : r.pending < r.policy.batching.minBatchSize.val :=
      Nat.lt_of_not_le fun hle => hready (decide_eq_true hle)
    rw [if_neg hready, processBatch, if_neg hready]
    exact .idle hfew

namespace Processed

variable {r next : Relay σ ε} {now : Timestamp} {turn : Turn} {turn? : Option Turn}
  {answer : Result (Option SettlementReport)}

theorem policy_eq (h : Processed r now turn? answer next) : next.policy = r.policy := by
  cases h with
  | idle => rfl
  | settled => rfl
  | failed => rfl

theorem batch_eq (h : Processed r now (some turn) answer next) : turn.batch = r.nextSealed now := by
  cases h with
  | settled => rfl
  | failed => rfl

/-- A batch keeps to the limits of the policy, so it is not empty. -/
theorem size_batch (h : Processed r now (some turn) answer next) (hbounded : r.policy.Bounded) :
    r.policy.batching.minBatchSize.val ≤ turn.batch.size ∧
      turn.batch.size ≤ r.policy.batching.maxBatchSize.val := by
  have hordered := hbounded.ordered
  have hsize := r.size_nextSealed now
  cases h with
  | settled hready _ =>
    rw [hsize]
    omega
  | failed hready _ =>
    rw [hsize]
    omega

/-- A settled batch is not empty, so it leaves fewer operations behind. -/
theorem pending_lt {report : SettlementReport}
    (h : Processed r now turn? (.ok (some report)) next) (hbounded : r.policy.Bounded) :
    next.pending < r.pending := by
  have hleast := hbounded.least
  have hordered := hbounded.ordered
  have hsize := r.size_nextSealed now
  have hrest := r.size_rest now
  cases h with
  | settled hready _ =>
    change (r.rest now).size < r.pending
    rw [hrest, hsize]
    omega

theorem pending_le (h : Processed r now turn? answer next) : next.pending ≤ r.pending := by
  cases h with
  | idle => exact Nat.le_refl _
  | settled =>
    change (r.rest now).size ≤ r.pending
    rw [r.size_rest now]
    exact Nat.sub_le ..
  | failed => exact Nat.le_of_eq (r.queue.size_requeue_take ..)

end Processed

end Relay

end Settlement
