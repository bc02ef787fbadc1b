import Settlement.Proofs.Batch.Alignment
import Settlement.Proofs.Relay.Run

namespace Settlement.Relay

variable {σ ε : Type}

/-- The operations that are done with or wait are the accepted ones. The policy is that of the
start. An operation is done with as part of a batch on which there is a report; a failure moves it
out of the queue and back. -/
structure Books (policy : RelayPolicy) (r : Relay σ ε) (accepted : List SignedOperation)
    (turns : List Turn) : Prop where
  bounded : policy.Bounded
  unchanged : r.policy = policy
  capacity : r.queue.capacity = policy.maxPending.val
  order : r.queue.order = policy.ordering
  room : r.queue.size ≤ policy.maxPending.val
  perm : (turns.flatMap Turn.reported ++ r.queue.operations).Perm accepted
  inOrder : policy.ordering = .fifo →
    turns.flatMap Turn.reported ++ r.queue.operations = accepted
  sized : ∀ turn ∈ turns, policy.batching.minBatchSize.val ≤ turn.batch.size ∧
    turn.batch.size ≤ policy.batching.maxBatchSize.val

namespace Books

variable {policy : RelayPolicy} {r : Relay σ ε} {accepted : List SignedOperation}
  {turns : List Turn}

theorem start {authorizer : Authorizer} {client : σ} {era : ε}
    (h : Relay.start policy authorizer client era = .ok r) : Books policy r [] [] := by
  obtain ⟨hbounded, hpolicy, hqueue⟩ := start_eq_ok h
  refine ⟨hbounded, hpolicy, ?_, ?_, ?_, ?_, ?_, fun _ hmem => (List.not_mem_nil hmem).elim⟩
  · rw [hqueue]
  · rw [hqueue]
  · rw [hqueue]
    exact Nat.zero_le _
  · rw [hqueue]
    exact .nil
  · intro _
    rw [hqueue]
    rfl

theorem submit {op : SignedOperation} {queue : PendingQueue} (h : Books policy r accepted turns)
    (hpush : r.queue.push op = .ok queue) :
    Books policy { r with queue } (accepted ++ [op]) turns := by
  obtain ⟨hroom, hqueue⟩ := PendingQueue.push_eq_ok hpush
  have hsize : queue.size = r.queue.size + 1 := by
    rw [hqueue]
    exact List.length_append
  have hoperations : turns.flatMap Turn.reported ++ queue.operations =
      turns.flatMap Turn.reported ++ r.queue.operations ++ [op] := by
    rw [hqueue, List.append_assoc]
  have hcapacity := h.capacity
  refine ⟨h.bounded, h.unchanged, ?_, ?_, ?_, ?_, fun hfifo => ?_, h.sized⟩
  · rw [hqueue]
    exact hcapacity
  · rw [hqueue]
    exact h.order
  · change queue.size ≤ _
    omega
  · change (turns.flatMap Turn.reported ++ queue.operations).Perm _
    rw [hoperations]
    exact h.perm.append_right _
  · change turns.flatMap Turn.reported ++ queue.operations = _
    rw [hoperations, h.inOrder hfifo]

/-- The next batch is drawn from what waits, so it has nothing of what is done with. -/
theorem perm_nextSealed (h : Books policy r accepted turns) (now : Timestamp) :
    (turns.flatMap Turn.reported ++
      ((r.nextSealed now).operations ++ (r.rest now).operations)).Perm accepted :=
  ((r.queue.take_perm ..).append_left _).trans h.perm

variable [SettlementClient σ] [EraRecorder ε]

/-- What is done with after a turn and what waits then are what was done with and what waited. -/
private theorem reported_append {r next : Relay σ ε} {now : Timestamp} {turn : Turn}
    {answer : Result (Option SettlementReport)} (h : Processed r now (some turn) answer next) :
    turn.reported ++ next.queue.operations =
      (r.nextSealed now).operations ++ (r.rest now).operations := by
  cases h with
  | settled => rfl
  | failed => rfl

/-- A turn moves operations from those that wait to those that are done with, or back to where they
waited. -/
theorem turn {now : Timestamp} {turn : Turn} {answer : Result (Option SettlementReport)}
    {next : Relay σ ε} (h : Books policy r accepted turns)
    (hturn : Processed r now (some turn) answer next) :
    Books policy next accepted (turns ++ [turn]) := by
  have hreported := reported_append hturn
  have hpolicy := hturn.policy_eq.trans h.unchanged
  have hdone : (turns ++ [turn]).flatMap Turn.reported ++ next.queue.operations =
      turns.flatMap Turn.reported ++
        ((r.nextSealed now).operations ++ (r.rest now).operations) := by
    rw [List.flatMap_append, List.flatMap_singleton, List.append_assoc, hreported]
  refine ⟨h.bounded, hpolicy, ?_, ?_, ?_, ?_, fun hfifo => ?_, ?_⟩
  · cases hturn with
    | settled => exact h.capacity
    | failed => exact h.capacity
  · cases hturn with
    | settled => exact h.order
    | failed => exact h.order
  · exact Nat.le_trans hturn.pending_le h.room
  · rw [hdone]
    exact h.perm_nextSealed now
  · rw [hdone, ← h.inOrder hfifo]
    exact congrArg _ (r.queue.take_append_of_fifo _ _ (h.order.trans hfifo))
  · intro turn' hmem
    rcases List.mem_append.1 hmem with hold | hnew
    · exact h.sized turn' hold
    · obtain rfl := List.mem_singleton.1 hnew
      have hsize := hturn.size_batch (h.unchanged ▸ h.bounded)
      rwa [h.unchanged] at hsize

theorem kept (policy : RelayPolicy) : Kept (Books (σ := σ) (ε := ε) policy) where
  bounded h := h.unchanged ▸ h.bounded
  submit := submit
  turn := turn

end Books

variable [SettlementClient σ] [EraRecorder ε]

theorem books_after {policy : RelayPolicy} {authorizer : Authorizer} {client : σ} {era : ε}
    {r : Relay σ ε} (hstart : Relay.start policy authorizer client era = .ok r)
    (calls : List RelayCall) : Books policy (r.after calls) (r.accepted calls) (r.turns calls) :=
  (Books.kept policy).after (Books.start hstart) calls

/-- After any run the operations of the batches with a report and the waiting ones are the accepted
ones, and in order of arrival they are so in their order. Batches keep to the limits of the policy,
so no settlement refuses one for its size; the queue keeps to its capacity; and a flush ends, be the
clock as it may. -/
theorem reported_append_pending_perm_accepted {policy : RelayPolicy} {authorizer : Authorizer}
    {client : σ} {era : ε} {r : Relay σ ε}
    (hstart : Relay.start policy authorizer client era = .ok r) (calls : List RelayCall) :
    ((r.turns calls).flatMap Turn.reported ++ (r.after calls).queue.operations).Perm
        (r.accepted calls) ∧
      (policy.ordering = .fifo →
        (r.turns calls).flatMap Turn.reported ++ (r.after calls).queue.operations =
          r.accepted calls) ∧
      (∀ turn ∈ r.turns calls, policy.batching.minBatchSize.val ≤ turn.batch.size ∧
        turn.batch.size ≤ policy.batching.maxBatchSize.val ∧
        policy.batching.checkSize turn.batch.size = .ok ()) ∧
      (r.after calls).pending ≤ policy.maxPending.val ∧
      (∀ now, Flushes (fun _ => now) (r.after calls) ((r.after calls).flushTurns now)
        ((r.after calls).flush now).1 ((r.after calls).flush now).2) ∧
      ∀ clock, ∃ turns answer last, Flushes clock (r.after calls) turns answer last ∧
        ∀ reports, answer = .ok reports → turns.map Turn.outcome = reports.map .ok ∧
          last.pending < policy.batching.minBatchSize.val := by
  have h := books_after hstart calls
  have hbounded : (r.after calls).policy.Bounded := h.unchanged ▸ h.bounded
  refine ⟨h.perm, h.inOrder, fun turn hmem => ?_, h.room, flushes_flush hbounded, fun clock => ?_⟩
  · obtain ⟨hmin, hmax⟩ := h.sized turn hmem
    exact ⟨hmin, hmax, BatchPolicy.checkSize_eq_ok_iff.2 ⟨hmin, hmax⟩⟩
  · obtain ⟨turns, answer, last, hflushes⟩ := exists_flushes hbounded clock
    refine ⟨turns, answer, last, hflushes, fun reports hok => ?_⟩
    have hdone := Flushes.of_ok (hok ▸ hflushes)
    rwa [h.unchanged] at hdone

/-- Three payments, of which two at a time make a batch, and one turn before a flush. -/
def retryRun : List RelayCall :=
  [.submit (payment 1 10 false), .submit (payment 2 20 true), .submit (payment 3 30 false),
    .process .epoch, .flush .epoch]

/-- The client fails the first call, so the first turn puts its batch back. The flush settles all
three payments in their order. -/
theorem reported_append_pending_of_retry : ∃ (era : Era) (r : Relay ScriptedClient Era),
    Era.start {} .epoch = .ok era ∧
    Relay.start { batching := { minBatchSize := 1, maxBatchSize := 2 } } .trusting
      ⟨{ failing := [0] }, []⟩ era = .ok r ∧
    (r.turns retryRun).flatMap Turn.reported ++ (r.after retryRun).queue.operations =
      [payment 1 10 false, payment 2 20 true, payment 3 30 false] := by
  obtain ⟨era, hera⟩ : ∃ era, Era.start {} .epoch = .ok era := ⟨_, rfl⟩
  obtain ⟨r, hstart⟩ : ∃ r : Relay ScriptedClient Era,
      Relay.start { batching := { minBatchSize := 1, maxBatchSize := 2 } } .trusting
        ⟨{ failing := [0] }, []⟩ era = .ok r := ⟨_, rfl⟩
  have haccepted : r.accepted retryRun =
      [payment 1 10 false, payment 2 20 true, payment 3 30 false] := by
    cases hstart
    rfl
  obtain ⟨-, hinOrder, -⟩ := reported_append_pending_perm_accepted hstart retryRun
  exact ⟨era, r, hera, hstart, (hinOrder rfl).trans haccepted⟩

end Settlement.Relay
