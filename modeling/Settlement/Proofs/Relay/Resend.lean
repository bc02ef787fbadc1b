import Mathlib.Data.List.Nodup
import Settlement.Proofs.Relay.Books

namespace Settlement

/-- The identifier by which an operation is told from others that are accepted. -/
def SignedOperation.id (op : SignedOperation) : OperationId := op.operation.id

namespace SettleCall

/-- The operations that were answered to be settled. An operation that is sent twice can stand here
twice. -/
def settled (call : SettleCall) : List SignedOperation :=
  (call.outcomes.filter Prod.snd).map Prod.fst

theorem mem_operations_of_mem_settled {call : SettleCall} {op : SignedOperation}
    (h : op ∈ call.settled) : op ∈ call.operations := by
  obtain ⟨⟨op', flag⟩, hmem, rfl⟩ := List.mem_map.1 h
  exact (List.of_mem_zip (List.mem_filter.1 hmem).1).1

/-- The later call passes no operation that the earlier one has settled. -/
def Apart (earlier later : SettleCall) : Prop :=
  ∀ op ∈ earlier.settled, ∀ op' ∈ later.operations, op.id ≠ op'.id

instance (earlier later : SettleCall) : Decidable (Apart earlier later) :=
  inferInstanceAs (Decidable (∀ op ∈ earlier.settled, ∀ op' ∈ later.operations, op.id ≠ op'.id))

theorem pairwise_apart {calls : List SettleCall}
    (h : ((calls.flatMap SettleCall.operations).map SignedOperation.id).Nodup) :
    calls.Pairwise Apart := by
  rw [List.map_flatMap, List.nodup_flatMap] at h
  apply h.2.imp
  intro earlier later hdisjoint op hop op' hop' heq
  have hmem : op.id ∈ earlier.operations.map SignedOperation.id :=
    List.mem_map_of_mem (mem_operations_of_mem_settled hop)
  have hmem' : op.id ∈ later.operations.map SignedOperation.id := by
    rw [heq]
    exact List.mem_map_of_mem hop'
  exact hdisjoint hmem hmem'

end SettleCall

namespace Turn

/-- The calls of a turn pass operations of its batch, each of them at most once, and all of them if
there is a report. -/
structure Passes (policy : BatchPolicy) (turn : Turn) : Prop where
  inOrder : turn.calls.flatMap SettleCall.operations <+:
    policy.strong turn.batch.operations ++ policy.weak turn.batch.operations
  complete : ∀ op ∈ turn.reported, ∃ call ∈ turn.calls, op ∈ call.operations

namespace Passes

variable {policy : BatchPolicy} {turn : Turn}

theorem nodup (h : turn.Passes policy)
    (hids : (turn.batch.operations.map SignedOperation.id).Nodup) :
    ((turn.calls.flatMap SettleCall.operations).map SignedOperation.id).Nodup := by
  have hperm := (policy.strong_append_weak_perm turn.batch.operations).map SignedOperation.id
  exact (hperm.nodup_iff.2 hids).sublist (h.inOrder.sublist.map _)

theorem mem_batch (h : turn.Passes policy) {call : SettleCall} (hcall : call ∈ turn.calls)
    {op : SignedOperation} (hop : op ∈ call.operations) : op ∈ turn.batch.operations := by
  have hpassed : op ∈ turn.calls.flatMap SettleCall.operations :=
    List.mem_flatMap.2 ⟨call, hcall, hop⟩
  exact (policy.strong_append_weak_perm _).subset (h.inOrder.subset hpassed)

end Passes

/-- Nothing of what the earlier turn reported on is in the batch of the later one. -/
def Disjoint (earlier later : Turn) : Prop :=
  ∀ op ∈ earlier.reported, ∀ op' ∈ later.batch.operations, op.id ≠ op'.id

end Turn

namespace Relay

variable {σ ε : Type}

theorem Processed.passes [SettlementClient σ] [EraRecorder ε] {r next : Relay σ ε}
    {now : Timestamp} {turn : Turn} {answer : Result (Option SettlementReport)}
    (h : Processed r now (some turn) answer next) : turn.Passes r.policy.batching := by
  obtain ⟨strong, weak, hall, hcalls, hreported⟩ :=
    settleCalls_eq_append r.policy.batching (r.nextSealed now) r.client r.era
  cases h with
  | failed =>
    refine ⟨?_, fun op hop => (List.not_mem_nil hop).elim⟩
    simp only [hall]
    exact hcalls.inOrder
  | @settled report client era hready hsettled =>
    constructor
    · simp only [hall]
      exact hcalls.inOrder
    · intro op hop
      obtain ⟨_, _, hflags⟩ := hreported report client era hsettled
      have hpassed : op ∈ (strong ++ weak).flatMap SettleCall.operations := by
        rw [List.flatMap_append, hflags.strongSettled.operations, hflags.weakSettled.operations]
        exact (r.policy.batching.strong_append_weak_perm _).mem_iff.2 hop
      simp only [hall]
      exact List.mem_flatMap.1 hpassed

/-- Batches are drawn from the accepted operations. If no identifier is accepted twice, then none is
twice in a batch, and none is in a batch after there was a report on it. -/
structure Separate (policy : RelayPolicy) (r : Relay σ ε) (accepted : List SignedOperation)
    (turns : List Turn) : Prop where
  books : Books policy r accepted turns
  passes : ∀ turn ∈ turns, turn.Passes policy.batching
  drawn : ∀ turn ∈ turns, turn.batch.operations ⊆ accepted
  distinct : (accepted.map SignedOperation.id).Nodup →
    ∀ turn ∈ turns, (turn.batch.operations.map SignedOperation.id).Nodup
  disjoint : (accepted.map SignedOperation.id).Nodup → turns.Pairwise Turn.Disjoint

namespace Separate

variable {policy : RelayPolicy} {r : Relay σ ε} {accepted : List SignedOperation}
  {turns : List Turn}

theorem start {authorizer : Authorizer} {client : σ} {era : ε}
    (h : Relay.start policy authorizer client era = .ok r) : Separate policy r [] [] where
  books := Books.start h
  passes _ hmem := (List.not_mem_nil hmem).elim
  drawn _ hmem := (List.not_mem_nil hmem).elim
  distinct _ _ hmem := (List.not_mem_nil hmem).elim
  disjoint _ := .nil

theorem submit {op : SignedOperation} {queue : PendingQueue}
    (h : Separate policy r accepted turns) (hpush : r.queue.push op = .ok queue) :
    Separate policy { r with queue } (accepted ++ [op]) turns := by
  have hbefore (hids : ((accepted ++ [op]).map SignedOperation.id).Nodup) :
      (accepted.map SignedOperation.id).Nodup :=
    hids.sublist ((List.sublist_append_left ..).map _)
  refine ⟨h.books.submit hpush, h.passes, ?_, fun hids => h.distinct (hbefore hids),
    fun hids => h.disjoint (hbefore hids)⟩
  intro turn hmem op' hop'
  exact List.mem_append_left _ (h.drawn turn hmem hop')

/-- Between two turns an operation is only sent again if there was no report on the first. -/
private theorem apart_of_disjoint (h : Separate policy r accepted turns) {earlier later : Turn}
    (hearlier : earlier ∈ turns) (hlater : later ∈ turns) (hdisjoint : earlier.Disjoint later)
    {report : SettlementReport} (hok : earlier.outcome = .ok report) :
    ∀ call ∈ earlier.calls, ∀ call' ∈ later.calls, call.Apart call' := by
  intro call hcall call' hcall' op hop op' hop'
  have hsettled := SettleCall.mem_operations_of_mem_settled hop
  have hreported : op ∈ earlier.reported := by
    unfold Turn.reported
    rw [hok]
    exact (h.passes earlier hearlier).mem_batch hcall hsettled
  exact hdisjoint op hreported op' ((h.passes later hlater).mem_batch hcall' hop')

/-- What a turn without a report has drawn is sent by a later turn, or waits. -/
private theorem waits_or_sent (h : Separate policy r accepted turns)
    (hids : (accepted.map SignedOperation.id).Nodup) {before later : List Turn} {turn : Turn}
    (hturns : turns = before ++ turn :: later) {e : Error} (hfailed : turn.outcome = .error e)
    {op : SignedOperation} (hop : op ∈ turn.batch.operations) :
    op ∈ r.queue.operations ∨ ∃ turn' ∈ later, ∃ call ∈ turn'.calls, op ∈ call.operations := by
  subst hturns
  have hmem : turn ∈ before ++ turn :: later :=
    List.mem_append_right _ (List.mem_cons_self ..)
  have haccepted : op ∈ accepted := h.drawn turn hmem hop
  rcases List.mem_append.1 (h.books.perm.mem_iff.2 haccepted) with hdone | hwaits
  · obtain ⟨turn', hmem', hreported⟩ := List.mem_flatMap.1 hdone
    have hpairwise := List.pairwise_append.1 (h.disjoint hids)
    rcases List.mem_append.1 hmem' with hbefore | hrest
    · -- a report before the failure would have kept the operation out of the failed batch
      have hdisjoint := hpairwise.2.2 turn' hbefore turn (List.mem_cons_self ..)
      exact absurd rfl (hdisjoint op hreported op hop)
    · rcases List.mem_cons.1 hrest with rfl | hlater
      · unfold Turn.reported at hreported
        rw [hfailed] at hreported
        exact (List.not_mem_nil hreported).elim
      · exact .inr ⟨turn', hlater, (h.passes turn' hmem').complete op hreported⟩
  · exact .inl hwaits

variable [SettlementClient σ] [EraRecorder ε]

/-- A turn draws from what waits, which has nothing of what there was a report on. -/
theorem turn {now : Timestamp} {turn : Turn} {answer : Result (Option SettlementReport)}
    {next : Relay σ ε} (h : Separate policy r accepted turns)
    (hturn : Processed r now (some turn) answer next) :
    Separate policy next accepted (turns ++ [turn]) := by
  have hpasses := hturn.passes
  rw [h.books.unchanged] at hpasses
  have hperm := h.books.perm_nextSealed now
  rw [← List.append_assoc, ← hturn.batch_eq] at hperm
  have hdrawn : turn.batch.operations ⊆ accepted := fun op hop =>
    hperm.subset (List.mem_append_left _ (List.mem_append_right _ hop))
  have hparts (hids : (accepted.map SignedOperation.id).Nodup) :
      (turn.batch.operations.map SignedOperation.id).Nodup ∧
        ∀ a ∈ (turns.flatMap Turn.reported).map SignedOperation.id,
          ∀ b ∈ turn.batch.operations.map SignedOperation.id, a ≠ b := by
    have hall := (hperm.map SignedOperation.id).nodup_iff.2 hids
    rw [List.map_append, List.map_append, List.nodup_append, List.nodup_append] at hall
    exact hall.1.2
  refine ⟨h.books.turn hturn, ?_, ?_, fun hids => ?_, fun hids => ?_⟩
  · rw [List.forall_mem_append, List.forall_mem_singleton]
    exact ⟨h.passes, hpasses⟩
  · rw [List.forall_mem_append, List.forall_mem_singleton]
    exact ⟨h.drawn, hdrawn⟩
  · rw [List.forall_mem_append, List.forall_mem_singleton]
    exact ⟨h.distinct hids, (hparts hids).1⟩
  · rw [List.pairwise_append]
    refine ⟨h.disjoint hids, List.pairwise_singleton .., ?_⟩
    intro earlier hearlier later hlater op hop op' hop'
    obtain rfl := List.mem_singleton.1 hlater
    have hreported : op ∈ turns.flatMap Turn.reported :=
      List.mem_flatMap.2 ⟨earlier, hearlier, hop⟩
    exact (hparts hids).2 _ (List.mem_map_of_mem hreported) _ (List.mem_map_of_mem hop')

theorem kept (policy : RelayPolicy) : Kept (Separate (σ := σ) (ε := ε) policy) where
  bounded h := h.books.unchanged ▸ h.books.bounded
  submit := submit
  turn := turn

end Separate

variable [SettlementClient σ] [EraRecorder ε]

/-- No operation goes out again after it was settled exactly if none does that was settled in a turn
without a report. An operation that was so settled stays in the queue until it goes out again. -/
theorem apart_iff_apart_of_failed {policy : RelayPolicy} {authorizer : Authorizer} {client : σ}
    {era : ε} {r : Relay σ ε} (hstart : Relay.start policy authorizer client era = .ok r)
    (calls : List RelayCall) (hids : ((r.accepted calls).map SignedOperation.id).Nodup) :
    (((r.turns calls).flatMap Turn.calls).Pairwise SettleCall.Apart ↔
        (r.turns calls).Pairwise fun earlier later => ∀ e, earlier.outcome = .error e →
          ∀ call ∈ earlier.calls, ∀ call' ∈ later.calls, call.Apart call') ∧
      ∀ before turn later e, r.turns calls = before ++ turn :: later → turn.outcome = .error e →
        ∀ call ∈ turn.calls, ∀ op ∈ call.settled, op ∈ (r.after calls).queue.operations ∨
          ∃ turn' ∈ later, ∃ call' ∈ turn'.calls, op ∈ call'.operations := by
  have h : Separate policy (r.after calls) (r.accepted calls) (r.turns calls) :=
    (Separate.kept policy).after (Separate.start hstart) calls
  constructor
  · rw [List.pairwise_flatMap]
    constructor
    · rintro ⟨-, hacross⟩
      exact hacross.imp fun hapart e _ => hapart
    · intro hfailed
      have hwithin : ∀ turn ∈ r.turns calls, turn.calls.Pairwise SettleCall.Apart :=
        fun turn hmem => SettleCall.pairwise_apart
          ((h.passes turn hmem).nodup (h.distinct hids turn hmem))
      refine ⟨hwithin, ?_⟩
      apply (hfailed.and (h.disjoint hids)).imp_of_mem
      rintro earlier later hearlier hlater ⟨hapart, hdisjoint⟩
      cases houtcome : earlier.outcome with
      | error e => exact hapart e houtcome
      | ok report => exact h.apart_of_disjoint hearlier hlater hdisjoint houtcome
  · intro before turn later e hturns hfailed call hcall op hop
    have hmem : turn ∈ r.turns calls := by
      rw [hturns]
      exact List.mem_append_right _ (List.mem_cons_self ..)
    have hsettled := SettleCall.mem_operations_of_mem_settled hop
    exact h.waits_or_sent hids hturns hfailed ((h.passes turn hmem).mem_batch hcall hsettled)

/-- The client settles nothing in the turn that fails, so no operation goes out again after it was
settled. -/
theorem apart_of_failed_of_retry : ∃ (era : Era) (r : Relay ScriptedClient Era),
    Era.start {} .epoch = .ok era ∧
    Relay.start { batching := { minBatchSize := 1, maxBatchSize := 2 } } .trusting
      ⟨{ failing := [0] }, []⟩ era = .ok r ∧
    ((r.accepted retryRun).map SignedOperation.id).Nodup ∧
    (r.turns retryRun).Pairwise fun earlier later => ∀ e, earlier.outcome = .error e →
      ∀ call ∈ earlier.calls, ∀ call' ∈ later.calls, call.Apart call' := by
  obtain ⟨era, r, hera, hstart, hids, hapart⟩ : ∃ (era : Era) (r : Relay ScriptedClient Era),
      Era.start {} .epoch = .ok era ∧
      Relay.start { batching := { minBatchSize := 1, maxBatchSize := 2 } } .trusting
        ⟨{ failing := [0] }, []⟩ era = .ok r ∧
      ((r.accepted retryRun).map SignedOperation.id).Nodup ∧
      ((r.turns retryRun).flatMap Turn.calls).Pairwise SettleCall.Apart :=
    ⟨_, _, rfl, rfl, by decide, by decide +kernel⟩
  obtain ⟨hiff, -⟩ := apart_iff_apart_of_failed hstart retryRun hids
  exact ⟨era, r, hera, hstart, hids, hiff.1 hapart⟩

/-- A strong and a weak payment in one batch, and two turns. -/
def partialRun : List RelayCall :=
  [.submit (payment 1 10 false), .submit (payment 2 20 true), .process .epoch, .process .epoch]

/-- The client settles the strong payment, fails at the weak one, and is then sent both again. -/
theorem not_apart_of_partial : ∃ (era : Era) (r : Relay ScriptedClient Era),
    Era.start {} .epoch = .ok era ∧
    Relay.start { batching := { minBatchSize := 1, maxBatchSize := 2 } } .trusting
      ⟨{ failing := [1] }, []⟩ era = .ok r ∧
    ((r.accepted partialRun).map SignedOperation.id).Nodup ∧
    ((r.turns partialRun).flatMap Turn.calls).map SettleCall.operations =
      [[payment 1 10 false], [payment 2 20 true], [payment 1 10 false], [payment 2 20 true]] ∧
    ((r.turns partialRun).flatMap Turn.calls).map SettleCall.flags =
      [[true], [], [true], [true]] ∧
    ¬ ((r.turns partialRun).flatMap Turn.calls).Pairwise SettleCall.Apart :=
  ⟨_, _, rfl, rfl, by decide, by decide +kernel, by decide +kernel, by decide +kernel⟩

end Relay

end Settlement
