import Settlement.Proofs.Batch.Pointwise
import Settlement.Proofs.Batch.Window
import Settlement.Proofs.Word
import Settlement.Relay.Basic

namespace Settlement

variable {σ ε : Type} [SettlementClient σ] [EraRecorder ε]

/-- What the calls for a group have in common, however its settlement ends: they pass its operations
from the front, and none passes more than a window. -/
structure GroupCalls (chunking : Bool) (operations : List SignedOperation)
    (calls : List SettleCall) : Prop where
  inOrder : calls.flatMap SettleCall.operations <+: operations
  short : ∀ call ∈ calls, 0 < call.operations.length ∧
    call.operations.length ≤ windowFor chunking operations.length

namespace GroupCalls

theorem none (chunking : Bool) (operations : List SignedOperation) :
    GroupCalls chunking operations [] where
  inOrder := List.nil_prefix
  short _ h := absurd h List.not_mem_nil

theorem of_window {chunking : Bool} {operations : List SignedOperation} {calls : List SettleCall}
    (hfront : calls.flatMap SettleCall.operations <+: operations)
    (hshort : ∀ call ∈ calls, 0 < call.operations.length ∧
      call.operations.length ≤ max (windowFor chunking operations.length) 1) :
    GroupCalls chunking operations calls where
  inOrder := hfront
  short call hmem := by
    obtain ⟨hpos, hle⟩ := hshort call hmem
    obtain ⟨op, hop⟩ := List.exists_mem_of_length_pos hpos
    have hsent : op ∈ operations :=
      hfront.subset (List.mem_flatMap.2 ⟨call, hmem, hop⟩)
    have hwindow := windowFor_pos chunking (List.length_pos_of_mem hsent)
    exact ⟨hpos, by omega⟩

end GroupCalls

/-- A group goes out from the front, and if it is settled it went out as a whole. The weak
operations that are counted are those that the report flags as settled. -/
theorem OperationGroup.settle_calls (g : OperationGroup) (chunking : Bool) (c : LoggedClient σ) :
    ∃ calls, (g.settle chunking c).2.calls = c.calls ++ calls ∧
      GroupCalls chunking g.operations calls ∧
      ∀ outcome, (g.settle chunking c).1 = .ok outcome →
        Settles calls g.operations outcome.report.results ∧
        (g.kind = .weak → outcome.eraOperations = outcome.report.succeeded) := by
  obtain ⟨calls, hlog, hfront, hshort, hsettled⟩ := settleFrom_calls c
    (windowFor chunking g.operations.length) 0
    ⟨[], windowFor chunking g.operations.length, 0, 0⟩ g.operations
  unfold OperationGroup.settle settleChunked
  simp only
  generalize settleFrom c (windowFor chunking g.operations.length) 0 _ g.operations = settled
    at hlog hsettled ⊢
  obtain ⟨answer, c'⟩ := settled
  refine ⟨calls, ?_, .of_window hfront hshort, ?_⟩
  · cases answer with
    | error e => exact hlog
    | ok report => exact hlog
  · intro outcome hok
    cases answer with
    | error e => cases hok
    | ok report =>
      cases hok
      obtain ⟨flags, hresults, hsettles⟩ := hsettled report rfl
      rw [List.nil_append] at hresults
      refine ⟨hresults ▸ hsettles, fun hkind => ?_⟩
      rw [hkind]

/-- What the calls for a batch have in common, however its settlement ends: no weak operation goes
out before all strong ones have. -/
structure BatchCalls (policy : BatchPolicy) (operations : List SignedOperation)
    (strong weak : List SettleCall) : Prop where
  strongCalls : GroupCalls policy.chunkingEnabled (policy.strong operations) strong
  weakCalls : GroupCalls policy.chunkingEnabled (policy.weak operations) weak
  strongFirst : weak ≠ [] →
    strong.flatMap SettleCall.operations = policy.strong operations

/-- The calls pass the strong operations and then the weak ones, each of them at most once. -/
theorem BatchCalls.inOrder {policy : BatchPolicy} {operations : List SignedOperation}
    {strong weak : List SettleCall} (h : BatchCalls policy operations strong weak) :
    (strong ++ weak).flatMap SettleCall.operations <+:
      policy.strong operations ++ policy.weak operations := by
  by_cases hnil : weak = []
  · rw [hnil, List.append_nil]
    exact h.strongCalls.inOrder.trans (List.prefix_append ..)
  · rw [List.flatMap_append, h.strongFirst hnil]
    exact (List.prefix_append_right_inj _).2 h.weakCalls.inOrder

/-- What a report tells that the groups have answered and that has been counted. -/
structure Reported (policy : BatchPolicy) (batch : Batch) (strong weak : List SettleCall)
    (strongFlags weakFlags : List Bool) (era : ε) (report : SettlementReport) (after : ε) :
    Prop where
  size : policy.checkSize batch.size = .ok ()
  strongSettled : Settles strong (policy.strong batch.operations) strongFlags
  weakSettled : Settles weak (policy.weak batch.operations) weakFlags
  results : Reassembles policy.isWeak batch.operations weakFlags strongFlags report.results
  eraRecorded : report.eraRecorded = .clamp (weakFlags.count true)
  recorded : recordWeak era (weakFlags.count true) = .ok after

/-- The calls of a batch are those of its two groups, and a report is made only when both are
settled and the weak ones are counted. -/
theorem settleBatch_calls (policy : BatchPolicy) (batch : Batch) (c : LoggedClient σ) (era : ε) :
    ∃ strong weak,
      (settleBatch policy batch c era).2.1.calls = c.calls ++ (strong ++ weak) ∧
      BatchCalls policy batch.operations strong weak ∧
      ∀ report, (settleBatch policy batch c era).1 = .ok report →
        ∃ strongFlags weakFlags, Reported policy batch strong weak strongFlags weakFlags era report
          (settleBatch policy batch c era).2.2 := by
  unfold settleBatch
  cases hsize : policy.checkSize batch.size with
  | error e =>
    have hnone : BatchCalls policy batch.operations [] [] :=
      ⟨.none .., .none .., fun hne => absurd rfl hne⟩
    exact ⟨[], [], (List.append_nil _).symm, hnone, fun report h => by cases h⟩
  | ok _ =>
    obtain ⟨strong, hstrongLog, hstrong, hstrongOk⟩ :=
      (classify policy.eraPathEnabled batch.operations).strong.settle_calls
        policy.chunkingEnabled c
    rw [Partition.strong_operations] at hstrong hstrongOk
    simp only
    generalize (classify policy.eraPathEnabled batch.operations).strong.settle
      policy.chunkingEnabled c = settled at hstrongLog hstrongOk ⊢
    obtain ⟨strongAnswer, c'⟩ := settled
    cases strongAnswer with
    | error e =>
      have hcalls : BatchCalls policy batch.operations strong [] :=
        ⟨hstrong, .none .., fun hne => absurd rfl hne⟩
      refine ⟨strong, [], ?_, hcalls, fun report h => by cases h⟩
      rw [List.append_nil]
      exact hstrongLog
    | ok strongOutcome =>
      obtain ⟨hstrongSettles, -⟩ := hstrongOk strongOutcome rfl
      obtain ⟨weak, hweakLog, hweak, hweakOk⟩ :=
        (classify policy.eraPathEnabled batch.operations).weak.settle_calls
          policy.chunkingEnabled c'
      rw [Partition.weak_operations] at hweak hweakOk
      simp only
      generalize (classify policy.eraPathEnabled batch.operations).weak.settle
        policy.chunkingEnabled c' = settled at hweakLog hweakOk ⊢
      obtain ⟨weakAnswer, c''⟩ := settled
      have hlog : c''.calls = c.calls ++ (strong ++ weak) := by
        rw [hweakLog, hstrongLog, List.append_assoc]
      have hcalls : BatchCalls policy batch.operations strong weak :=
        ⟨hstrong, hweak, fun _ => hstrongSettles.operations⟩
      cases weakAnswer with
      | error e => exact ⟨strong, weak, hlog, hcalls, fun report h => by cases h⟩
      | ok weakOutcome =>
        obtain ⟨hweakSettles, hcount⟩ := hweakOk weakOutcome rfl
        obtain ⟨results, hreassemble, hresults⟩ := Partition.exists_reassemble policy
          batch.operations hweakSettles.length_flags hstrongSettles.length_flags
        simp only [hreassemble, hcount rfl, Result.ok_bind]
        cases hrecord : recordWeak era weakOutcome.report.succeeded with
        | error e => exact ⟨strong, weak, hlog, hcalls, fun report h => by cases h⟩
        | ok after =>
          refine ⟨strong, weak, hlog, hcalls, fun report h => ?_⟩
          cases h
          exact ⟨_, _, hsize, hstrongSettles, hweakSettles, hresults,
            congrArg Word.clamp (hcount rfl), hrecord⟩

theorem settleCalls_eq_append (policy : BatchPolicy) (batch : Batch) (client : σ) (era : ε) :
    ∃ strong weak, settleCalls policy batch client era = strong ++ weak ∧
      BatchCalls policy batch.operations strong weak ∧
      ∀ report next after, settleBatch policy batch client era = (.ok report, next, after) →
        ∃ strongFlags weakFlags,
          Reported policy batch strong weak strongFlags weakFlags era report after := by
  obtain ⟨strong, weak, hlog, hcalls, hreported⟩ :=
    settleBatch_calls policy batch (⟨client, []⟩ : LoggedClient σ) era
  refine ⟨strong, weak, hlog, hcalls, fun report next after h => ?_⟩
  have herase := settleBatch_client policy batch (⟨client, []⟩ : LoggedClient σ) era
  rw [h] at herase
  obtain ⟨hok, hrest⟩ := Prod.ext_iff.1 herase
  have hafter : after = (settleBatch policy batch (⟨client, []⟩ : LoggedClient σ) era).2.2 :=
    (Prod.ext_iff.1 hrest).2
  rw [hafter]
  exact hreported report hok.symm

theorem era_eq_of_error {policy : BatchPolicy} {batch : Batch} {client next : σ} {era after : ε}
    {e : Error} (h : settleBatch policy batch client era = (.error e, next, after)) :
    after = era := by
  unfold settleBatch at h
  split at h
  · cases h
    rfl
  · simp only at h
    split at h
    · cases h
      rfl
    · split at h
      · cases h
        rfl
      · split at h
        · cases h
          rfl
        · cases h

/-- The calls pass each operation once, the strong ones first, and the report holds for each
operation the flag that the client answered for it. -/
structure Aligned (policy : BatchPolicy) (batch : Batch) (strong weak : List SettleCall)
    (report : SettlementReport) : Prop where
  strongOrder : strong.flatMap SettleCall.operations = policy.strong batch.operations
  weakOrder : weak.flatMap SettleCall.operations = policy.weak batch.operations
  strongShort : ∀ call ∈ strong, call.operations.length ≤
    windowFor policy.chunkingEnabled (policy.strong batch.operations).length
  weakShort : ∀ call ∈ weak, call.operations.length ≤
    windowFor policy.chunkingEnabled (policy.weak batch.operations).length
  answered : ∀ call ∈ strong ++ weak, call.answer = .ok call.flags ∧
    call.flags.length = call.operations.length
  length : report.results.length = batch.size
  outcomes : (strong ++ weak).flatMap SettleCall.outcomes =
    (batch.operations.zip report.results).filter (fun entry => !policy.isWeak entry.1) ++
      (batch.operations.zip report.results).filter fun entry => policy.isWeak entry.1

/-- The number of weak operations that a report flags as settled. -/
def SettlementReport.settledWeak (report : SettlementReport) (policy : BatchPolicy)
    (batch : Batch) : Nat :=
  (batch.operations.zip report.results).countP fun entry => policy.isWeak entry.1 && entry.2

namespace Reported

variable {policy : BatchPolicy} {batch : Batch} {strong weak : List SettleCall}
  {strongFlags weakFlags : List Bool} {era after : ε} {report : SettlementReport}

/-- A batch that is reported is aligned with its calls, since merging gives each operation the flag
of its own position. -/
theorem aligned (h : Reported policy batch strong weak strongFlags weakFlags era report after)
    (hcalls : BatchCalls policy batch.operations strong weak) :
    Aligned policy batch strong weak report where
  strongOrder := h.strongSettled.operations
  weakOrder := h.weakSettled.operations
  strongShort call hmem := (hcalls.strongCalls.short call hmem).2
  weakShort call hmem := (hcalls.weakCalls.short call hmem).2
  answered := by
    have hboth := h.strongSettled.append h.weakSettled
    exact fun call hmem => ⟨hboth.answered call hmem, hboth.aligned call hmem⟩
  length := h.results.length
  outcomes := by
    rw [List.flatMap_append, h.strongSettled.outcomes, h.weakSettled.outcomes, h.results.others,
      h.results.marked]
    rfl

theorem count_weakFlags
    (h : Reported policy batch strong weak strongFlags weakFlags era report after) :
    weakFlags.count true = report.settledWeak policy batch := by
  have hcount := h.results.countP_marked h.weakSettled.length_flags (· == true)
  rw [List.count, hcount]
  exact List.countP_congr fun entry _ => by simp

theorem val_eraRecorded
    (h : Reported policy batch strong weak strongFlags weakFlags era report after) :
    report.eraRecorded.val = report.settledWeak policy batch := by
  have hsize : batch.size ≤ policy.maxBatchSize.val := (BatchPolicy.checkSize_eq_ok_iff.1 h.size).2
  have hweak : weakFlags.count true ≤ batch.size := by
    calc
      weakFlags.count true ≤ weakFlags.length := List.count_le_length
      _ = (policy.weak batch.operations).length := h.weakSettled.length_flags
      _ ≤ batch.size := List.length_filter_le ..
  have hwidth := policy.maxBatchSize.isLt
  rw [h.eraRecorded, Word.val_clamp, ← h.count_weakFlags]
  omega

end Reported

/-- A settled batch is aligned with its calls, and its settled weak operations are counted by a
single record, or by none if there are none. A client that goes by the operations alone settles
every batch of the right size, with the same results under all settings of the policy. -/
theorem settleBatch_aligned (policy : BatchPolicy) (batch : Batch) (client : σ) (era : ε) :
    (∀ report next after, settleBatch policy batch client era = (.ok report, next, after) →
      (∃ strong weak, settleCalls policy batch client era = strong ++ weak ∧
        Aligned policy batch strong weak report) ∧
      report.eraRecorded.val = report.settledWeak policy batch ∧
      (report.settledWeak policy batch = 0 → after = era) ∧
      (report.settledWeak policy batch ≠ 0 →
        EraRecorder.record era report.eraRecorded = .ok after)) ∧
    ∀ f, AnswersBy f client →
      (∀ report next after, settleBatch policy batch client era = (.ok report, next, after) →
        report.results = batch.operations.map f) ∧
      (policy.checkSize batch.size = .ok () → ∀ after,
        recordWeak era ((policy.weak batch.operations).countP f) = .ok after →
        ∃ report next, settleBatch policy batch client era = (.ok report, next, after)) := by
  obtain ⟨strong, weak, hlog, hcalls, hreported⟩ := settleCalls_eq_append policy batch client era
  constructor
  · intro report next after h
    obtain ⟨strongFlags, weakFlags, hflags⟩ := hreported report next after h
    have hrecorded := hflags.recorded
    have hval := hflags.val_eraRecorded
    rw [recordWeak, ← hflags.eraRecorded, hflags.count_weakFlags] at hrecorded
    refine ⟨⟨strong, weak, hlog, hflags.aligned hcalls⟩, hval, fun hzero => ?_, fun hne => ?_⟩
    · rw [if_pos hzero] at hrecorded
      cases hrecorded
      rfl
    · rwa [if_neg hne] at hrecorded
  · intro f hf
    constructor
    · intro report next after h
      obtain ⟨strongFlags, weakFlags, hflags⟩ := hreported report next after h
      obtain ⟨report', next', hresults, hbatch⟩ := hf.settleBatch_eq hflags.size era
      rw [h] at hbatch
      cases hrecord : recordWeak era ((policy.weak batch.operations).countP f) with
      | error e =>
        rw [hrecord] at hbatch
        cases hbatch
      | ok recorded =>
        rw [hrecord] at hbatch
        cases hbatch
        exact hresults
    · intro hsize after hrecord
      obtain ⟨report, next, -, hbatch⟩ := hf.settleBatch_eq hsize era
      rw [hrecord] at hbatch
      exact ⟨report, next, hbatch⟩

/-- A payment that is told from others by its number, its amount and its kind. -/
def payment (number : Word 128) (amount : Amount) (periodBound : Bool) : SignedOperation :=
  ⟨⟨⟨number⟩, ⟨1⟩, ⟨2⟩, amount, periodBound, 0, .epoch⟩, []⟩

/-- Weak and strong payments of even and odd amounts. -/
def mixedBatch : Batch :=
  ⟨⟨1⟩, [payment 1 10 false, payment 2 20 true, payment 3 31 true, payment 4 41 false], .epoch⟩

/-- A batch of two strong and two weak payments over a client that accepts even amounts: one weak
payment is settled and counted. -/
theorem settleBatch_aligned_of_mixed : ∃ (era after : Era) (report : SettlementReport)
    (next : ScriptedClient) (strong weak : List SettleCall),
      Era.start {} .epoch = .ok era ∧
      settleBatch { minBatchSize := 1 } mixedBatch (⟨{ modulus := 2 }, []⟩ : ScriptedClient) era =
        (.ok report, next, after) ∧
      Aligned { minBatchSize := 1 } mixedBatch strong weak report ∧
      report.results = [true, true, false, false] := by
  obtain ⟨era, hera⟩ : ∃ era, Era.start {} .epoch = .ok era := ⟨_, rfl⟩
  obtain ⟨haligned, hanswered⟩ := settleBatch_aligned { minBatchSize := 1 } mixedBatch
    (⟨{ modulus := 2 }, []⟩ : ScriptedClient) era
  obtain ⟨hresults, hsettled⟩ := hanswered _ (ScriptedClient.answersBy _ rfl rfl rfl [])
  obtain ⟨after, hafter⟩ : ∃ after, recordWeak era 1 = .ok after := by
    cases hera
    exact ⟨_, rfl⟩
  obtain ⟨report, next, hreport⟩ := hsettled rfl after hafter
  obtain ⟨⟨strong, weak, -, hcalls⟩, -⟩ := haligned report next after hreport
  exact ⟨era, after, report, next, strong, weak, hera, hreport, hcalls,
    (hresults report next after hreport).trans (by decide)⟩

end Settlement
