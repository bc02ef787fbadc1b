import Settlement.Batch.Scripted
import Settlement.Proofs.Batch.Reassembly

namespace Settlement

section Client

variable {σ : Type} [SettlementClient σ]

/-- The client after these calls, whatever it has answered. A client may go on differently after
each of them. -/
def clientAfter (client : σ) (calls : List (List SignedOperation)) : σ :=
  calls.foldl (fun client operations => (SettlementClient.settle client operations).2) client

/-- Every call of the client, now and after any calls, is answered by `f`: each operation by itself,
whatever goes with it and came before it. -/
def AnswersBy (f : SignedOperation → Bool) (client : σ) : Prop :=
  ∀ calls operations,
    (SettlementClient.settle (clientAfter client calls) operations).1 = .ok (operations.map f)

namespace AnswersBy

variable {f : SignedOperation → Bool} {client : σ}

theorem settle_eq (h : AnswersBy f client) (operations : List SignedOperation) :
    ∃ after, SettlementClient.settle client operations = (.ok (operations.map f), after) ∧
      AnswersBy f after :=
  ⟨_, Prod.ext (h [] operations) rfl, fun calls => h (operations :: calls)⟩

private theorem settleChunk_eq (h : AnswersBy f client) (start : Nat)
    (chunk : List SignedOperation) :
    ∃ after, settleChunk client start chunk = (.ok (chunk.map f), after) ∧ AnswersBy f after := by
  obtain ⟨after, hsettle, hafter⟩ := h.settle_eq chunk
  refine ⟨after, ?_, hafter⟩
  unfold settleChunk
  rw [hsettle]
  simp only [List.length_map, if_true]

/-- Chunk by chunk the flags of all operations are added to the report, so the chunks make no
difference to it. -/
theorem settleFrom_eq (h : AnswersBy f client) (window start : Nat) (report : ChunkReport)
    (operations : List SignedOperation) :
    ∃ settled after, settleFrom client window start report operations = (.ok settled, after) ∧
      settled.results = report.results ++ operations.map f ∧ AnswersBy f after := by
  fun_induction settleFrom client window start report operations with
  | case1 client start report => exact ⟨report, client, rfl, (List.append_nil _).symm, h⟩
  | case2 client start report op rest chunk e failed hfailed =>
    obtain ⟨after, hchunk, -⟩ := h.settleChunk_eq start chunk
    rw [hchunk] at hfailed
    cases hfailed
  | case3 client start report op rest chunk results next hnext report' ih =>
    obtain ⟨after, hchunk, hafter⟩ := h.settleChunk_eq start chunk
    rw [hchunk] at hnext
    cases hnext
    obtain ⟨settled, last, hsettled, hresults, hlast⟩ := ih hafter
    refine ⟨settled, last, hsettled, ?_, hlast⟩
    have hsplit : op :: rest = chunk ++ rest.drop (window - 1) := by
      rw [List.cons_append, List.take_append_drop]
    rw [hresults, List.append_assoc, hsplit, List.map_append]

/-- A group is settled with the flags of its operations, and among the weak ones those that are
accepted are counted. -/
theorem settle_group_eq (h : AnswersBy f client) (g : OperationGroup) (chunking : Bool) :
    ∃ outcome after, g.settle chunking client = (.ok outcome, after) ∧
      outcome.report.results = g.operations.map f ∧
      (g.kind = .weak → outcome.eraOperations = g.operations.countP f) ∧ AnswersBy f after := by
  obtain ⟨settled, after, hsettled, hresults, hafter⟩ := h.settleFrom_eq
    (windowFor chunking g.operations.length) 0
    ⟨[], windowFor chunking g.operations.length, 0, 0⟩ g.operations
  rw [List.nil_append] at hresults
  have hcount : settled.succeeded = g.operations.countP f := by
    unfold ChunkReport.succeeded
    rw [hresults, List.count, List.countP_map]
    exact List.countP_congr fun op _ => by simp
  unfold OperationGroup.settle settleChunked
  simp only [hsettled]
  refine ⟨_, after, rfl, hresults, fun hkind => ?_, hafter⟩
  simp only [hkind]
  exact hcount

variable {ε : Type} [EraRecorder ε]

/-- Over such a client only the recorder can fail a batch that has the right size, and the results
do not show how the batch was divided into groups and chunks. -/
theorem settleBatch_eq (h : AnswersBy f client) {policy : BatchPolicy} {batch : Batch}
    (hsize : policy.checkSize batch.size = .ok ()) (era : ε) :
    ∃ report after, report.results = batch.operations.map f ∧
      settleBatch policy batch client era =
        match recordWeak era ((policy.weak batch.operations).countP f) with
        | .error e => (.error e, after, era)
        | .ok recorded => (.ok report, after, recorded) := by
  obtain ⟨strong, next, hstrong, hstrongResults, -, hnext⟩ := h.settle_group_eq
    (classify policy.eraPathEnabled batch.operations).strong policy.chunkingEnabled
  obtain ⟨weak, after, hweak, hweakResults, hcount, -⟩ := hnext.settle_group_eq
    (classify policy.eraPathEnabled batch.operations).weak policy.chunkingEnabled
  rw [Partition.strong_operations] at hstrongResults
  rw [Partition.weak_operations] at hweakResults hcount
  have hweakLength : weak.report.results.length = (policy.weak batch.operations).length := by
    rw [hweakResults, List.length_map]
  have hstrongLength : strong.report.results.length = (policy.strong batch.operations).length := by
    rw [hstrongResults, List.length_map]
  obtain ⟨results, hreassemble, hresults⟩ :=
    Partition.exists_reassemble policy batch.operations hweakLength hstrongLength
  rw [hweakResults, hstrongResults] at hresults
  refine ⟨reportOf policy batch (classify policy.eraPathEnabled batch.operations) strong weak
    results, after, hresults.eq_map, ?_⟩
  unfold settleBatch
  simp only [hsize, hstrong, hweak, hreassemble, hcount rfl, Result.ok_bind]
  cases recordWeak era ((policy.weak batch.operations).countP f) with
  | error e => rfl
  | ok recorded => rfl

end AnswersBy

end Client

namespace ScriptedClient

theorem answersBy (s : ClientScript) (hfailing : s.failing = []) (hfrom : s.failingFrom = none)
    (hsurplus : s.surplus = []) (log : List (List SignedOperation)) :
    AnswersBy (accepts s) (⟨s, log⟩ : ScriptedClient) := by
  have hsettle : ∀ log operations, SettlementClient.settle (⟨s, log⟩ : ScriptedClient) operations =
      (.ok (operations.map (accepts s)), ⟨s, operations :: log⟩) := by
    intro log operations
    simp [SettlementClient.settle, hfailing, hfrom, hsurplus]
  intro calls operations
  induction calls generalizing log with
  | nil => exact congrArg Prod.fst (hsettle log operations)
  | cons call calls ih =>
    have hnext : clientAfter (⟨s, log⟩ : ScriptedClient) (call :: calls) =
        clientAfter (⟨s, call :: log⟩ : ScriptedClient) calls := by
      unfold clientAfter
      rw [List.foldl_cons, hsettle]
    rw [hnext]
    exact ih (call :: log)

end ScriptedClient

end Settlement
