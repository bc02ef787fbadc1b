import Settlement.Batch.Settler
import Settlement.Proofs.Batch.Log

namespace Settlement

theorem splice_append {α : Type} (done rest others : List α) :
    splice (done ++ rest) done.length others = done ++ others ++ rest.drop others.length := by
  rw [splice, List.take_left, List.drop_length_add_append]

variable {σ : Type} [SettlementClient σ]

theorem length_of_settleChunk {client next : σ} {start : Nat} {chunk : List SignedOperation}
    {results : List Bool} (h : settleChunk client start chunk = (.ok results, next)) :
    results.length = chunk.length := by
  unfold settleChunk at h
  split at h
  · cases h
  · split at h
    · next hlength =>
      cases h
      exact hlength
    · cases h

theorem settleFrom_step (client : σ) {window : Nat} (hwindow : 0 < window) (start : Nat)
    (report : ChunkReport) {operations : List SignedOperation} (hne : operations ≠ []) :
    settleFrom client window start report operations =
      match settleChunk client start (operations.take window) with
      | (.error e, client) => (.error e, client)
      | (.ok results, client) =>
        settleFrom client window (start + (operations.take window).length)
          { report with
            results := report.results ++ results
            calls := report.calls + 1
            maxCallLength := max report.maxCallLength (operations.take window).length }
          (operations.drop window) := by
  cases operations with
  | nil => exact absurd rfl hne
  | cons op rest =>
    obtain ⟨k, rfl⟩ := Nat.exists_eq_add_one.2 hwindow
    rw [settleFrom]
    rfl

namespace ChunkedSettler

section window

variable (operations : List SignedOperation) (window start : Nat)

/-- What is put into the buffer is the next window of the operations that are left. -/
theorem chunk_eq : (operations.take (min (start + window) operations.length)).drop start =
    (operations.drop start).take window := by
  rw [List.drop_take, List.take_eq_take_iff, List.length_drop]
  omega

theorem length_chunk : ((operations.drop start).take window).length =
    min (start + window) operations.length - start := by
  rw [List.length_take, List.length_drop]
  omega

theorem drop_chunk : operations.drop (min (start + window) operations.length) =
    (operations.drop start).drop window := by
  rw [List.drop_drop]
  by_cases hfull : start + window ≤ operations.length
  · rw [Nat.min_eq_left hfull]
  · rw [Nat.min_eq_right (by omega), List.drop_length, List.drop_eq_nil_of_le (by omega)]

end window

/-- One step of the settler sends the same window, and writes the results where it stood. -/
theorem settleFrom_step (s : ChunkedSettler) (client : σ) {operations : List SignedOperation}
    {window : Nat} (hwindow : 0 < window) {start : Nat} (hlt : start < operations.length)
    (report : ChunkReport) :
    s.settleFrom client operations window hwindow start report =
      let chunk := (operations.drop start).take window
      match settleChunk client start chunk with
      | (.error e, client) => (.error e, s.cleared, client)
      | (.ok results, client) =>
        settleFrom { s with buffer := chunk } client operations window hwindow
          (start + chunk.length)
          { report with
            results := splice report.results start results
            calls := report.calls + 1
            maxCallLength := max report.maxCallLength chunk.length } := by
  have hstop : start + (min (start + window) operations.length - start) =
      min (start + window) operations.length := by omega
  rw [settleFrom, if_pos hlt]
  simp only [settleChunk, chunk_eq, length_chunk, hstop]
  obtain ⟨answer, next⟩ :=
    SettlementClient.settle client ((operations.drop start).take window)
  cases answer with
  | error e => rfl
  | ok results =>
    by_cases hlength : results.length = min (start + window) operations.length - start
    · simp only [if_pos hlength]
    · simp only [if_neg hlength]
      rfl

/-- From any position on, the settler does what the settlement in chunks does with the operations
that are left: what is written over the prepared results chunk by chunk is what is appended to the
results so far. Its results are those so far, followed by what is still to be written over. -/
theorem settleFrom_eq (s : ChunkedSettler) (client : σ) {operations : List SignedOperation}
    {window : Nat} (hwindow : 0 < window) {start : Nat} (hstart : start ≤ operations.length)
    (report : ChunkReport) {done : List Bool} (hdone : done.length = start)
    (hresults : report.results = done ++ List.replicate (operations.length - start) false) :
    s.settleFrom client operations window hwindow start report =
      let settled := Settlement.settleFrom client window start { report with results := done }
        (operations.drop start)
      (settled.1, s.cleared, settled.2) := by
  induction hleft : operations.length - start using Nat.strongRecOn
    generalizing s client start report done with
  | ind left ih =>
    by_cases hlt : start < operations.length
    · have hne : operations.drop start ≠ [] :=
        fun hnil => Nat.not_le_of_lt hlt (List.drop_eq_nil_iff.1 hnil)
      rw [settleFrom_step s client hwindow hlt, Settlement.settleFrom_step client hwindow start _ hne]
      have hrest := drop_chunk operations window start
      have hchunk := length_chunk operations window start
      generalize (operations.drop start).take window = chunk at hchunk ⊢
      simp only
      cases hanswer : settleChunk client start chunk with
      | mk answer next =>
        cases answer with
        | error e => rfl
        | ok results =>
          have hlength : results.length = chunk.length := length_of_settleChunk hanswer
          have hstop : start + chunk.length = min (start + window) operations.length := by omega
          have hover : splice report.results start results = (done ++ results) ++
              List.replicate (operations.length - (start + chunk.length)) false := by
            have hsplice :=
              splice_append done (List.replicate (operations.length - start) false) results
            rw [hdone, List.drop_replicate, hlength, Nat.sub_sub] at hsplice
            rw [hresults, hsplice]
          have hdone' : (done ++ results).length = start + chunk.length := by
            rw [List.length_append, hdone, hlength]
          simp only
          rw [ih _ (by omega) _ next (by omega) _ hdone' hover rfl, hstop, hrest]
          rfl
    · have hend : operations.length - start = 0 := by omega
      rw [hend, List.replicate_zero, List.append_nil] at hresults
      rw [settleFrom, if_neg hlt, List.drop_eq_nil_of_le (Nat.le_of_not_lt hlt),
        Settlement.settleFrom, ← hresults]

/-- The settler settles like the settlement in chunks, whatever it settled before, and its buffer is
empty afterwards. It does not touch the buffer if there is nothing to settle. -/
theorem settle_eq (s : ChunkedSettler) (client : σ) (operations : List SignedOperation) :
    s.settle client operations =
      let settled := settleChunked s.chunking client operations
      (settled.1, if operations = [] then s else s.cleared, settled.2) := by
  cases operations with
  | nil =>
    unfold settle settleChunked
    rw [Settlement.settleFrom]
    rfl
  | cons op rest =>
    have hsome : 0 < (op :: rest).length := Nat.succ_pos _
    unfold settle
    simp only
    have hnone : ([] : List Bool).length = 0 := rfl
    rw [dif_pos hsome, settleFrom_eq s client _ (Nat.zero_le _) _ hnone rfl]
    rfl

end ChunkedSettler

end Settlement
