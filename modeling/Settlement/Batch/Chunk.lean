import Settlement.Number.SquareRoot
import Settlement.Operation

namespace Settlement

attribute [local instance (high)] instPowNat

/-- What settles operations: one flag for each of them, or a failure of the whole call. Every call
gives the state after it, also when it fails, since what a client did before it failed is done. -/
class SettlementClient (σ : Type) where
  settle : σ → List SignedOperation → Result (List Bool) × σ

/-- The length of the chunks for `n` operations: the square root of `n` times its logarithm, both
rounded down. It is held at the largest count, and one operation is a chunk by itself. -/
def chunkSize (n : Nat) : Nat := if n ≤ 1 then n else min (isqrt n * n.log2) (2 ^ (64 : Nat) - 1)

/-- The length of the chunks, which is everything unless chunking is on. -/
def windowFor (chunking : Bool) (n : Nat) : Nat := if chunking then chunkSize n else n

/-- A group with operations has chunks with operations, so that a settlement chunk by chunk comes to
an end. -/
theorem chunkSize_pos {n : Nat} (hn : 0 < n) : 0 < chunkSize n := by
  unfold chunkSize
  split
  · exact hn
  · next hlarge =>
    have hroot := isqrt_pos hn
    have hlog : 0 < n.log2 := by
      rw [Nat.log2_def, if_pos (by omega)]
      omega
    have hproduct : 0 < isqrt n * n.log2 := Nat.mul_pos hroot hlog
    omega

theorem windowFor_pos (chunking : Bool) {n : Nat} (hn : 0 < n) : 0 < windowFor chunking n := by
  unfold windowFor
  split
  · exact chunkSize_pos hn
  · exact hn

/-- What became of a settlement that went through, in all its calls together. -/
structure ChunkReport where
  /-- One flag for each operation, in order. -/
  results : List Bool
  chunkSize : Nat
  calls : Nat
  /-- The length of the longest call. -/
  maxCallLength : Nat
deriving DecidableEq

def ChunkReport.succeeded (r : ChunkReport) : Nat := r.results.count true

/-- Settles one chunk that begins at position `start`. An answer of another length than the chunk is
as bad as a failure, and both are reported with the positions that the chunk has in its group. -/
def settleChunk {σ : Type} [SettlementClient σ] (client : σ) (start : Nat)
    (chunk : List SignedOperation) : Result (List Bool) × σ :=
  let stop := start + chunk.length
  match SettlementClient.settle client chunk with
  | (.error e, client) => (.error (.settlementFailed start stop e.message), client)
  | (.ok results, client) =>
    if results.length = chunk.length then (.ok results, client)
    else (.error (.settlementResultMismatch chunk.length results.length), client)

/-- Settles operations from position `start` on, chunk by chunk, and adds to what was settled
before. When a call fails the whole settlement fails, and nothing more is sent. -/
def settleFrom {σ : Type} [SettlementClient σ] (client : σ) (window start : Nat)
    (report : ChunkReport) (operations : List SignedOperation) : Result ChunkReport × σ :=
  match operations with
  | [] => (.ok report, client)
  | op :: rest =>
    let chunk := op :: rest.take (window - 1)
    match settleChunk client start chunk with
    | (.error e, client) => (.error e, client)
    | (.ok results, client) =>
      let report :=
        { report with
          results := report.results ++ results
          calls := report.calls + 1
          maxCallLength := max report.maxCallLength chunk.length }
      settleFrom client window (start + chunk.length) report (rest.drop (window - 1))
termination_by operations.length
decreasing_by simp only [List.length_cons, List.length_drop]; omega

/-- Settles operations in chunks, all of the length that the number of the operations gives. -/
def settleChunked {σ : Type} [SettlementClient σ] (chunking : Bool) (client : σ)
    (operations : List SignedOperation) : Result ChunkReport × σ :=
  let window := windowFor chunking operations.length
  settleFrom client window 0 ⟨[], window, 0, 0⟩ operations

end Settlement
