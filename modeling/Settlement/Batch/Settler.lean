import Settlement.Batch.Chunk

namespace Settlement

/-- The items with those from position `start` on replaced by others, one by one. -/
def splice {α : Type} (items : List α) (start : Nat) (others : List α) : List α :=
  items.take start ++ others ++ items.drop (start + others.length)

/-- What settles one group of operations after another, with one buffer that it uses again for every
chunk of every group. -/
structure ChunkedSettler where
  chunking : Bool := true
  /-- The chunk that is out. -/
  buffer : List SignedOperation := []
deriving DecidableEq

namespace ChunkedSettler

/-- The settler with nothing in its buffer, as it stands between two groups. -/
def cleared (s : ChunkedSettler) : ChunkedSettler := { s with buffer := [] }

/-- Settles the operations from position `start` on and writes their results over those of the
report, which has its full length from the start. There is an end to it because the window is not
zero. -/
def settleFrom {σ : Type} [SettlementClient σ] (s : ChunkedSettler) (client : σ)
    (operations : List SignedOperation) (window : Nat) (hwindow : 0 < window) (start : Nat)
    (report : ChunkReport) : Result ChunkReport × ChunkedSettler × σ :=
  if start < operations.length then
    let stop := min (start + window) operations.length
    let s := { s with buffer := (operations.take stop).drop start }
    match SettlementClient.settle client s.buffer with
    | (.error e, client) => (.error (.settlementFailed start stop e.message), s.cleared, client)
    | (.ok results, client) =>
      if results.length = stop - start then
        let report :=
          { report with
            results := splice report.results start results
            calls := report.calls + 1
            maxCallLength := max report.maxCallLength (stop - start) }
        settleFrom s client operations window hwindow stop report
      else
        (.error (.settlementResultMismatch (stop - start) results.length), s.cleared, client)
  else (.ok report, s.cleared, client)
termination_by operations.length - start

/-- Settles a group of operations. An empty group takes no call. -/
def settle {σ : Type} [SettlementClient σ] (s : ChunkedSettler) (client : σ)
    (operations : List SignedOperation) : Result ChunkReport × ChunkedSettler × σ :=
  let window := windowFor s.chunking operations.length
  let report : ChunkReport := ⟨List.replicate operations.length false, window, 0, 0⟩
  if hsome : 0 < operations.length then
    s.settleFrom client operations window (windowFor_pos s.chunking hsome) 0 report
  else (.ok report, s, client)

end ChunkedSettler

end Settlement
