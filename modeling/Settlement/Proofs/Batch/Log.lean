import Settlement.Batch.Report

namespace Settlement

/-- A call of a client: the operations that it was asked to settle, and its answer. -/
structure SettleCall where
  operations : List SignedOperation
  answer : Result (List Bool)

namespace SettleCall

/-- The flags that were answered. A call that failed counts as one that was answered without
flags. -/
def flags (call : SettleCall) : List Bool := call.answer.toOption.getD []

/-- The operations that were sent with the flags that were answered for them, position by
position. -/
def outcomes (call : SettleCall) : List (SignedOperation × Bool) := call.operations.zip call.flags

end SettleCall

/-- A client with all calls of it, in order, written down by the client itself. So what can be said
about calls needs no second form of the settlement. -/
structure LoggedClient (σ : Type) where
  client : σ
  calls : List SettleCall := []

variable {σ ε : Type} [SettlementClient σ] [EraRecorder ε]

/-- The client inside answers, and then the call is written down. -/
instance : SettlementClient (LoggedClient σ) where
  settle c operations :=
    let (answer, client) := SettlementClient.settle c.client operations
    (answer, ⟨client, c.calls ++ [⟨operations, answer⟩]⟩)

theorem settle_logged (c : LoggedClient σ) (operations : List SignedOperation) :
    SettlementClient.settle c operations =
      ((SettlementClient.settle c.client operations).1,
        ⟨(SettlementClient.settle c.client operations).2,
          c.calls ++ [⟨operations, (SettlementClient.settle c.client operations).1⟩]⟩) := rfl

/-- A chunk takes the same course as over the client inside, since nothing depends on a client other
than through its answers. -/
private theorem settleChunk_client (c : LoggedClient σ) (start : Nat)
    (chunk : List SignedOperation) :
    settleChunk c.client start chunk =
      ((settleChunk c start chunk).1, (settleChunk c start chunk).2.client) := by
  unfold settleChunk
  rw [settle_logged]
  obtain ⟨answer, client⟩ := SettlementClient.settle c.client chunk
  cases answer with
  | error e => rfl
  | ok results =>
    simp only
    split <;> rfl

/-- Keeping a log changes nothing about a settlement chunk by chunk, by induction on the operations
that are left. -/
private theorem settleFrom_client (c : LoggedClient σ) (window start : Nat) (report : ChunkReport)
    (operations : List SignedOperation) :
    settleFrom c.client window start report operations =
      ((settleFrom c window start report operations).1,
        (settleFrom c window start report operations).2.client) := by
  fun_induction settleFrom c window start report operations with
  | case1 => rw [settleFrom]
  | case2 c start report op rest chunk e c' h =>
    rw [settleFrom, settleChunk_client, h]
  | case3 c start report op rest chunk results c' h report' ih =>
    rw [settleFrom, settleChunk_client, h]
    exact ih

/-- Keeping a log changes nothing about a settlement as a whole, with chunks or in one piece. -/
theorem settleChunked_client (chunking : Bool) (c : LoggedClient σ)
    (operations : List SignedOperation) :
    settleChunked chunking c.client operations =
      ((settleChunked chunking c operations).1, (settleChunked chunking c operations).2.client) :=
  settleFrom_client ..

theorem OperationGroup.settle_client (g : OperationGroup) (chunking : Bool) (c : LoggedClient σ) :
    g.settle chunking c.client = ((g.settle chunking c).1, (g.settle chunking c).2.client) := by
  unfold OperationGroup.settle
  rw [settleChunked_client]
  obtain ⟨answer, c'⟩ := settleChunked chunking c g.operations
  cases answer with
  | error e => rfl
  | ok report => rfl

theorem settleBatch_client (policy : BatchPolicy) (batch : Batch) (c : LoggedClient σ) (era : ε) :
    settleBatch policy batch c.client era =
      ((settleBatch policy batch c era).1, (settleBatch policy batch c era).2.1.client,
        (settleBatch policy batch c era).2.2) := by
  unfold settleBatch
  cases policy.checkSize batch.size with
  | error e => rfl
  | ok _ =>
    simp only [OperationGroup.settle_client]
    obtain ⟨strong, c'⟩ :=
      (classify policy.eraPathEnabled batch.operations).strong.settle policy.chunkingEnabled c
    cases strong with
    | error e => rfl
    | ok strong =>
      simp only [OperationGroup.settle_client]
      obtain ⟨weak, c''⟩ :=
        (classify policy.eraPathEnabled batch.operations).weak.settle policy.chunkingEnabled c'
      cases weak with
      | error e => rfl
      | ok weak =>
        simp only
        split <;> rfl

/-- The calls by which a batch is settled, or is tried to be. -/
def settleCalls (policy : BatchPolicy) (batch : Batch) (client : σ) (era : ε) : List SettleCall :=
  (settleBatch policy batch (⟨client, []⟩ : LoggedClient σ) era).2.1.calls

end Settlement
