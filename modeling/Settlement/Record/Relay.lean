import Settlement.Record.Value
import Settlement.Relay.Metrics

namespace Settlement

instance : OfJson Operation where
  ofJson? json := do
    let f ← Fields.ofJson? ["id", "from", "to", "amount", "period_bound", "nonce",
      "submitted_at"] json
    return { id := ← f.required "id"
             payer := ← f.required "from"
             payee := ← f.required "to"
             amount := ← f.required "amount"
             periodBound := ← f.required "period_bound"
             nonce := ← f.required "nonce"
             submittedAt := ← f.required "submitted_at" }

instance : ToJson Operation where
  toJson op := .ofMembers
    [("id", toJson op.id),
      ("from", toJson op.payer),
      ("to", toJson op.payee),
      ("amount", toJson op.amount),
      ("period_bound", toJson op.periodBound),
      ("nonce", toJson op.nonce),
      ("submitted_at", toJson op.submittedAt)]

instance : OfJson SignedOperation where
  ofJson? json := do
    let f ← Fields.ofJson? ["operation", "signature"] json
    return { operation := ← f.required "operation"
             signature := ← f.required "signature" }

instance : ToJson SignedOperation where
  toJson op := .ofMembers
    [("operation", toJson op.operation), ("signature", toJson op.signature)]

instance : OfJson RelayMetrics where
  ofJson? json := do
    let f ← Fields.ofJson? ["total_batches", "total_operations", "total_rejected",
      "failed_batches", "total_cost_saved", "total_era_operations", "avg_batch_size",
      "avg_savings_percent"] json
    return { totalBatches := ← f.required "total_batches"
             totalOperations := ← f.required "total_operations"
             totalRejected := ← f.required "total_rejected"
             failedBatches := ← f.required "failed_batches"
             totalCostSaved := ← f.required "total_cost_saved"
             totalEraOperations := ← f.required "total_era_operations"
             avgBatchSize := ← f.required "avg_batch_size"
             avgSavingsPercent := ← f.required "avg_savings_percent" }

instance : ToJson RelayMetrics where
  toJson m := .ofMembers
    [("total_batches", toJson m.totalBatches),
      ("total_operations", toJson m.totalOperations),
      ("total_rejected", toJson m.totalRejected),
      ("failed_batches", toJson m.failedBatches),
      ("total_cost_saved", toJson m.totalCostSaved),
      ("total_era_operations", toJson m.totalEraOperations),
      ("avg_batch_size", toJson m.avgBatchSize),
      ("avg_savings_percent", toJson m.avgSavingsPercent)]

end Settlement
