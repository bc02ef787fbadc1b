import Settlement.Policy
import Settlement.Record.Value

namespace Settlement

/-- The word for a curve in JSON. -/
def FeeCurve.name : FeeCurve → String
  | .growth => "Growth"
  | .decay => "Decay"

instance : OfJson FeeCurve := ⟨ofName? FeeCurve.name [.growth, .decay]⟩
instance : ToJson FeeCurve := ⟨fun c => .ofText c.name⟩

instance : OfJson FeeSchedule where
  ofJson? json := do
    let f ← Fields.ofJson? ["base_fee", "rate", "curve"] json
    return { baseFee := ← f.required "base_fee"
             rate := ← f.required "rate"
             curve := ← f.required "curve" }

instance : ToJson FeeSchedule where
  toJson s := .ofMembers
    [("base_fee", toJson s.baseFee), ("rate", toJson s.rate), ("curve", toJson s.curve)]

/-- The word for an overdue policy in JSON. -/
def OverduePolicy.name : OverduePolicy → String
  | .warn => "Warn"
  | .block => "Block"

instance : OfJson OverduePolicy := ⟨ofName? OverduePolicy.name [.warn, .block]⟩
instance : ToJson OverduePolicy := ⟨fun p => .ofText p.name⟩

/-- The terms of the periods. All fields have to be there; what has defaults in its type has none in
JSON. -/
instance : OfJson EraPolicy where
  ofJson? json := do
    let f ← Fields.ofJson? ["min_period_duration", "max_period_duration", "max_period",
      "overdue_policy", "fee_schedule"] json
    return { minPeriodDuration := ← f.required "min_period_duration"
             maxPeriodDuration := ← f.required "max_period_duration"
             maxPeriod := ← f.required "max_period"
             overduePolicy := ← f.required "overdue_policy"
             feeSchedule := ← f.required "fee_schedule" }

instance : ToJson EraPolicy where
  toJson p := .ofMembers
    [("min_period_duration", toJson p.minPeriodDuration),
      ("max_period_duration", toJson p.maxPeriodDuration),
      ("max_period", toJson p.maxPeriod),
      ("overdue_policy", toJson p.overduePolicy),
      ("fee_schedule", toJson p.feeSchedule)]

instance : OfJson ClaimPolicy where
  ofJson? json := do
    let f ← Fields.ofJson? ["claim_delay", "claim_window", "sweep_delay", "min_deposit_interval",
      "max_deposit_per_period", "min_claim_amount", "max_proof_len", "max_claim_batch",
      "max_slippage_bps"] json
    return { claimDelay := ← f.required "claim_delay"
             claimWindow := ← f.required "claim_window"
             sweepDelay := ← f.required "sweep_delay"
             minDepositInterval := ← f.required "min_deposit_interval"
             maxDepositPerPeriod := ← f.required "max_deposit_per_period"
             minClaimAmount := ← f.required "min_claim_amount"
             maxProofLength := ← f.required "max_proof_len"
             maxClaimBatch := ← f.required "max_claim_batch"
             maxSlippageBps := ← f.required "max_slippage_bps" }

instance : ToJson ClaimPolicy where
  toJson p := .ofMembers
    [("claim_delay", toJson p.claimDelay),
      ("claim_window", toJson p.claimWindow),
      ("sweep_delay", toJson p.sweepDelay),
      ("min_deposit_interval", toJson p.minDepositInterval),
      ("max_deposit_per_period", toJson p.maxDepositPerPeriod),
      ("min_claim_amount", toJson p.minClaimAmount),
      ("max_proof_len", toJson p.maxProofLength),
      ("max_claim_batch", toJson p.maxClaimBatch),
      ("max_slippage_bps", toJson p.maxSlippageBps)]

instance : OfJson RecoveryPolicy where
  ofJson? json := do
    let f ← Fields.ofJson? ["objection_window", "resolution_delay", "dispute_cooldown",
      "max_strikes", "strike_reset_delay", "liveness_window"] json
    return { objectionWindow := ← f.required "objection_window"
             resolutionDelay := ← f.required "resolution_delay"
             disputeCooldown := ← f.required "dispute_cooldown"
             maxStrikes := ← f.required "max_strikes"
             strikeResetDelay := ← f.required "strike_reset_delay"
             livenessWindow := ← f.required "liveness_window" }

instance : ToJson RecoveryPolicy where
  toJson p := .ofMembers
    [("objection_window", toJson p.objectionWindow),
      ("resolution_delay", toJson p.resolutionDelay),
      ("dispute_cooldown", toJson p.disputeCooldown),
      ("max_strikes", toJson p.maxStrikes),
      ("strike_reset_delay", toJson p.strikeResetDelay),
      ("liveness_window", toJson p.livenessWindow)]

instance : OfJson Domain where
  ofJson? json := do
    let f ← Fields.ofJson? ["chain_id", "contract", "version"] json
    return { chainId := ← f.required "chain_id"
             contract := ← f.required "contract"
             version := ← f.required "version" }

instance : ToJson Domain where
  toJson d := .ofMembers
    [("chain_id", toJson d.chainId),
      ("contract", toJson d.contract),
      ("version", toJson d.version)]

instance : OfJson ProtocolPolicy where
  ofJson? json := do
    let f ← Fields.ofJson? ["era", "claims", "recovery", "domain"] json
    return { era := ← f.required "era"
             claims := ← f.required "claims"
             recovery := ← f.required "recovery"
             domain := ← f.required "domain" }

instance : ToJson ProtocolPolicy where
  toJson p := .ofMembers
    [("era", toJson p.era),
      ("claims", toJson p.claims),
      ("recovery", toJson p.recovery),
      ("domain", toJson p.domain)]

/-- The prices may leave out fields, which then have their default. -/
instance : OfJson CostModel where
  ofJson? json := do
    let f ← Fields.ofJson? ["naive_per_op", "batched_per_op", "per_settle_call",
      "per_participant_update", "per_era_update", "per_calldata_byte", "per_blob_byte",
      "blob_verification"] json
    let m : CostModel := {}
    return { naivePerOperation := ← f.orDefault "naive_per_op" m.naivePerOperation
             batchedPerOperation := ← f.orDefault "batched_per_op" m.batchedPerOperation
             perSettleCall := ← f.orDefault "per_settle_call" m.perSettleCall
             perParticipantUpdate := ← f.orDefault "per_participant_update" m.perParticipantUpdate
             perEraUpdate := ← f.orDefault "per_era_update" m.perEraUpdate
             perCalldataByte := ← f.orDefault "per_calldata_byte" m.perCalldataByte
             perBlobByte := ← f.orDefault "per_blob_byte" m.perBlobByte
             blobVerification := ← f.orDefault "blob_verification" m.blobVerification }

instance : ToJson CostModel where
  toJson m := .ofMembers
    [("naive_per_op", toJson m.naivePerOperation),
      ("batched_per_op", toJson m.batchedPerOperation),
      ("per_settle_call", toJson m.perSettleCall),
      ("per_participant_update", toJson m.perParticipantUpdate),
      ("per_era_update", toJson m.perEraUpdate),
      ("per_calldata_byte", toJson m.perCalldataByte),
      ("per_blob_byte", toJson m.perBlobByte),
      ("blob_verification", toJson m.blobVerification)]

instance : OfJson BatchPolicy where
  ofJson? json := do
    let f ← Fields.ofJson? ["min_batch_size", "max_batch_size", "era_path_enabled",
      "chunking_enabled", "cost_model"] json
    return { minBatchSize := ← f.required "min_batch_size"
             maxBatchSize := ← f.required "max_batch_size"
             eraPathEnabled := ← f.required "era_path_enabled"
             chunkingEnabled := ← f.required "chunking_enabled"
             costModel := ← f.required "cost_model" }

instance : ToJson BatchPolicy where
  toJson p := .ofMembers
    [("min_batch_size", toJson p.minBatchSize),
      ("max_batch_size", toJson p.maxBatchSize),
      ("era_path_enabled", toJson p.eraPathEnabled),
      ("chunking_enabled", toJson p.chunkingEnabled),
      ("cost_model", toJson p.costModel)]

def QueueOrder.name : QueueOrder → String
  | .fifo => "fifo"
  | .priority => "priority"

instance : OfJson QueueOrder := ⟨ofName? QueueOrder.name [.fifo, .priority]⟩
instance : ToJson QueueOrder := ⟨fun o => .ofText o.name⟩

instance : OfJson RelayPolicy where
  ofJson? json := do
    let f ← Fields.ofJson? ["optimizer", "batch_interval_ms", "max_pending", "ordering"] json
    let p : RelayPolicy := {}
    return { batching := ← f.orDefault "optimizer" p.batching
             batchIntervalMillis := ← f.orDefault "batch_interval_ms" p.batchIntervalMillis
             maxPending := ← f.orDefault "max_pending" p.maxPending
             ordering := ← f.orDefault "ordering" p.ordering }

instance : ToJson RelayPolicy where
  toJson p := .ofMembers
    [("optimizer", toJson p.batching),
      ("batch_interval_ms", toJson p.batchIntervalMillis),
      ("max_pending", toJson p.maxPending),
      ("ordering", toJson p.ordering)]

/-- The policy of the relay from the text of its file, if there is one. -/
def RelayPolicy.load (text? : Option String) : Result RelayPolicy := do
  let text ← orRefuse (.io "no such file") text?
  let policy : RelayPolicy ← orRefuse (.serialization "not a policy of the relay") (ofJsonText? text)
  policy.validate
  return policy

end Settlement
