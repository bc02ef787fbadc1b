import Settlement.Fee

namespace Settlement

/-- What happens to a period that is closed later than its maximum duration. -/
inductive OverduePolicy
  /-- It is closed and marked as overdue. -/
  | warn
  /-- It cannot be closed any more. -/
  | block
deriving DecidableEq

/-- How long periods last and what their operations cost. A period is not closed before its minimum
duration, and what happens after its maximum is for the overdue policy to say. -/
structure EraPolicy where
  minPeriodDuration : Span := .ofSeconds 3600
  maxPeriodDuration : Span := .ofSeconds 604800
  /-- The number of the last period. -/
  maxPeriod : Count := 1000000
  overduePolicy : OverduePolicy := .warn
  feeSchedule : FeeSchedule := {}
deriving DecidableEq

/-- The whole, when one hundredth of a percent is counted as one. -/
def bpsDenominator : Nat := 10000

/-- Limits on deposits and claims: when claims open and close, how much may be deposited and how
often, and how large, how many and how lossy claims may be. -/
structure ClaimPolicy where
  /-- From the posting of a root to the first claim against it. -/
  claimDelay : Span := .ofSeconds 86400
  /-- From the first posting of a root to the last claim of the period. -/
  claimWindow : Span := .ofSeconds 7776000
  /-- From the last claim to the sweep of what is left. -/
  sweepDelay : Span := .ofSeconds 2592000
  minDepositInterval : Span := .ofSeconds 300
  maxDepositPerPeriod : Amount := 1000000000000000000000000
  minClaimAmount : Amount := 10
  maxProofLength : Count := 32
  maxClaimBatch : Count := 50
  maxSlippageBps : Word 32 := 100
deriving DecidableEq

/-- Time limits of disputes, strikes and the recovery of a lost authority. They bind the guardian as
well as the authority. -/
structure RecoveryPolicy where
  /-- From the posting of a root to the last dispute of it. -/
  objectionWindow : Span := .ofSeconds 86400
  /-- From a dispute to the earliest replacement of the root. -/
  resolutionDelay : Span := .ofSeconds 43200
  /-- Between two disputes by one guardian. -/
  disputeCooldown : Span := .ofSeconds 3600
  /-- The number of strikes that revokes the authority. -/
  maxStrikes : Word 32 := 3
  strikeResetDelay : Span := .ofSeconds 172800
  /-- The silence of the authority after which it may be replaced. -/
  livenessWindow : Span := .ofSeconds 2592000
deriving DecidableEq

/-- What every claim is bound to. The digest of a claim holds it, so that a proof serves in one
deployment only. -/
structure Domain where
  chainId : Count := 1
  contract : Address := .zero
  version : Word 16 := 2
deriving DecidableEq

/-- Everything that a ledger is set up with. Only the schedule of fees changes later on. -/
structure ProtocolPolicy where
  era : EraPolicy := {}
  claims : ClaimPolicy := {}
  recovery : RecoveryPolicy := {}
  domain : Domain := {}
deriving DecidableEq

/-- The prices from which savings are reported. They decide nothing but what the reports on batches
say. -/
structure CostModel where
  /-- One operation settled on its own. -/
  naivePerOperation : Count := 100000
  /-- One operation within a settlement call. -/
  batchedPerOperation : Count := 14000
  perSettleCall : Count := 21000
  perParticipantUpdate : Count := 140000
  perEraUpdate : Count := 5000
  perCalldataByte : Count := 16
  perBlobByte : Count := 2
  blobVerification : Count := 100000
deriving DecidableEq

/-- No batch is larger than this under any policy, whatever its maximum says. -/
def batchSizeLimit : Nat := 10000

/-- How batches are formed and settled: their sizes, and whether the weak operations only count and
large groups are settled in parts. -/
structure BatchPolicy where
  minBatchSize : Count := 10
  maxBatchSize : Count := 1000
  /-- Whether weak operations only count towards the era. -/
  eraPathEnabled : Bool := true
  /-- Whether a group is settled in several calls. -/
  chunkingEnabled : Bool := true
  costModel : CostModel := {}
deriving DecidableEq

/-- Which of the pending operations go first when a batch is taken. -/
inductive QueueOrder
  /-- Those that arrived first. -/
  | fifo
  /-- Those with the highest score. -/
  | priority
deriving DecidableEq

/-- How the relay collects operations into batches: how many may wait, which go first, and how often
a batch is sealed. -/
structure RelayPolicy where
  batching : BatchPolicy := {}
  batchIntervalMillis : Count := 5000
  maxPending : Count := 100000
  ordering : QueueOrder := .fifo
deriving DecidableEq

/-- The refusal of a policy that does not fit together, with the reason in words. -/
def Error.policy (reason : String) : Error := .configuration reason

namespace EraPolicy

instance : Inhabited EraPolicy := ⟨{}⟩

/-- Periods have a positive minimum duration, which is not above the maximum, and there is a period
to close; the schedule of fees is checked with them. -/
def validate (p : EraPolicy) : Result Unit := do
  require (¬ p.minPeriodDuration.isZero) (.policy "min_period_duration must be positive")
  require (p.minPeriodDuration ≤ p.maxPeriodDuration)
    (.policy "max_period_duration must be >= min_period_duration")
  require (p.maxPeriod ≠ 0) (.policy "max_period must be positive")
  p.feeSchedule.validate

end EraPolicy

namespace ClaimPolicy

instance : Inhabited ClaimPolicy := ⟨{}⟩

/-- Claims can be made at all: they open before they close, something can be deposited, proofs and
batches may hold something, and no more than everything may be lost. -/
def validate (p : ClaimPolicy) : Result Unit := do
  require (p.claimDelay < p.claimWindow) (.policy "claim_window must exceed claim_delay")
  require (p.maxDepositPerPeriod ≠ 0) (.policy "max_deposit_per_period must be positive")
  require (p.maxProofLength ≠ 0 ∧ p.maxClaimBatch ≠ 0)
    (.policy "max_proof_len and max_claim_batch must be positive")
  require (p.maxSlippageBps.val ≤ bpsDenominator)
    (.policy s!"max_slippage_bps {p.maxSlippageBps.val} exceeds {bpsDenominator}")

end ClaimPolicy

namespace RecoveryPolicy

instance : Inhabited RecoveryPolicy := ⟨{}⟩

/-- At least one strike is needed to revoke, and the windows for objections and for silence are not
empty. The delays may be. -/
def validate (p : RecoveryPolicy) : Result Unit := do
  require (p.maxStrikes ≠ 0) (.policy "max_strikes must be at least 1")
  require (¬ p.objectionWindow.isZero ∧ ¬ p.livenessWindow.isZero)
    (.policy "objection_window and liveness_window must be positive")

end RecoveryPolicy

namespace Domain

instance : Inhabited Domain := ⟨{}⟩

/-- Chain zero is no deployment. -/
def validate (d : Domain) : Result Unit :=
  require (d.chainId ≠ 0) (.policy "chain_id must be positive")

end Domain

namespace ProtocolPolicy

instance : Inhabited ProtocolPolicy := ⟨{}⟩

/-- All parts are in order, in the order in which they stand. The one condition across them is that
claims open no earlier than objections close. -/
def validate (p : ProtocolPolicy) : Result Unit := do
  p.era.validate
  p.claims.validate
  p.recovery.validate
  p.domain.validate
  require (p.recovery.objectionWindow ≤ p.claims.claimDelay)
    (.policy "claim_delay must be >= objection_window")

end ProtocolPolicy

namespace BatchPolicy

instance : Inhabited BatchPolicy := ⟨{}⟩

/-- Batches hold at least one operation, and no more than the limit that holds under every
policy. -/
def validate (p : BatchPolicy) : Result Unit := do
  let least := p.minBatchSize.val
  let most := p.maxBatchSize.val
  require (least ≠ 0) (.policy "min_batch_size must be at least 1")
  require (least ≤ most) (.policy s!"min_batch_size {least} exceeds max_batch_size {most}")
  require (most ≤ batchSizeLimit)
    (.policy s!"max_batch_size {most} exceeds hard limit {batchSizeLimit}")

end BatchPolicy

namespace RelayPolicy

instance : Inhabited RelayPolicy := ⟨{}⟩

/-- The policy of batches is in order, batches are sealed at intervals, and a whole batch may
wait. -/
def validate (p : RelayPolicy) : Result Unit := do
  p.batching.validate
  require (p.batchIntervalMillis ≠ 0) (.policy "batch_interval_ms must be positive")
  let most := p.batching.maxBatchSize.val
  require (most ≤ p.maxPending.val)
    (.policy s!"max_pending {p.maxPending.val} is below max_batch_size {most}")

/-- The time between two batches. It is told in milliseconds by the policy. -/
def batchInterval (p : RelayPolicy) : Span := .ofMillis p.batchIntervalMillis

end RelayPolicy

end Settlement
