import Settlement.Identity
import Settlement.Time.Text

namespace Settlement

/-- A cause of refusal, with the values that its text tells. Causes are grouped by their code:
malformed input, a request at the wrong time, a missing right, an accounting rule, the failure of a
collaborator, and anything else. -/
inductive Error
  /-- Two lists that belong together differ in length. -/
  | lengthMismatch (expected actual : Nat)
  | batchTooSmall (size min : Nat)
  | batchTooLarge (size max : Nat)
  | belowDust (amount min : Amount)
  | proofTooLong (length max : Nat)
  /-- The proof does not lead from the claim to the posted root. -/
  | invalidProof (claimant : Address) (period : PeriodId)
  | invalidAmount (reason : String)
  | invalidSignature (signer : Address)
  /-- The revealed claim is not the one that was committed to. -/
  | revealMismatch (period : PeriodId)
  | noClaimCommit (claimant : Address) (period : PeriodId)
  | invalidClaimBatch (reason : String)
  | claimBatchTooLarge (length max : Nat)
  | zeroAddress (role : String)
  | queueFull (capacity : Nat)
  | tooSoon (elapsed min : Span)
  | overdue (elapsed max : Span)
  | periodNotClosed (period current : PeriodId)
  | claimDelayActive (period : PeriodId) (remaining : Span)
  | claimDeadlinePassed (period : PeriodId)
  | disputePeriodActive (period : PeriodId) (remaining : Span)
  | disputeWindowClosed (period : PeriodId)
  | resolutionDelayActive (period : PeriodId) (remaining : Span)
  | disputeCooldown (remaining : Span)
  | tooFrequent (period : PeriodId) (remaining : Span)
  /-- A reveal has to come in a later block than its commitment. -/
  | revealTooEarly (committedAt block : Count)
  | sweepTooEarly (period : PeriodId) (remaining : Span)
  | recoveryNotReady (remaining : Span)
  | strikeResetNotReady (reason : String)
  | notAuthority (caller : Address)
  | notGuardian (caller : Address)
  | authorityRevoked (strikes : Word 32)
  | notRecovery (caller : Address)
  | notPendingAuthority (caller : Address)
  | halted
  | insufficientPeriodFund (period : PeriodId) (needed remaining : Amount)
  | alreadyClaimed (claimant : Address) (period : PeriodId)
  /-- A number would leave its width. -/
  | overflow (context : String)
  | maxPeriodExceeded (max : Count)
  | tooLarge (period : PeriodId) (total cap : Amount)
  | slippageTooHigh (shortfallBps : Amount) (maxBps : Word 32)
  | fundInvariantViolation (reason : String)
  | rootAlreadyPosted (period : PeriodId)
  | noCommitment (period : PeriodId)
  | commitmentDisputed (period : PeriodId)
  | notDisputed (period : PeriodId)
  | alreadySwept (period : PeriodId)
  /-- The settlement of the operations from `start` up to `stop` failed. -/
  | settlementFailed (start stop : Nat) (reason : String)
  | settlementResultMismatch (expected actual : Nat)
  | transferFailed (reason : String)
  | internal (reason : String)
  | serialization (reason : String)
  | configuration (reason : String)
  | io (reason : String)
deriving DecidableEq

/-- The answer to a request, or why it is refused. Every operation that checks something gives
one. -/
abbrev Result := Except Error

namespace Error

/-- The name of a cause, without the values that belong to it. It is the same for all refusals of
one kind. -/
def name : Error → String
  | lengthMismatch .. => "LengthMismatch"
  | batchTooSmall .. => "BatchTooSmall"
  | batchTooLarge .. => "BatchTooLarge"
  | belowDust .. => "BelowDust"
  | proofTooLong .. => "ProofTooLong"
  | invalidProof .. => "InvalidProof"
  | invalidAmount .. => "InvalidAmount"
  | invalidSignature .. => "InvalidSignature"
  | revealMismatch .. => "RevealMismatch"
  | noClaimCommit .. => "NoClaimCommit"
  | invalidClaimBatch .. => "InvalidClaimBatch"
  | claimBatchTooLarge .. => "ClaimBatchTooLarge"
  | zeroAddress .. => "ZeroAddress"
  | queueFull .. => "QueueFull"
  | tooSoon .. => "TooSoon"
  | overdue .. => "Overdue"
  | periodNotClosed .. => "PeriodNotClosed"
  | claimDelayActive .. => "ClaimDelayActive"
  | claimDeadlinePassed .. => "ClaimDeadlinePassed"
  | disputePeriodActive .. => "DisputePeriodActive"
  | disputeWindowClosed .. => "DisputeWindowClosed"
  | resolutionDelayActive .. => "ResolutionDelayActive"
  | disputeCooldown .. => "DisputeCooldown"
  | tooFrequent .. => "TooFrequent"
  | revealTooEarly .. => "RevealTooEarly"
  | sweepTooEarly .. => "SweepTooEarly"
  | recoveryNotReady .. => "RecoveryNotReady"
  | strikeResetNotReady .. => "StrikeResetNotReady"
  | notAuthority .. => "NotAuthority"
  | notGuardian .. => "NotGuardian"
  | authorityRevoked .. => "AuthorityRevoked"
  | notRecovery .. => "NotRecovery"
  | notPendingAuthority .. => "NotPendingAuthority"
  | halted => "Halted"
  | insufficientPeriodFund .. => "InsufficientPeriodFund"
  | alreadyClaimed .. => "AlreadyClaimed"
  | overflow .. => "Overflow"
  | maxPeriodExceeded .. => "MaxPeriodExceeded"
  | tooLarge .. => "TooLarge"
  | slippageTooHigh .. => "SlippageTooHigh"
  | fundInvariantViolation .. => "FundInvariantViolation"
  | rootAlreadyPosted .. => "RootAlreadyPosted"
  | noCommitment .. => "NoCommitment"
  | commitmentDisputed .. => "CommitmentDisputed"
  | notDisputed .. => "NotDisputed"
  | alreadySwept .. => "AlreadySwept"
  | settlementFailed .. => "SettlementFailed"
  | settlementResultMismatch .. => "SettlementResultMismatch"
  | transferFailed .. => "TransferFailed"
  | internal .. => "Internal"
  | serialization .. => "Serialization"
  | configuration .. => "Configuration"
  | io .. => "Io"

/-- The three-digit number of a cause. Its first digit is the class: 1 for malformed input, 2 for a
request at the wrong time, 3 for a missing right, 4 for an accounting rule, 5 for a failure of a
collaborator and 9 for anything else. -/
def code : Error → Nat
  | lengthMismatch .. => 100
  | batchTooSmall .. => 101
  | batchTooLarge .. => 102
  | belowDust .. => 103
  | proofTooLong .. => 104
  | invalidProof .. => 105
  | invalidAmount .. => 106
  | invalidSignature .. => 107
  | revealMismatch .. => 108
  | noClaimCommit .. => 109
  | invalidClaimBatch .. => 110
  | claimBatchTooLarge .. => 111
  | zeroAddress .. => 112
  | queueFull .. => 113
  | tooSoon .. => 200
  | overdue .. => 201
  | periodNotClosed .. => 202
  | claimDelayActive .. => 203
  | claimDeadlinePassed .. => 204
  | disputePeriodActive .. => 205
  | disputeWindowClosed .. => 206
  | resolutionDelayActive .. => 207
  | disputeCooldown .. => 208
  | tooFrequent .. => 209
  | revealTooEarly .. => 210
  | sweepTooEarly .. => 211
  | recoveryNotReady .. => 212
  | strikeResetNotReady .. => 213
  | notAuthority .. => 300
  | notGuardian .. => 301
  | authorityRevoked .. => 302
  | notRecovery .. => 303
  | notPendingAuthority .. => 304
  | halted => 305
  | insufficientPeriodFund .. => 400
  | alreadyClaimed .. => 401
  | overflow .. => 402
  | maxPeriodExceeded .. => 403
  | tooLarge .. => 404
  | slippageTooHigh .. => 405
  | fundInvariantViolation .. => 406
  | rootAlreadyPosted .. => 407
  | noCommitment .. => 408
  | commitmentDisputed .. => 409
  | notDisputed .. => 410
  | alreadySwept .. => 411
  | settlementFailed .. => 500
  | settlementResultMismatch .. => 501
  | transferFailed .. => 502
  | internal .. => 900
  | serialization .. => 901
  | configuration .. => 902
  | io .. => 903

/-- Whether the cause is one of time, so that the same request may succeed later. Only causes of
class 2 pass by waiting. -/
def isTemporal (e : Error) : Bool := 200 ≤ e.code && e.code < 300

/-- The cause in words, with the values that led to it. It is what an error is printed as. -/
def description : Error → String
  | lengthMismatch expected actual => s!"Length mismatch: expected {expected}, got {actual}"
  | batchTooSmall size min => s!"Batch too small: {size} < minimum {min}"
  | batchTooLarge size max => s!"Batch too large: {size} > maximum {max}"
  | belowDust amount min => s!"Amount {amount.val} below minimum {min.val}"
  | proofTooLong length max => s!"Proof too long: {length} > maximum {max}"
  | invalidProof claimant period => s!"Invalid claim proof for {claimant} in {period}"
  | invalidAmount reason => s!"Invalid amount: {reason}"
  | invalidSignature signer => s!"Invalid authorization for operation from {signer}"
  | revealMismatch period => s!"Reveal does not match claim commitment for {period}"
  | noClaimCommit claimant period => s!"No claim commitment for {claimant} in {period}"
  | invalidClaimBatch reason => s!"Invalid claim batch: {reason}"
  | claimBatchTooLarge length max => s!"Claim batch too large: {length} > maximum {max}"
  | zeroAddress role => s!"Zero address not allowed for {role}"
  | queueFull capacity => s!"Pending queue full: capacity {capacity}"
  | tooSoon elapsed min => s!"Too soon to advance: {elapsed} elapsed, minimum {min}"
  | overdue elapsed max => s!"Period overdue: {elapsed} elapsed, maximum {max}"
  | periodNotClosed period current => s!"{period} is not closed (current {current})"
  | claimDelayActive period remaining => s!"Claim delay active for {period}: {remaining} remaining"
  | claimDeadlinePassed period => s!"Claim deadline passed for {period}"
  | disputePeriodActive period remaining =>
    s!"Dispute period active for {period}: {remaining} remaining"
  | disputeWindowClosed period => s!"Dispute window closed for {period}"
  | resolutionDelayActive period remaining =>
    s!"Resolution delay active for {period}: {remaining} remaining"
  | disputeCooldown remaining => s!"Dispute cooldown active: {remaining} remaining"
  | tooFrequent period remaining => s!"Deposit too frequent for {period}: {remaining} remaining"
  | revealTooEarly committedAt block =>
    s!"Reveal too early: committed at block {committedAt.val}, now {block.val}"
  | sweepTooEarly period remaining => s!"Sweep not yet allowed for {period}: {remaining} remaining"
  | recoveryNotReady remaining => s!"Recovery not ready: {remaining} remaining"
  | strikeResetNotReady reason => s!"Strike reset not ready: {reason}"
  | notAuthority caller => s!"Caller {caller} is not the authority"
  | notGuardian caller => s!"Caller {caller} is not the guardian"
  | authorityRevoked strikes => s!"Authority revoked after {strikes.val} strikes"
  | notRecovery caller => s!"Caller {caller} is not the designated recovery address"
  | notPendingAuthority caller => s!"Caller {caller} is not the pending authority"
  | halted => "Emergency halt active"
  | insufficientPeriodFund period needed remaining =>
    s!"Insufficient fund in {period}: need {needed.val}, remaining {remaining.val}"
  | alreadyClaimed claimant period => s!"{claimant} already claimed {period}"
  | overflow context => s!"Arithmetic overflow in {context}"
  | maxPeriodExceeded max => s!"Maximum period {max.val} reached"
  | tooLarge period total cap => s!"Deposit too large for {period}: {total.val} > cap {cap.val}"
  | slippageTooHigh shortfallBps maxBps =>
    s!"Slippage too high: {shortfallBps.val} bps > maximum {maxBps.val} bps"
  | fundInvariantViolation reason => s!"Fund invariant violation: {reason}"
  | rootAlreadyPosted period => s!"Root already posted for {period}"
  | noCommitment period => s!"No commitment for {period}"
  | commitmentDisputed period => s!"Commitment for {period} is disputed"
  | notDisputed period => s!"Commitment for {period} is not disputed"
  | alreadySwept period => s!"{period} already swept"
  | settlementFailed start stop reason =>
    s!"Settlement failed for operations [{start}, {stop}): {reason}"
  | settlementResultMismatch expected actual =>
    s!"Settlement returned {actual} results for {expected} operations"
  | transferFailed reason => s!"Token transfer failed: {reason}"
  | internal reason => s!"Internal error: {reason}"
  | serialization reason => s!"Serialization error: {reason}"
  | configuration reason => s!"Configuration error: {reason}"
  | io reason => s!"I/O error: {reason}"

/-- The code and the cause in words, as a refusal is shown. -/
def message (e : Error) : String := s!"FSH_ERR_{e.code}: {e.description}"

instance : ToString Error := ⟨message⟩

end Error

/-- The value of a checked operation, or the refusal `e` when there is none. Sums and products that
leave their width are refused in this way. -/
def orRefuse {α : Type} (e : Error) : Option α → Result α
  | some a => .ok a
  | none => .error e

/-- Goes on only if the condition holds, and refuses with `e` otherwise. A chain of these is a
check, of which the first failure answers. -/
def require (condition : Prop) [Decidable condition] (e : Error) : Result Unit :=
  if condition then .ok () else .error e

theorem require_eq_ok_iff {condition : Prop} [Decidable condition] {e : Error} {u : Unit} :
    require condition e = .ok u ↔ condition := by
  by_cases h : condition <;> simp [require, h]

theorem orRefuse_eq_ok_iff {α : Type} {e : Error} {x : Option α} {a : α} :
    orRefuse e x = .ok a ↔ x = some a := by
  cases x <;> simp [orRefuse]

end Settlement
