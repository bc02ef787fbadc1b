import Settlement.Ledger.Claim
import Settlement.Ledger.Period

namespace Settlement

/-- An operation of the ledger with its arguments. These are all that anybody can ask for. -/
inductive Request
  | advancePeriod
  | setFeeSchedule (schedule : FeeSchedule)
  | deposit (period : PeriodId) (amount : Amount)
  | postCommitment (period : PeriodId) (root : Digest)
  | disputeCommitment (period : PeriodId)
  | replaceCommitment (period : PeriodId) (root : Digest)
  | sweepPeriod (period : PeriodId) (treasury : Address)
  | commitClaim (period : PeriodId) (digest : Digest)
  | revealClaim (entry : ClaimEntry)
  | revealClaimBatch (periods : List PeriodId) (amounts : List Amount) (nonces : List Digest)
      (proofs : List (List Digest))
  | halt
  | unhalt
  | setGuardian (guardian : Address)
  | proposeAuthority (address : Address)
  | acceptAuthority
  | requestStrikeReset
  | executeStrikeReset
  | designateRecovery (address : Address)
  | claimRecovery
  | recordOperations (count : Count)

/-- What an operation answers when it is not refused, as one of several kinds. -/
inductive Answer
  | done
  | period (snapshot : PeriodSnapshot)
  | amount (amount : Amount)
  | strikes (count : Word 32)
  | claim (receipt : ClaimReceipt)
  | claims (receipt : BatchClaimReceipt)
deriving DecidableEq

namespace Ledger

variable {τ : Type}

/-- The authority raises the halt, and shows by this that it is active. -/
def raiseHalt (l : Ledger τ) (ctx : CallContext) : Outcome τ Unit :=
  l.commitIf do
    let halt ← l.halt.halt ctx l.governance
    return ((), { l with halt }.touch ctx.now)

/-- Lifts the halt. Only an authority without a guardian shows by this that it is active. -/
def liftHalt (l : Ledger τ) (ctx : CallContext) : Outcome τ Unit :=
  l.commitIf do
    let halt ← l.halt.unhalt ctx l.governance
    let lifted := { l with halt }
    return ((), if l.governance.guardianEverConfigured then lifted else lifted.touch ctx.now)

/-- Changes the roles, if the change is not refused. Nothing but the roles is touched by it. -/
def govern (l : Ledger τ) (change : Governance → Result Governance) : Outcome τ Unit :=
  l.commitIf do
    let governance ← change l.governance
    return ((), { l with governance })

/-- An outcome with its answer as one of several kinds, so that all operations have outcomes of one
type. -/
def Outcome.map {α β : Type} (f : α → β) (outcome : Outcome τ α) : Outcome τ β :=
  (Except.map f outcome.1, outcome.2)

/-- Answers a request. Every operation has one case here, so that what holds of all requests is
proved case by case. -/
def handle [PayoutToken τ] (l : Ledger τ) (ctx : CallContext) : Request → Outcome τ Answer
  | .advancePeriod => Outcome.map .period (l.advancePeriod ctx)
  | .setFeeSchedule schedule => done (l.setFeeSchedule ctx schedule)
  | .deposit period amount => Outcome.map .amount (l.deposit ctx period amount)
  | .postCommitment period root => done (l.postCommitment ctx period root)
  | .disputeCommitment period => done (l.disputeCommitment ctx period)
  | .replaceCommitment period root => Outcome.map .strikes (l.replaceCommitment ctx period root)
  | .sweepPeriod period treasury => Outcome.map .amount (l.sweepPeriod ctx period treasury)
  | .commitClaim period digest => done (l.commitClaim ctx period digest)
  | .revealClaim entry => Outcome.map .claim (l.revealClaim ctx entry)
  | .revealClaimBatch periods amounts nonces proofs =>
    Outcome.map .claims (l.revealClaimBatch ctx periods amounts nonces proofs)
  | .halt => done (l.raiseHalt ctx)
  | .unhalt => done (l.liftHalt ctx)
  | .setGuardian guardian => done (l.govern (·.setGuardian ctx guardian))
  | .proposeAuthority address => done (l.govern (·.proposeAuthority ctx address))
  | .acceptAuthority => done (l.govern (·.acceptAuthority ctx))
  | .requestStrikeReset => done (l.govern (·.requestStrikeReset ctx))
  | .executeStrikeReset => done (l.govern (·.executeStrikeReset ctx))
  | .designateRecovery address => done (l.govern (·.designateRecovery ctx address))
  | .claimRecovery => done (l.govern (·.claimRecovery ctx))
  | .recordOperations count => done (l.recordOperations count)
where
  /-- An outcome without an answer of its own. -/
  done (outcome : Outcome τ Unit) : Outcome τ Answer := Outcome.map (fun _ => .done) outcome

end Ledger

/-- One request with its circumstances, as it reaches the ledger: who makes it, at what time, and in
which block. -/
structure Call where
  ctx : CallContext
  request : Request

namespace Ledger

variable {τ : Type} [PayoutToken τ]

/-- The state after a call, whether it was refused or not. -/
def step (l : Ledger τ) (call : Call) : Ledger τ := (l.handle call.ctx call.request).2

end Ledger

end Settlement
