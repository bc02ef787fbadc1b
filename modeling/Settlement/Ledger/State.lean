import Settlement.Claim.Commit
import Settlement.Claim.Registry
import Settlement.Claim.Tree
import Settlement.Commitment
import Settlement.Era
import Settlement.Fund
import Settlement.Governance.Halt
import Settlement.Token.Basic

namespace Settlement

/-- The whole state, over a token of type `τ` that holds the money: everything that the protocol
knows, in one book for each of its concerns. -/
structure Ledger (τ : Type) where
  era : Era
  /-- The terms of the periods as the ledger gives them out; the era goes by its own. -/
  eraPolicy : EraPolicy := era.policy
  claimPolicy : ClaimPolicy
  domain : Domain
  governance : Governance
  halt : HaltSwitch := {}
  funds : FundBook := {}
  registry : ClaimRegistry := {}
  commitments : CommitmentBook := {}
  commits : CommitBook := {}
  token : τ

/-- The outcome of an operation: the answer, or why it is refused, and the state after it. A refused
operation leaves the state as it was, with one exception: a payout that the token does not take back
stays booked. -/
abbrev Outcome (τ α : Type) := Result α × Ledger τ

namespace Ledger

variable {τ : Type}

/-- A new ledger, in period 0 and without funds, if its policy is in order and nobody in it is the
zero address. -/
def start (policy : ProtocolPolicy) (authority : Address) (guardian : Option Address) (token : τ)
    (now : Timestamp) : Result (Ledger τ) := do
  policy.validate
  let governance ← Governance.start policy.recovery authority guardian now
  let era ← Era.start policy.era now
  return {
    era, eraPolicy := policy.era, claimPolicy := policy.claims, domain := policy.domain
    governance, token }

/-- The policy that the ledger gives out, with the schedule of fees that is in force. -/
def policy (l : Ledger τ) : ProtocolPolicy :=
  ⟨l.eraPolicy, l.claimPolicy, l.governance.policy, l.domain⟩

/-- An operation that takes effect only when it is not refused. -/
def commitIf {α : Type} (l : Ledger τ) : Result (α × Ledger τ) → Outcome τ α
  | .ok (answer, l) => (.ok answer, l)
  | .error e => (.error e, l)

/-- The caller is the authority, and operations are not halted. The caller is looked at first. -/
def checkOperator (l : Ledger τ) (caller : Address) : Result Unit := do
  l.governance.checkAuthority caller
  l.halt.checkNotHalted

/-- The period lies before the current one, so that its count is final. -/
def checkClosed (l : Ledger τ) (period : PeriodId) : Result Unit :=
  require (l.era.isClosed period) (.periodNotClosed period l.era.current)

/-- The authority has acted, which voids a pending designation and begins a new liveness window. -/
def touch (l : Ledger τ) (now : Timestamp) : Ledger τ :=
  { l with governance := l.governance.touch now }

def currentPeriod (l : Ledger τ) : PeriodId := l.era.current

def periodFund (l : Ledger τ) (period : PeriodId) : PeriodFund := l.funds.fund period

/-- What the pool still holds for a period. A period without a fund has nothing. -/
def remaining (l : Ledger τ) (period : PeriodId) : Amount := l.funds.remaining period

def hasClaimed (l : Ledger τ) (claimant : Address) (period : PeriodId) : Bool :=
  l.registry.hasClaimed claimant period

def commitment? (l : Ledger τ) (period : PeriodId) : Option Commitment := l.commitments.get? period

def isHalted (l : Ledger τ) : Bool := l.halt.isHalted

/-- Checks that the claims and the sweep of every period are covered by its deposits. -/
def checkInvariants (l : Ledger τ) : Result Unit := l.funds.verifyAll

/-- Counts weak operations in the current period. Anybody may have them counted. -/
def recordOperations (l : Ledger τ) (count : Count) : Outcome τ Unit :=
  l.commitIf do
    let era ← l.era.record count
    return ((), { l with era })

end Ledger

end Settlement
