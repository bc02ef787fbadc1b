import Settlement.Hash.Sha256
import Settlement.Policy

namespace Settlement

/-- An objection to a posted root. As long as it stands the root takes no claims. -/
structure Dispute where
  guardian : Address
  raisedAt : Timestamp
  /-- The earliest time of a replacement. -/
  resolveNotBefore : Timestamp
deriving DecidableEq

/-- The posted root of a period. Claims open some time after the last posting and close at a time
that the first posting fixes. -/
structure Commitment where
  period : PeriodId
  root : Digest
  /-- The time of the last posting or replacement. -/
  postedAt : Timestamp
  firstPostedAt : Timestamp
  /-- The time of the last claim, fixed by the first posting. -/
  claimDeadline : Timestamp
  replacements : Word 32
  dispute : Option Dispute
deriving DecidableEq

namespace Commitment

/-- Whether an objection to the root stands. It is settled when the root is replaced. -/
def isDisputed (c : Commitment) : Bool := c.dispute.isSome

/-- The time from which objections to the root come too late. It goes by the last posting. -/
def objectionEnd (c : Commitment) (recovery : RecoveryPolicy) : Timestamp :=
  c.postedAt.after recovery.objectionWindow

/-- The first posting for a period, which fixes the deadline of its claims for good. -/
def first (claims : ClaimPolicy) (period : PeriodId) (root : Digest) (now : Timestamp) :
    Commitment :=
  { period
    root
    postedAt := now
    firstPostedAt := now
    claimDeadline := now.after claims.claimWindow
    replacements := 0
    dispute := none }

end Commitment

/-- The posted roots, and when each guardian last objected. The policies are given to its
operations, so that the book holds no copy of them. -/
structure CommitmentBook where
  commitments : Table PeriodId Commitment := .empty
  lastDisputeBy : Table Address Timestamp := .empty

namespace CommitmentBook

instance : Inhabited CommitmentBook := ⟨{}⟩

def get? (b : CommitmentBook) (period : PeriodId) : Option Commitment := b.commitments.get? period

def contains (b : CommitmentBook) (period : PeriodId) : Bool := b.commitments.contains period

def set (b : CommitmentBook) (period : PeriodId) (c : Commitment) : CommitmentBook :=
  { b with commitments := b.commitments.insert period c }

/-- Posts a root. A period that has one already takes another only when nobody can object to the
first any more and nobody has; it keeps its claim deadline. -/
def post (b : CommitmentBook) (claims : ClaimPolicy) (recovery : RecoveryPolicy)
    (period : PeriodId) (root : Digest) (now : Timestamp) : Result (Commitment × CommitmentBook) :=
  match b.get? period with
  | none =>
    let c := Commitment.first claims period root now
    .ok (c, b.set period c)
  | some old => do
    require (¬ old.isDisputed) (.commitmentDisputed period)
    let windowEnd := old.objectionEnd recovery
    require (windowEnd ≤ now) (.disputePeriodActive period (windowEnd.since now))
    let c := { old with root, postedAt := now }
    return (c, b.set period c)

/-- Objects to a posted root. This has to happen within the objection window, and not too soon after
the last objection of the same guardian. -/
def dispute (b : CommitmentBook) (recovery : RecoveryPolicy) (guardian : Address)
    (period : PeriodId) (now : Timestamp) : Result CommitmentBook := do
  let c ← orRefuse (.noCommitment period) (b.get? period)
  require (¬ c.isDisputed) (.commitmentDisputed period)
  require (now < c.objectionEnd recovery) (.disputeWindowClosed period)
  match b.lastDisputeBy.get? guardian with
  | some last =>
    let readyAt := last.after recovery.disputeCooldown
    require (readyAt ≤ now) (.disputeCooldown (readyAt.since now))
  | none => pure ()
  let raised : Dispute :=
    { guardian, raisedAt := now, resolveNotBefore := now.after recovery.resolutionDelay }
  return { b.set period { c with dispute := some raised } with
    lastDisputeBy := b.lastDisputeBy.insert guardian now }

/-- Replaces a disputed root, which settles the dispute. The delay since the objection has to be
over. Tells how often the root was replaced. -/
def replace (b : CommitmentBook) (period : PeriodId) (root : Digest) (now : Timestamp) :
    Result (Word 32 × CommitmentBook) := do
  let c ← orRefuse (.noCommitment period) (b.get? period)
  let raised ← orRefuse (.notDisputed period) c.dispute
  require (raised.resolveNotBefore ≤ now)
    (.resolutionDelayActive period (raised.resolveNotBefore.since now))
  let replacements := c.replacements.satAdd 1
  return (replacements,
    b.set period { c with root, postedAt := now, replacements, dispute := none })

/-- The root that a claim at `now` has to be proven against. There is one from the claim delay after
its posting to the deadline of the period, unless an objection stands. -/
def claimable (b : CommitmentBook) (claims : ClaimPolicy) (period : PeriodId) (now : Timestamp) :
    Result Commitment := do
  let c ← orRefuse (.noCommitment period) (b.get? period)
  require (¬ c.isDisputed) (.commitmentDisputed period)
  let opensAt := c.postedAt.after claims.claimDelay
  require (opensAt ≤ now) (.claimDelayActive period (opensAt.since now))
  require (now ≤ c.claimDeadline) (.claimDeadlinePassed period)
  return c

/-- The earliest time at which what is left of a period may be swept. A period without a root has
none. -/
def sweepOpensAt? (b : CommitmentBook) (claims : ClaimPolicy) (period : PeriodId) :
    Option Timestamp :=
  (b.get? period).map fun c => c.claimDeadline.after claims.sweepDelay

end CommitmentBook

end Settlement
