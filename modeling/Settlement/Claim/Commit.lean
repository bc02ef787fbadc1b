import Settlement.Claim.Encoding

namespace Settlement

/-- What a claimant has committed to: a digest that hides the claim, with the block and the time of
the commitment. -/
structure ClaimCommit where
  digest : Digest
  block : Count
  committedAt : Timestamp
deriving DecidableEq

/-- The open commitments, one for each claimant and period at most. A claim is first committed to
and revealed in a later block, so that nobody who sees the reveal can be ahead of it. -/
structure CommitBook where
  commits : Table ClaimKey ClaimCommit := .empty

namespace CommitBook

instance : Inhabited CommitBook := ⟨{}⟩

def get? (b : CommitBook) (claimant : Address) (period : PeriodId) : Option ClaimCommit :=
  b.commits.get? ⟨claimant, period⟩

/-- Opens a commitment, in place of an earlier one if there is one. Only the latest counts. -/
def commit (b : CommitBook) (claimant : Address) (period : PeriodId) (entry : ClaimCommit) :
    CommitBook :=
  ⟨b.commits.insert ⟨claimant, period⟩ entry⟩

/-- Checks that a claim was committed to with this nonce in an earlier block. The order of the
blocks is looked at before the digest. -/
def checkReveal (b : CommitBook) (claim : Claim) (nonce : Digest) (block : Count) : Result Unit := do
  let commit ← orRefuse (.noClaimCommit claim.claimant claim.period)
    (b.get? claim.claimant claim.period)
  require (commit.block < block) (.revealTooEarly commit.block block)
  require (claim.commitment nonce = commit.digest) (.revealMismatch claim.period)

/-- Closes a commitment. This happens when its claim was paid, and at no other time. -/
def remove (b : CommitBook) (claimant : Address) (period : PeriodId) : CommitBook :=
  ⟨b.commits.erase ⟨claimant, period⟩⟩

end CommitBook

end Settlement
