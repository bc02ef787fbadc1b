import Settlement.Error

namespace Settlement

/-- The claims that were paid. Every claimant is paid at most once for a period, whichever way the
claim comes. -/
structure ClaimRegistry where
  paid : Table ClaimKey Unit := .empty

namespace ClaimRegistry

instance : Inhabited ClaimRegistry := ⟨{}⟩

/-- Whether this claim was paid. A mark is made before the transfer, and taken away if the transfer
is taken back. -/
def hasClaimed (r : ClaimRegistry) (claimant : Address) (period : PeriodId) : Bool :=
  r.paid.contains ⟨claimant, period⟩

/-- Refuses a claim that was paid before, so that every claim is paid once at most. -/
def check (r : ClaimRegistry) (claimant : Address) (period : PeriodId) : Result Unit :=
  require (¬ r.hasClaimed claimant period) (.alreadyClaimed claimant period)

/-- Marks a claim as paid, which is refused if it is marked already. -/
def mark (r : ClaimRegistry) (claimant : Address) (period : PeriodId) : Result ClaimRegistry := do
  r.check claimant period
  return ⟨r.paid.insert ⟨claimant, period⟩ ()⟩

/-- Takes back a mark, when the transfer behind it was taken back. -/
def unmark (r : ClaimRegistry) (claimant : Address) (period : PeriodId) : ClaimRegistry :=
  ⟨r.paid.erase ⟨claimant, period⟩⟩

end ClaimRegistry

end Settlement
