import Settlement.Error

namespace Settlement

/-- The money of one period. What was claimed and what was swept never exceed what was deposited;
the shortfall of lossy transfers is counted apart from both. -/
structure PeriodFund where
  /-- What the pool received for the period. -/
  deposited : Amount := 0
  /-- What left the pool for claims, before losses in transfer. -/
  claimed : Amount := 0
  /-- What claimants did not receive of it. -/
  precisionLoss : Amount := 0
  /-- What was moved to the treasury in the end. -/
  swept : Amount := 0
  sweptAt : Option Timestamp := none
  lastDepositAt : Option Timestamp := none
deriving DecidableEq

namespace PeriodFund

instance : Inhabited PeriodFund := ⟨{}⟩

/-- What the pool still holds for the period: the deposits less what was claimed and what was
swept. -/
def remaining (f : PeriodFund) : Amount := (f.deposited.satSub f.claimed).satSub f.swept

/-- Whether the period was swept, which happens once at most. A swept period has the time of its
sweep. -/
def isSwept (f : PeriodFund) : Bool := f.sweptAt.isSome

/-- Claims and sweep together are covered by the deposits. This is what the ledger checks of
itself. -/
def Covered (f : PeriodFund) : Prop := f.claimed.val + f.swept.val ≤ f.deposited.val

instance (f : PeriodFund) : Decidable f.Covered := inferInstanceAs (Decidable (_ ≤ _))

end PeriodFund

/-- The money of all periods that were ever touched, be it by a request that was refused. -/
structure FundBook where
  funds : Table PeriodId PeriodFund := .empty

namespace FundBook

instance : Inhabited FundBook := ⟨{}⟩

/-- The fund of a period, empty if the period was never touched. -/
def fund (b : FundBook) (period : PeriodId) : PeriodFund := b.funds.getD period {}

def set (b : FundBook) (period : PeriodId) (fund : PeriodFund) : FundBook :=
  ⟨b.funds.insert period fund⟩

/-- The fund of a period, if the period was ever touched. -/
def get? (b : FundBook) (period : PeriodId) : Option PeriodFund := b.funds.get? period

/-- What the pool still holds for a period. -/
def remaining (b : FundBook) (period : PeriodId) : Amount := (b.fund period).remaining

/-- Changes the fund of a period, if it was ever touched, and leaves the book as it is otherwise. -/
def modify (b : FundBook) (period : PeriodId) (f : PeriodFund → PeriodFund) : FundBook :=
  match b.get? period with
  | some fund => b.set period (f fund)
  | none => b

/-- The outcome of a change to the fund of a period. A refused change still touches the period. -/
def update {α : Type} (b : FundBook) (period : PeriodId)
    (change : PeriodFund → Result (α × PeriodFund)) : Result α × FundBook :=
  let fund := b.fund period
  match change fund with
  | .ok (answer, fund) => (.ok answer, b.set period fund)
  | .error e => (.error e, b.set period fund)

/-- Counts a deposit, with its time. The next one has to keep its distance from it. -/
def recordDeposit (b : FundBook) (period : PeriodId) (received : Amount) (now : Timestamp) :
    Result Unit × FundBook :=
  b.update period fun fund => do
    let deposited ← orRefuse (.overflow "period deposit") (fund.deposited.add? received)
    return ((), { fund with deposited, lastDepositAt := some now })

/-- Counts `amount` as claimed, ahead of its transfer, if the period still holds that much. -/
def reserveClaim (b : FundBook) (period : PeriodId) (amount : Amount) : Result Unit × FundBook :=
  b.update period fun fund => do
    require (amount ≤ fund.remaining) (.insufficientPeriodFund period amount fund.remaining)
    let claimed ← orRefuse (.overflow "period claimed") (fund.claimed.add? amount)
    return ((), { fund with claimed })

/-- Takes back a reservation, after a transfer that failed or was taken back. -/
def releaseClaim (b : FundBook) (period : PeriodId) (amount : Amount) : FundBook :=
  b.modify period fun fund => { fund with claimed := fund.claimed.satSub amount }

/-- Counts a loss in transfer. It is refused when the sum of the losses leaves its width. -/
def recordPrecisionLoss (b : FundBook) (period : PeriodId) (loss : Amount) :
    Result Unit × FundBook :=
  b.update period fun fund => do
    let precisionLoss ← orRefuse (.overflow "precision loss") (fund.precisionLoss.add? loss)
    return ((), { fund with precisionLoss })

/-- Takes back a loss, when a later one of the same batch finds no room. -/
def releasePrecisionLoss (b : FundBook) (period : PeriodId) (loss : Amount) : FundBook :=
  b.modify period fun fund => { fund with precisionLoss := fund.precisionLoss.satSub loss }

/-- Counts everything that remains as swept, and tells how much that is. A period is swept once. -/
def recordSweep (b : FundBook) (period : PeriodId) (now : Timestamp) : Result Amount × FundBook :=
  b.update period fun fund => do
    require (¬ fund.isSwept) (.alreadySwept period)
    return (fund.remaining, { fund with swept := fund.remaining, sweptAt := some now })

/-- Takes back a sweep whose transfer failed, so that it can be tried again. -/
def releaseSweep (b : FundBook) (period : PeriodId) : FundBook :=
  b.modify period fun fund => { fund with swept := 0, sweptAt := none }

/-- Checks that claims and sweep of a period are covered. A period without a fund is. -/
def verify (b : FundBook) (period : PeriodId) : Result Unit :=
  match b.get? period with
  | none => .ok ()
  | some fund =>
    let claimed := fund.claimed.val
    let swept := fund.swept.val
    let deposited := fund.deposited.val
    require fund.Covered
      (.fundInvariantViolation s!"{period}: claimed {claimed} + swept {swept} > deposited {deposited}")

/-- Checks every period, in order. The first one that does not add up is reported. -/
def verifyAll (b : FundBook) : Result Unit := b.funds.keys.forM b.verify

/-- The sum of one column over all periods, held at the largest amount. -/
def total (b : FundBook) (column : PeriodFund → Amount) : Amount :=
  b.funds.values.foldl (fun sum fund => sum.satAdd (column fund)) 0

def totalDeposited (b : FundBook) : Amount := b.total PeriodFund.deposited

def totalClaimed (b : FundBook) : Amount := b.total PeriodFund.claimed

def totalPrecisionLoss (b : FundBook) : Amount := b.total PeriodFund.precisionLoss

end FundBook

end Settlement
