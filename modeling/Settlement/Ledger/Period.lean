import Settlement.Ledger.State

namespace Settlement.Ledger

variable {τ : Type}

/-- Closes the current period, if its minimum duration is over, and prices it by the schedule of the
moment. -/
def advancePeriod (l : Ledger τ) (ctx : CallContext) : Outcome τ PeriodSnapshot :=
  l.commitIf do
    l.checkOperator ctx.caller
    let (snapshot, era) ← l.era.advance ctx.now
    return (snapshot, { l with era }.touch ctx.now)

/-- Changes the fees of the current and all later periods. This is possible during a halt. -/
def setFeeSchedule (l : Ledger τ) (ctx : CallContext) (schedule : FeeSchedule) : Outcome τ Unit :=
  l.commitIf do
    l.governance.checkAuthority ctx.caller
    let era ← l.era.setFeeSchedule schedule
    return ((), { l with era, eraPolicy.feeSchedule := schedule }.touch ctx.now)

/-- Everything that a deposit has to fulfil before the token is asked: no root is posted, the last
deposit is long enough ago, and the sum is within the limit. -/
def checkDeposit (l : Ledger τ) (ctx : CallContext) (period : PeriodId) (amount : Amount) :
    Result Unit := do
  l.checkOperator ctx.caller
  require (amount ≠ 0) (.invalidAmount "deposit must be positive")
  require (¬ l.commitments.contains period) (.rootAlreadyPosted period)
  let fund := l.periodFund period
  match fund.lastDepositAt with
  | some last =>
    let readyAt := last.after l.claimPolicy.minDepositInterval
    require (readyAt ≤ ctx.now) (.tooFrequent period (ctx.remainingUntil readyAt))
  | none => pure ()
  let total ← orRefuse (.overflow "period deposit") (fund.deposited.add? amount)
  let cap := l.claimPolicy.maxDepositPerPeriod
  require (total ≤ cap) (.tooLarge period total cap)

/-- Pulls an amount from the caller into the pool for a period. The period is credited with what
arrives, which a fee makes less than what was asked for. -/
def deposit [PayoutToken τ] (l : Ledger τ) (ctx : CallContext) (period : PeriodId)
    (amount : Amount) : Outcome τ Amount :=
  match l.checkDeposit ctx period amount with
  | .error e => (.error e, l)
  | .ok () =>
    let (collected, token) := PayoutToken.collect l.token ctx.caller amount
    let l := { l with token }
    match collected with
    | .error e => (.error e, l)
    | .ok received =>
      let (recorded, funds) := l.funds.recordDeposit period received ctx.now
      let l := { l with funds }
      match recorded with
      | .error e => (.error e, l)
      | .ok () => (.ok received, l.touch ctx.now)

/-- Posts the root of a closed period, which opens its claims after the delay. -/
def postCommitment (l : Ledger τ) (ctx : CallContext) (period : PeriodId) (root : Digest) :
    Outcome τ Unit :=
  l.commitIf do
    l.checkOperator ctx.caller
    l.checkClosed period
    let (_, commitments) ←
      l.commitments.post l.claimPolicy l.governance.policy period root ctx.now
    return ((), { l with commitments }.touch ctx.now)

/-- The guardian objects to a posted root, also while operations are halted. -/
def disputeCommitment (l : Ledger τ) (ctx : CallContext) (period : PeriodId) : Outcome τ Unit :=
  l.commitIf do
    l.governance.checkGuardian ctx.caller
    let commitments ← l.commitments.dispute l.governance.policy ctx.caller period ctx.now
    return ((), { l with commitments })

/-- Replaces a disputed root, which counts as a strike against the authority. Tells how many there
are. -/
def replaceCommitment (l : Ledger τ) (ctx : CallContext) (period : PeriodId) (root : Digest) :
    Outcome τ (Word 32) :=
  l.commitIf do
    l.checkOperator ctx.caller
    let (_, commitments) ← l.commitments.replace period root ctx.now
    let governance := (l.governance.touch ctx.now).strike
    return (governance.strikes, { l with commitments, governance })

/-- Everything that a sweep has to fulfil before the fund is asked: the deadline of the claims has
passed, and some time after it. -/
def checkSweep (l : Ledger τ) (ctx : CallContext) (period : PeriodId) (treasury : Address) :
    Result Unit := do
  l.checkOperator ctx.caller
  require (¬ treasury.isZero) (.zeroAddress "treasury")
  let opensAt ← orRefuse (.noCommitment period) (l.commitments.sweepOpensAt? l.claimPolicy period)
  require (opensAt ≤ ctx.now) (.sweepTooEarly period (ctx.remainingUntil opensAt))

/-- Moves what is left of a period to the treasury. The sweep is counted before the transfer and
taken back when it fails; a period in which nothing is left is swept without one. -/
def sweepPeriod [PayoutToken τ] (l : Ledger τ) (ctx : CallContext) (period : PeriodId)
    (treasury : Address) : Outcome τ Amount :=
  match l.checkSweep ctx period treasury with
  | .error e => (.error e, l)
  | .ok () =>
    let (recorded, funds) := l.funds.recordSweep period ctx.now
    match recorded with
    | .error e => (.error e, { l with funds })
    | .ok amount =>
      if amount = 0 then (.ok amount, { l with funds }.touch ctx.now)
      else
        let (paid, token) := PayoutToken.transfer l.token treasury amount
        match paid with
        | .error e => (.error e, { l with funds := funds.releaseSweep period, token })
        | .ok _ => (.ok amount, { l with funds, token }.touch ctx.now)

end Settlement.Ledger
