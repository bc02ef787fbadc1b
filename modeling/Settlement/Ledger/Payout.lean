import Settlement.Ledger.State

namespace Settlement.Ledger

variable {τ : Type}

/-- One claim of a payout: the period and the amount before losses. -/
abbrev Reservation := PeriodId × Amount

/-- Everything that a claim has to fulfil, without any change of the state: its amount, the length
of its proof, its period and root, that it was not paid before, the proof itself and the fund, in
this order. -/
def validateClaim (l : Ledger τ) (claimant : Address) (now : Timestamp) (period : PeriodId)
    (amount : Amount) (proof : List Digest) : Result Unit := do
  require (amount ≠ 0) (.invalidAmount "claim must be positive")
  require (l.claimPolicy.minClaimAmount ≤ amount) (.belowDust amount l.claimPolicy.minClaimAmount)
  let maxLength := l.claimPolicy.maxProofLength.val
  require (proof.length ≤ maxLength) (.proofTooLong proof.length maxLength)
  l.checkClosed period
  let commitment ← l.commitments.claimable l.claimPolicy period now
  l.registry.check claimant period
  let claim : Claim := { domain := l.domain, claimant, period, amount }
  require (verifyProof claim.leaf proof commitment.root) (.invalidProof claimant period)
  require (amount ≤ l.remaining period)
    (.insufficientPeriodFund period amount (l.remaining period))

/-- What was lost in a transfer is within the limit, in hundredths of a percent of what was sent.
Without a loss there is nothing to check. -/
def checkSlippage (l : Ledger τ) (receipt : TransferReceipt) : Result Unit :=
  let shortfall := receipt.shortfall
  if shortfall = 0 then .ok ()
  else do
    let most := l.claimPolicy.maxSlippageBps
    let scaled ← orRefuse (.overflow "slippage") (Word.ofNat? (shortfall.val * bpsDenominator))
    let allowed ← orRefuse (.overflow "slippage") (Word.ofNat? (receipt.sent.val * most.val))
    require (scaled ≤ (allowed : Amount))
      (.slippageTooHigh (scaled.quot (receipt.sent.greatest 1)) most)

/-- Marks a claim as paid and reserves its amount, before the token is asked. If there is too little
for it the mark is taken back. -/
def reserve (l : Ledger τ) (claimant : Address) (entry : Reservation) : Outcome τ Unit :=
  let (period, amount) := entry
  match l.registry.mark claimant period with
  | .error e => (.error e, l)
  | .ok registry =>
    let (reserved, funds) := l.funds.reserveClaim period amount
    match reserved with
    | .error e => (.error e, { l with funds, registry := registry.unmark claimant period })
    | .ok () => (.ok (), { l with funds, registry })

/-- Takes back the marks and reservations of a payout, whose transfer failed or was taken back. -/
def rollBack (l : Ledger τ) (claimant : Address) (reserved : List Reservation) : Ledger τ :=
  reserved.foldl (fun l (period, amount) =>
    { l with
      funds := l.funds.releaseClaim period amount
      registry := l.registry.unmark claimant period }) l

/-- Marks and reserves one claim after the other. When one is refused, those before it are taken
back. -/
def reserveAll (l : Ledger τ) (claimant : Address) (done : List Reservation) :
    List Reservation → Outcome τ Unit
  | [] => (.ok (), l)
  | entry :: rest =>
    match l.reserve claimant entry with
    | (.error e, l) => (.error e, l.rollBack claimant done)
    | (.ok (), l) => l.reserveAll claimant (done ++ [entry]) rest

/-- Shares of `shortfall` in proportion to the amounts, rounded down, except for the last, which
takes what the others leave. `assigned` has been given away before. -/
def apportionFrom (shortfall total assigned : Amount) : List Amount → Result (List Amount)
  | [] => .ok []
  | [_] => .ok [shortfall.satSub assigned]
  | amount :: rest => do
    let product ← orRefuse (.overflow "claim batch apportion") (shortfall.mul? amount)
    let loss := product.quot (total.greatest 1)
    let losses ← apportionFrom shortfall total (assigned.satAdd loss) rest
    return loss :: losses

/-- Splits the loss of one transfer over the claims that it paid, in proportion to their amounts.
The shares add up to the loss. -/
def apportion (shortfall : Amount) (amounts : List Amount) (total : Amount) :
    Result (List Amount) :=
  apportionFrom shortfall total 0 amounts

/-- All of the loss for the last claim, nothing for the others. This is how the loss of a payout
that stands is split when its shares cannot be computed. -/
def lastTakesAll (shortfall : Amount) (amounts : List Amount) : List Amount :=
  (amounts.drop 1).map (fun _ => 0) ++ (amounts.take 1).map fun _ => shortfall

/-- Books losses with the periods that they belong to. Where there is no room for one it is left
out. -/
def bookLosses (funds : FundBook) (losses : List (PeriodId × Amount)) : FundBook :=
  losses.foldl (fun funds (period, loss) =>
    if loss = 0 then funds
    else match funds.recordPrecisionLoss period loss with
      | (_, funds) => funds) funds

/-- Lets a payout stand that should have been taken back: its commitments are closed, its claims
stay marked, and what was lost is booked. -/
def keepPayout (l : Ledger τ) (claimant : Address) (reserved : List Reservation)
    (receipt : TransferReceipt) : Ledger τ :=
  let amounts := reserved.map Prod.snd
  let total := amounts.foldl Word.satAdd 0
  let losses := match apportion receipt.shortfall amounts total with
    | .ok losses => losses
    | .error _ => lastTakesAll receipt.shortfall amounts
  { l with
    funds := bookLosses l.funds ((reserved.map Prod.fst).zip losses)
    commits := reserved.foldl (fun commits (period, _) => commits.remove claimant period) l.commits }

/-- Takes back a transfer and the reservations behind it because of `cause`. When the token refuses,
the payout stands and its refusal is the answer. -/
def abortAfterTransfer {α : Type} [PayoutToken τ] (l : Ledger τ) (claimant : Address)
    (reserved : List Reservation) (receipt : TransferReceipt) (cause : Error) : Outcome τ α :=
  let (reverted, token) := PayoutToken.revert l.token receipt
  let l := { l with token }
  match reverted with
  | .ok () => (.error cause, l.rollBack claimant reserved)
  | .error e => (.error e, l.keepPayout claimant reserved receipt)

end Settlement.Ledger
