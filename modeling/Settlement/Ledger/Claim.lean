import Settlement.Ledger.Payout

namespace Settlement

/-- What became of a claim of one period. What was proven is what was received and what was lost on
the way. -/
structure ClaimReceipt where
  claimant : Address
  period : PeriodId
  /-- What was proven and taken from the fund of the period. -/
  amount : Amount
  /-- What the claimant got. -/
  received : Amount
  precisionLoss : Amount
deriving DecidableEq

/-- What became of a claim of several periods, which were paid by one transfer. -/
structure BatchClaimReceipt where
  claimant : Address
  claims : List ClaimReceipt
  sent : Amount
  received : Amount
deriving DecidableEq

/-- One claim of several: what is revealed about it, and the proof. -/
structure ClaimEntry where
  period : PeriodId
  amount : Amount
  nonce : Digest
  proof : List Digest
deriving DecidableEq

/-- Puts the parts of several claims together, which are given as lists of equal length. The first
list of another length is reported. -/
def ClaimEntry.ofLists (periods : List PeriodId) (amounts : List Amount) (nonces : List Digest)
    (proofs : List (List Digest)) : Result (List ClaimEntry) := do
  let expected := periods.length
  [amounts.length, nonces.length, proofs.length].forM fun actual =>
    require (actual = expected) (.lengthMismatch expected actual)
  return (periods.zip (amounts.zip (nonces.zip proofs))).map fun (period, amount, nonce, proof) =>
    { period, amount, nonce, proof }

namespace Ledger

variable {τ : Type}

/-- Commits the caller to a claim, by a digest. The period has to be closed and its root posted, but
the commitment is possible during a halt and a dispute. -/
def commitClaim (l : Ledger τ) (ctx : CallContext) (period : PeriodId) (digest : Digest) :
    Outcome τ Unit :=
  l.commitIf do
    l.checkClosed period
    require (l.commitments.contains period) (.noCommitment period)
    l.registry.check ctx.caller period
    let entry : ClaimCommit := ⟨digest, ctx.block, ctx.now⟩
    return ((), { l with commits := l.commits.commit ctx.caller period entry })

/-- Checks that the caller committed to a claim, in an earlier block and with this nonce. -/
def checkReveal (l : Ledger τ) (ctx : CallContext) (period : PeriodId) (amount : Amount)
    (nonce : Digest) : Result Unit :=
  l.commits.checkReveal { domain := l.domain, claimant := ctx.caller, period, amount } nonce ctx.block

/-- Pays a claim of one period. It is checked without any change first; then it is marked and
reserved, the token is asked for one transfer, and what was lost on the way is booked or is a reason
to take the transfer back. -/
def payClaim [PayoutToken τ] (l : Ledger τ) (ctx : CallContext) (period : PeriodId)
    (amount : Amount) (proof : List Digest) : Outcome τ ClaimReceipt :=
  let claimant := ctx.caller
  match (do l.halt.checkNotHalted; l.validateClaim claimant ctx.now period amount proof) with
  | .error e => (.error e, l)
  | .ok () =>
    match l.reserve claimant (period, amount) with
    | (.error e, l) => (.error e, l)
    | (.ok (), l) =>
      let reserved := [(period, amount)]
      let (paid, token) := PayoutToken.transfer l.token claimant amount
      let l := { l with token }
      match paid with
      | .error e => (.error e, l.rollBack claimant reserved)
      | .ok receipt =>
        match l.checkSlippage receipt with
        | .error e => l.abortAfterTransfer claimant reserved receipt e
        | .ok () =>
          let loss := receipt.shortfall
          let answer : ClaimReceipt :=
            { claimant, period, amount, received := receipt.received, precisionLoss := loss }
          if loss = 0 then (.ok answer, l)
          else
            let (recorded, funds) := l.funds.recordPrecisionLoss period loss
            let l := { l with funds }
            match recorded with
            | .error e => l.abortAfterTransfer claimant reserved receipt e
            | .ok () => (.ok answer, l)

/-- Reveals a claim of one period and pays it. The commitment is closed when the claim was paid. -/
def revealClaim [PayoutToken τ] (l : Ledger τ) (ctx : CallContext) (entry : ClaimEntry) :
    Outcome τ ClaimReceipt :=
  match l.checkReveal ctx entry.period entry.amount entry.nonce with
  | .error e => (.error e, l)
  | .ok () =>
    match l.payClaim ctx entry.period entry.amount entry.proof with
    | (.error e, l) => (.error e, l)
    | (.ok receipt, l) =>
      (.ok receipt, { l with commits := l.commits.remove ctx.caller entry.period })

/-- The first period that occurs a second time, or that was seen before. -/
def duplicate? (seen : List PeriodId) : List PeriodId → Option PeriodId
  | [] => none
  | period :: rest => if period ∈ seen then some period else duplicate? (period :: seen) rest

/-- The sum of the amounts, if it stays within its width. -/
def sum? (amounts : List Amount) : Option Amount := amounts.foldlM Word.add? 0

/-- The number and the periods of the claims are in order, which are different from each other.
Gives the sum of the amounts. -/
def checkClaimBatch (l : Ledger τ) (entries : List ClaimEntry) : Result Amount := do
  require (entries ≠ []) (.invalidClaimBatch "empty batch")
  let most := l.claimPolicy.maxClaimBatch.val
  require (entries.length ≤ most) (.claimBatchTooLarge entries.length most)
  match duplicate? [] (entries.map ClaimEntry.period) with
  | some period => .error (.invalidClaimBatch s!"duplicate {period}")
  | none => orRefuse (.overflow "claim batch total") (sum? (entries.map ClaimEntry.amount))

/-- Books the losses of a paid batch, period by period. When there is no room for one of them, those
before it are taken back and the batch fails. -/
def recordLosses (funds : FundBook) (done : List (PeriodId × Amount)) :
    List (PeriodId × Amount) → Result Unit × FundBook
  | [] => (.ok (), funds)
  | (period, loss) :: rest =>
    if loss = 0 then recordLosses funds (done ++ [(period, loss)]) rest
    else match funds.recordPrecisionLoss period loss with
      | (.error e, funds) =>
        (.error e, done.foldl (fun funds (p, l) => funds.releasePrecisionLoss p l) funds)
      | (.ok (), funds) => recordLosses funds (done ++ [(period, loss)]) rest

/-- Pays claims of several periods in one transfer, all of it or nothing. Every claim is checked
before the first is marked. -/
def payClaimBatch [PayoutToken τ] (l : Ledger τ) (ctx : CallContext) (entries : List ClaimEntry) :
    Outcome τ BatchClaimReceipt :=
  let claimant := ctx.caller
  let checked : Result Amount := do
    l.halt.checkNotHalted
    let total ← l.checkClaimBatch entries
    entries.forM fun e => l.validateClaim claimant ctx.now e.period e.amount e.proof
    return total
  match checked with
  | .error e => (.error e, l)
  | .ok total =>
    let reserved := entries.map fun e => (e.period, e.amount)
    match l.reserveAll claimant [] reserved with
    | (.error e, l) => (.error e, l)
    | (.ok (), l) =>
      let (paid, token) := PayoutToken.transfer l.token claimant total
      let l := { l with token }
      match paid with
      | .error e => (.error e, l.rollBack claimant reserved)
      | .ok receipt =>
        match (do
          l.checkSlippage receipt
          apportion receipt.shortfall (entries.map ClaimEntry.amount) total) with
        | .error e => l.abortAfterTransfer claimant reserved receipt e
        | .ok losses =>
          let (recorded, funds) := recordLosses l.funds [] ((reserved.map Prod.fst).zip losses)
          let l := { l with funds }
          match recorded with
          | .error e => l.abortAfterTransfer claimant reserved receipt e
          | .ok () =>
            let claims := (reserved.zip losses).map fun ((period, amount), loss) =>
              { claimant, period, amount
                received := amount.satSub loss
                precisionLoss := loss : ClaimReceipt }
            (.ok { claimant, claims, sent := receipt.sent, received := receipt.received }, l)

/-- Reveals claims of several periods and pays them. All commitments are checked first and closed in
the end. -/
def revealEntries [PayoutToken τ] (l : Ledger τ) (ctx : CallContext) (entries : List ClaimEntry) :
    Outcome τ BatchClaimReceipt :=
  match entries.forM fun e => l.checkReveal ctx e.period e.amount e.nonce with
  | .error e => (.error e, l)
  | .ok () =>
    match l.payClaimBatch ctx entries with
    | (.error e, l) => (.error e, l)
    | (.ok receipt, l) =>
      let commits := entries.foldl (fun commits e => commits.remove ctx.caller e.period) l.commits
      (.ok receipt, { l with commits })

/-- Reveals claims of several periods, given as lists of their parts, and pays them. -/
def revealClaimBatch [PayoutToken τ] (l : Ledger τ) (ctx : CallContext) (periods : List PeriodId)
    (amounts : List Amount) (nonces : List Digest) (proofs : List (List Digest)) :
    Outcome τ BatchClaimReceipt :=
  match ClaimEntry.ofLists periods amounts nonces proofs with
  | .error e => (.error e, l)
  | .ok entries => l.revealEntries ctx entries

end Ledger

end Settlement
