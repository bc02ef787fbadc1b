import Settlement.Proofs.Ledger.Event

namespace Settlement

/-- A movement that a token was asked for, and its answer. -/
inductive Movement
  | collected (source : Address) (amount : Amount) (answer : Result Amount)
  | sent (recipient : Address) (amount : Amount) (answer : Result TransferReceipt)
  | reverted (receipt : TransferReceipt) (answer : Result Unit)

/-- A token with everything that it was asked for, in order. It writes this down itself, so what can
be said about movements needs no second form of the ledger. -/
structure Recorder (τ : Type) where
  token : τ
  movements : List Movement := []

instance {τ : Type} [PayoutToken τ] : PayoutToken (Recorder τ) where
  collect r source amount :=
    let (answer, token) := PayoutToken.collect r.token source amount
    (answer, ⟨token, r.movements ++ [.collected source amount answer]⟩)
  transfer r recipient amount :=
    let (answer, token) := PayoutToken.transfer r.token recipient amount
    (answer, ⟨token, r.movements ++ [.sent recipient amount answer]⟩)
  revert r receipt :=
    let (answer, token) := PayoutToken.revert r.token receipt
    (answer, ⟨token, r.movements ++ [.reverted receipt answer]⟩)

namespace Ledger

variable {σ τ : Type}

/-- The same ledger over another token. The token is the only part that is not the ledger's own. -/
def mapToken (f : σ → τ) (l : Ledger σ) : Ledger τ := { l with token := f l.token }

def Outcome.mapToken {α : Type} (f : σ → τ) (outcome : Outcome σ α) : Outcome τ α :=
  (outcome.1, outcome.2.mapToken f)

/-- A view of a token that is asked for the same movements and gives the same answers. -/
structure TokenView [PayoutToken σ] [PayoutToken τ] (f : σ → τ) : Prop where
  collect : ∀ s who amount, PayoutToken.collect (f s) who amount =
    ((PayoutToken.collect s who amount).1, f (PayoutToken.collect s who amount).2)
  transfer : ∀ s who amount, PayoutToken.transfer (f s) who amount =
    ((PayoutToken.transfer s who amount).1, f (PayoutToken.transfer s who amount).2)
  revert : ∀ s receipt, PayoutToken.revert (f s) receipt =
    ((PayoutToken.revert s receipt).1, f (PayoutToken.revert s receipt).2)

theorem tokenView_recorder [PayoutToken τ] : TokenView (Recorder.token : Recorder τ → τ) :=
  ⟨fun _ _ _ => rfl, fun _ _ _ => rfl, fun _ _ => rfl⟩

section control

variable {f : σ → τ} {l : Ledger σ} {ctx : CallContext}

/-- The same answer over another token, where the state after it is part of the answer. -/
private def mapOk {α : Type} (f : σ → τ) (r : Result (α × Ledger σ)) : Result (α × Ledger τ) :=
  r.map fun accepted => (accepted.1, accepted.2.mapToken f)

private theorem bind_mapOk {α β : Type} {x : Result β} {k : β → Result (α × Ledger σ)}
    {k' : β → Result (α × Ledger τ)} (h : ∀ b, k' b = mapOk f (k b)) :
    (x >>= k') = mapOk f (x >>= k) := by
  cases x with
  | error e => rfl
  | ok b => exact h b

private theorem commitIf_mapOk {α : Type} {r : Result (α × Ledger σ)}
    {r' : Result (α × Ledger τ)} (h : r' = mapOk f r) :
    (l.mapToken f).commitIf r' = Outcome.mapToken f (l.commitIf r) := by
  rw [h]
  cases r with
  | error e => rfl
  | ok accepted => rfl

private theorem advancePeriod_mapToken :
    (l.mapToken f).advancePeriod ctx = Outcome.mapToken f (l.advancePeriod ctx) :=
  commitIf_mapOk (bind_mapOk fun _ => bind_mapOk fun ⟨_, _⟩ => rfl)

private theorem setFeeSchedule_mapToken (schedule : FeeSchedule) :
    (l.mapToken f).setFeeSchedule ctx schedule =
      Outcome.mapToken f (l.setFeeSchedule ctx schedule) :=
  commitIf_mapOk (bind_mapOk fun _ => bind_mapOk fun _ => rfl)

private theorem postCommitment_mapToken (period : PeriodId) (root : Digest) :
    (l.mapToken f).postCommitment ctx period root =
      Outcome.mapToken f (l.postCommitment ctx period root) :=
  commitIf_mapOk (bind_mapOk fun _ => bind_mapOk fun _ => bind_mapOk fun ⟨_, _⟩ => rfl)

private theorem disputeCommitment_mapToken (period : PeriodId) :
    (l.mapToken f).disputeCommitment ctx period =
      Outcome.mapToken f (l.disputeCommitment ctx period) :=
  commitIf_mapOk (bind_mapOk fun _ => bind_mapOk fun _ => rfl)

private theorem replaceCommitment_mapToken (period : PeriodId) (root : Digest) :
    (l.mapToken f).replaceCommitment ctx period root =
      Outcome.mapToken f (l.replaceCommitment ctx period root) :=
  commitIf_mapOk (bind_mapOk fun _ => bind_mapOk fun ⟨_, _⟩ => rfl)

private theorem commitClaim_mapToken (period : PeriodId) (digest : Digest) :
    (l.mapToken f).commitClaim ctx period digest =
      Outcome.mapToken f (l.commitClaim ctx period digest) :=
  commitIf_mapOk (bind_mapOk fun _ => bind_mapOk fun _ => bind_mapOk fun _ => rfl)

private theorem raiseHalt_mapToken :
    (l.mapToken f).raiseHalt ctx = Outcome.mapToken f (l.raiseHalt ctx) :=
  commitIf_mapOk (bind_mapOk fun _ => rfl)

private theorem liftHalt_mapToken :
    (l.mapToken f).liftHalt ctx = Outcome.mapToken f (l.liftHalt ctx) := by
  apply commitIf_mapOk
  apply bind_mapOk
  intro halt
  change Except.ok _ = Except.ok _
  cases hconfigured : l.governance.guardianEverConfigured with
  | true => simp only [mapToken, hconfigured, if_true]
  | false => simp only [mapToken, hconfigured]; rfl

private theorem govern_mapToken (change : Governance → Result Governance) :
    (l.mapToken f).govern change = Outcome.mapToken f (l.govern change) :=
  commitIf_mapOk (bind_mapOk fun _ => rfl)

private theorem recordOperations_mapToken (count : Count) :
    (l.mapToken f).recordOperations count = Outcome.mapToken f (l.recordOperations count) :=
  commitIf_mapOk (bind_mapOk fun _ => rfl)

private theorem map_mapToken {α β : Type} (g : α → β) {outcome : Outcome σ α}
    {outcome' : Outcome τ α} (h : outcome' = Outcome.mapToken f outcome) :
    Outcome.map g outcome' = Outcome.mapToken f (Outcome.map g outcome) := by
  rw [h]
  rfl

end control

section token

variable [PayoutToken σ] [PayoutToken τ] {f : σ → τ} {l : Ledger σ} {ctx : CallContext}

private theorem deposit_mapToken (hf : TokenView f) (period : PeriodId) (amount : Amount) :
    (l.mapToken f).deposit ctx period amount =
      Outcome.mapToken f (l.deposit ctx period amount) := by
  have hcheck : (l.mapToken f).checkDeposit ctx period amount = l.checkDeposit ctx period amount :=
    rfl
  have hcollect : PayoutToken.collect (l.mapToken f).token ctx.caller amount = _ :=
    hf.collect l.token ctx.caller amount
  have hfunds : (l.mapToken f).funds = l.funds := rfl
  unfold deposit
  simp only [hcheck, hcollect, hfunds]
  cases l.checkDeposit ctx period amount with
  | error e => rfl
  | ok _ =>
    obtain ⟨collected, token⟩ := PayoutToken.collect l.token ctx.caller amount
    cases collected with
    | error e => rfl
    | ok received =>
      simp only
      obtain ⟨recorded, funds⟩ := l.funds.recordDeposit period received ctx.now
      cases recorded with
      | error e => rfl
      | ok _ => rfl

private theorem sweepPeriod_mapToken (hf : TokenView f) (period : PeriodId) (treasury : Address) :
    (l.mapToken f).sweepPeriod ctx period treasury =
      Outcome.mapToken f (l.sweepPeriod ctx period treasury) := by
  have hcheck : (l.mapToken f).checkSweep ctx period treasury = l.checkSweep ctx period treasury :=
    rfl
  have htransfer (amount : Amount) :
      PayoutToken.transfer (l.mapToken f).token treasury amount = _ :=
    hf.transfer l.token treasury amount
  have hfunds : (l.mapToken f).funds = l.funds := rfl
  unfold sweepPeriod
  simp only [hcheck, htransfer, hfunds]
  cases l.checkSweep ctx period treasury with
  | error e => rfl
  | ok _ =>
    simp only
    obtain ⟨recorded, funds⟩ := l.funds.recordSweep period ctx.now
    cases recorded with
    | error e => rfl
    | ok amount =>
      simp only
      by_cases hzero : amount = 0
      · simp only [if_pos hzero]
        rfl
      · simp only [if_neg hzero]
        obtain ⟨paid, token⟩ := PayoutToken.transfer l.token treasury amount
        cases paid with
        | error e => rfl
        | ok receipt => rfl

private theorem takeBack_mapToken (hf : TokenView f) {α : Type} (who : Address)
    (reserved : List Reservation) (receipt : TransferReceipt) (cause : Error) (token : σ) :
    (l.mapToken f).takeBack (α := α) who reserved receipt cause (f token) =
      Outcome.mapToken f (l.takeBack who reserved receipt cause token) := by
  unfold takeBack
  rw [hf.revert]
  obtain ⟨reverted, token'⟩ := PayoutToken.revert token receipt
  cases reverted with
  | error e => rfl
  | ok _ => rfl

private theorem payOut_mapToken (hf : TokenView f) (who : Address) (reserved : List Reservation)
    (total : Amount) :
    (l.mapToken f).payOut who reserved total =
      Outcome.mapToken f (l.payOut who reserved total) := by
  have htransfer : PayoutToken.transfer (l.mapToken f).token who total = _ :=
    hf.transfer l.token who total
  have hassess (receipt : TransferReceipt) : (l.mapToken f).assess reserved total receipt =
      l.assess reserved total receipt := rfl
  unfold payOut
  simp only [htransfer, hassess]
  obtain ⟨paid, token⟩ := PayoutToken.transfer l.token who total
  cases paid with
  | error e => rfl
  | ok receipt =>
    simp only
    cases l.assess reserved total receipt with
    | error cause => exact takeBack_mapToken hf who reserved receipt cause token
    | ok losses => rfl

private theorem revealClaim_mapToken (hf : TokenView f) (entry : ClaimEntry) :
    (l.mapToken f).revealClaim ctx entry = Outcome.mapToken f (l.revealClaim ctx entry) := by
  have hpassed : (l.mapToken f).admitOne ctx entry = l.admitOne ctx entry := rfl
  rw [revealClaim_eq, revealClaim_eq, hpassed]
  cases l.admitOne ctx entry with
  | error e => rfl
  | ok _ => simp only [payOut_mapToken hf, Outcome.mapToken, Outcome.map]

private theorem revealClaimBatch_mapToken (hf : TokenView f) (periods : List PeriodId)
    (amounts : List Amount) (nonces : List Digest) (proofs : List (List Digest)) :
    (l.mapToken f).revealClaimBatch ctx periods amounts nonces proofs =
      Outcome.mapToken f (l.revealClaimBatch ctx periods amounts nonces proofs) := by
  unfold revealClaimBatch
  cases ClaimEntry.ofLists periods amounts nonces proofs with
  | error e => rfl
  | ok entries =>
    have hpassed : (l.mapToken f).admitAll ctx entries = l.admitAll ctx entries := rfl
    simp only [revealEntries_eq, hpassed]
    cases l.admitAll ctx entries with
    | error e => rfl
    | ok total => simp only [payOut_mapToken hf, Outcome.mapToken, Outcome.map]

/-- The course of a ledger does not depend on how its token is represented, since nothing that the
ledger does depends on a token other than through its answers. -/
theorem handle_mapToken (hf : TokenView f) (l : Ledger σ) (ctx : CallContext) (request : Request) :
    (l.mapToken f).handle ctx request = Outcome.mapToken f (l.handle ctx request) := by
  cases request with
  | advancePeriod => exact map_mapToken _ advancePeriod_mapToken
  | setFeeSchedule schedule => exact map_mapToken _ (setFeeSchedule_mapToken schedule)
  | deposit period amount => exact map_mapToken _ (deposit_mapToken hf period amount)
  | postCommitment period root => exact map_mapToken _ (postCommitment_mapToken period root)
  | disputeCommitment period => exact map_mapToken _ (disputeCommitment_mapToken period)
  | replaceCommitment period root => exact map_mapToken _ (replaceCommitment_mapToken period root)
  | sweepPeriod period treasury => exact map_mapToken _ (sweepPeriod_mapToken hf period treasury)
  | commitClaim period digest => exact map_mapToken _ (commitClaim_mapToken period digest)
  | revealClaim entry => exact map_mapToken _ (revealClaim_mapToken hf entry)
  | revealClaimBatch periods amounts nonces proofs =>
    exact map_mapToken _ (revealClaimBatch_mapToken hf periods amounts nonces proofs)
  | halt => exact map_mapToken _ raiseHalt_mapToken
  | unhalt => exact map_mapToken _ liftHalt_mapToken
  | setGuardian guardian => exact map_mapToken _ (govern_mapToken _)
  | proposeAuthority address => exact map_mapToken _ (govern_mapToken _)
  | acceptAuthority => exact map_mapToken _ (govern_mapToken _)
  | requestStrikeReset => exact map_mapToken _ (govern_mapToken _)
  | executeStrikeReset => exact map_mapToken _ (govern_mapToken _)
  | designateRecovery address => exact map_mapToken _ (govern_mapToken _)
  | claimRecovery => exact map_mapToken _ (govern_mapToken _)
  | recordOperations count => exact map_mapToken _ (recordOperations_mapToken count)

end token

end Ledger

end Settlement
