import Settlement.Proofs.Ledger.Control
import Settlement.Proofs.Ledger.Reveal

namespace Settlement

/-- The claims that a request asks to be paid, as reservations. Those of a batch are paired as far
as both lists go, before it is known whether they are of one length. -/
def Request.claims : Request → List Ledger.Reservation
  | .revealClaim entry => [entry.reservation]
  | .revealClaimBatch periods amounts _ _ => periods.zip amounts
  | _ => []

/-- The same claims with all that is revealed about them. Lists of different lengths make no
entries. -/
def Request.entries : Request → List ClaimEntry
  | .revealClaim entry => [entry]
  | .revealClaimBatch periods amounts nonces proofs =>
    (ClaimEntry.ofLists periods amounts nonces proofs).toOption.getD []
  | _ => []

/-- Whether an answer is the receipt of a payout. Reveals are answered in this way, and nothing else
is. -/
def Answer.isPayout : Answer → Bool
  | .claim _ => true
  | .claims _ => true
  | _ => false

namespace Ledger

variable {τ : Type}

/-- A request that moves no money is for no claim and is not answered with a receipt. -/
theorem Controlled.no_payout {l l' : Ledger τ} {ctx : CallContext} {request : Request}
    {answer : Answer} (h : Controlled l ctx request answer l') :
    request.claims = [] ∧ answer.isPayout = false := by
  cases h with
  | governed hchange =>
    cases request with
    | revealClaim _ | revealClaimBatch _ _ _ _ => cases hchange
    | _ => exact ⟨rfl, rfl⟩
  | _ => exact ⟨rfl, rfl⟩

theorem Outcome.fst_map {α β : Type} (f : α → β) (outcome : Outcome τ α) :
    (Outcome.map f outcome).1 = outcome.1.map f := rfl

theorem Outcome.snd_map {α β : Type} (f : α → β) (outcome : Outcome τ α) :
    (Outcome.map f outcome).2 = outcome.2 := rfl

theorem Outcome.fst_map_eq_error_iff {α β : Type} {f : α → β} {outcome : Outcome τ α} {e : Error} :
    (Outcome.map f outcome).1 = .error e ↔ outcome.1 = .error e := by
  obtain ⟨result, l⟩ := outcome
  cases result with
  | error e' => simp [Outcome.map, Except.map]
  | ok a => simp [Outcome.map, Except.map]

theorem Outcome.map_eq_ok_iff {α β : Type} {f : α → β} {outcome : Outcome τ α} {b : β}
    {l : Ledger τ} : Outcome.map f outcome = (.ok b, l) ↔ ∃ a, outcome = (.ok a, l) ∧ f a = b := by
  obtain ⟨result, l'⟩ := outcome
  cases result with
  | error e => simp [Outcome.map, Except.map]
  | ok a =>
    constructor
    · intro h
      cases h
      exact ⟨a, rfl, rfl⟩
    · rintro ⟨_, ⟨⟩, rfl⟩
      rfl

private theorem Outcome.map_map {α β γ : Type} (f : β → γ) (g : α → β) (outcome : Outcome τ α) :
    Outcome.map f (Outcome.map g outcome) = Outcome.map (f ∘ g) outcome := by
  obtain ⟨result, l⟩ := outcome
  cases result with
  | error e => rfl
  | ok a => rfl

/-- A deposit that passed its checks has room for the amount that it asks for, and so for all that
may arrive of it. -/
theorem exists_add?_of_checkDeposit {l : Ledger τ} {ctx : CallContext} {period : PeriodId}
    {amount received : Amount} (hcheck : l.checkDeposit ctx period amount = .ok ())
    (hle : received ≤ amount) :
    ∃ total, (l.funds.fund period).deposited.add? received = some total := by
  have hroom : ∃ total, (l.funds.fund period).deposited.add? amount = some total := by
    obtain ⟨_, -, hcheck⟩ := Result.bind_eq_ok_iff.1 hcheck
    obtain ⟨_, -, hcheck⟩ := Result.bind_eq_ok_iff.1 hcheck
    obtain ⟨_, -, hcheck⟩ := Result.bind_eq_ok_iff.1 hcheck
    simp only at hcheck
    split at hcheck
    · obtain ⟨_, -, hcheck⟩ := Result.bind_eq_ok_iff.1 hcheck
      obtain ⟨total, htotal, -⟩ := Result.bind_eq_ok_iff.1 hcheck
      exact ⟨total, orRefuse_eq_ok_iff.1 htotal⟩
    · obtain ⟨total, htotal, -⟩ := Result.bind_eq_ok_iff.1 hcheck
      exact ⟨total, orRefuse_eq_ok_iff.1 htotal⟩
  obtain ⟨total, htotal⟩ := hroom
  have hbound := total.isLt
  rw [Word.add?_eq_some_iff] at htotal
  rw [Word.le_def] at hle
  exact ⟨_, Word.add?_of_lt (by omega)⟩

/-- What a reveal asks the token to transfer, if it passes all its checks. -/
def admitted? (l : Ledger τ) (ctx : CallContext) : Request → Option Amount
  | .revealClaim entry => (l.admitOne ctx entry).toOption.map fun _ => entry.amount
  | .revealClaimBatch periods amounts nonces proofs =>
    (ClaimEntry.ofLists periods amounts nonces proofs).toOption.bind fun entries =>
      (l.admitAll ctx entries).toOption
  | _ => none

/-- The claims of an admitted reveal are those of its entries, which have passed both kinds of
checks. -/
private theorem checked_of_admitted? {l : Ledger τ} {ctx : CallContext} {request : Request}
    {total : Amount} (h : l.admitted? ctx request = some total) :
    request.claims = request.entries.map ClaimEntry.reservation ∧
      (∀ e ∈ request.entries, l.ValidReveal ctx e.period e.amount e.nonce) ∧
      ∀ e ∈ request.entries, l.ValidClaim ctx.caller ctx.now e.period e.amount e.proof := by
  cases request with
  | revealClaim entry =>
    obtain ⟨_, hpassed, -⟩ := Option.map_eq_some_iff.1 h
    rw [Result.toOption_eq_some_iff, admitOne_eq_ok_iff] at hpassed
    exact ⟨rfl, List.forall_mem_singleton.2 hpassed.1, List.forall_mem_singleton.2 hpassed.2.2⟩
  | revealClaimBatch periods amounts nonces proofs =>
    obtain ⟨entries, hentries, hpassed⟩ := Option.bind_eq_some_iff.1 h
    rw [Result.toOption_eq_some_iff, admitAll_eq_ok_iff] at hpassed
    have heq : (Request.revealClaimBatch periods amounts nonces proofs).entries = entries :=
      congrArg (Option.getD · []) hentries
    rw [Result.toOption_eq_some_iff] at hentries
    rw [heq]
    exact ⟨(ClaimEntry.map_reservation_of_ofLists hentries).symm, hpassed.1, hpassed.2.2.2⟩
  | _ => cases h

/-- The claims of a reveal that passes its checks are those of its entries, and all of them
valid. -/
theorem valid_of_admitted? {l : Ledger τ} {ctx : CallContext} {request : Request} {total : Amount}
    (h : l.admitted? ctx request = some total) :
    request.claims = request.entries.map ClaimEntry.reservation ∧
      ∀ e ∈ request.entries, l.ValidClaim ctx.caller ctx.now e.period e.amount e.proof := by
  obtain ⟨hclaims, -, hvalid⟩ := checked_of_admitted? h
  exact ⟨hclaims, hvalid⟩

theorem validReveal_of_admitted? {l : Ledger τ} {ctx : CallContext} {request : Request}
    {total : Amount} (h : l.admitted? ctx request = some total) :
    ∀ e ∈ request.entries, l.ValidReveal ctx e.period e.amount e.nonce :=
  (checked_of_admitted? h).2.1

section token

variable [PayoutToken τ]

theorem handle_revealClaim {l : Ledger τ} {ctx : CallContext} {entry : ClaimEntry}
    (hpassed : l.admitOne ctx entry = .ok ()) :
    l.handle ctx (.revealClaim entry) = Outcome.map (Answer.claim ∘ claimReceipt ctx.caller entry)
      (l.payOut ctx.caller [entry.reservation] entry.amount) := by
  change Outcome.map Answer.claim (l.revealClaim ctx entry) = _
  rw [revealClaim_eq, hpassed, ← Outcome.map_map]

theorem step_revealClaim {l : Ledger τ} {ctx : CallContext} {entry : ClaimEntry}
    (hpassed : l.admitOne ctx entry = .ok ()) :
    l.step ⟨ctx, .revealClaim entry⟩ =
      (l.payOut ctx.caller [entry.reservation] entry.amount).2 := by
  rw [step, handle_revealClaim hpassed, Outcome.snd_map]

theorem handle_revealClaimBatch {l : Ledger τ} {ctx : CallContext} {periods : List PeriodId}
    {amounts : List Amount} {nonces : List Digest} {proofs : List (List Digest)}
    {entries : List ClaimEntry} {total : Amount}
    (hentries : ClaimEntry.ofLists periods amounts nonces proofs = .ok entries)
    (hpassed : l.admitAll ctx entries = .ok total) :
    l.handle ctx (.revealClaimBatch periods amounts nonces proofs) =
      Outcome.map (Answer.claims ∘ batchReceipt ctx.caller entries)
        (l.payOut ctx.caller (entries.map ClaimEntry.reservation) total) := by
  change Outcome.map Answer.claims (l.revealClaimBatch ctx periods amounts nonces proofs) = _
  unfold revealClaimBatch
  simp only [hentries]
  rw [revealEntries_eq, hpassed, ← Outcome.map_map]

/-- How a payout ends. The transfer fails, or it is called off and taken back, or it is called off
and the token keeps it, or it stands with its losses counted. -/
inductive PaidOut (l : Ledger τ) (who : Address) (reserved : List Reservation) (total : Amount) :
    Outcome τ (TransferReceipt × List Amount) → Prop
  | unsent {e : Error} {token : τ}
      (hsent : PayoutToken.transfer l.token who total = (.error e, token)) :
      PaidOut l who reserved total (.error e, { l with token })
  | takenBack {receipt : TransferReceipt} {cause : Error} {sent token : τ}
      (hsent : PayoutToken.transfer l.token who total = (.ok receipt, sent))
      (hcause : l.assess reserved total receipt = .error cause)
      (hback : PayoutToken.revert sent receipt = (.ok (), token)) :
      PaidOut l who reserved total (.error cause, { l with token })
  | kept {receipt : TransferReceipt} {cause e : Error} {sent token : τ}
      (hsent : PayoutToken.transfer l.token who total = (.ok receipt, sent))
      (hcause : l.assess reserved total receipt = .error cause)
      (hback : PayoutToken.revert sent receipt = (.error e, token)) :
      PaidOut l who reserved total
        (.error e, l.settle who reserved (shares receipt.shortfall (reserved.map Prod.snd)) token)
  | accepted {receipt : TransferReceipt} {losses : List Amount} {token : τ}
      (hsent : PayoutToken.transfer l.token who total = (.ok receipt, token))
      (hlosses : l.assess reserved total receipt = .ok losses) :
      PaidOut l who reserved total (.ok (receipt, losses), l.settle who reserved losses token)

theorem paidOut (l : Ledger τ) (who : Address) (reserved : List Reservation) (total : Amount) :
    PaidOut l who reserved total (l.payOut who reserved total) := by
  unfold payOut
  cases hsent : PayoutToken.transfer l.token who total with
  | mk paid token =>
    cases paid with
    | error e => exact .unsent hsent
    | ok receipt =>
      cases hassess : l.assess reserved total receipt with
      | ok losses =>
        simp only [hassess]
        exact .accepted hsent hassess
      | error cause =>
        simp only [hassess]
        unfold takeBack
        cases hback : PayoutToken.revert token receipt with
        | mk reverted token' =>
          cases reverted with
          | ok _ => exact .takenBack hsent hassess hback
          | error e => exact .kept hsent hassess hback

/-- The effect of a request, case by case. Most requests leave the funds, the marks and the token
alone; a deposit and a sweep change the fund of one period, and a reveal is one payout. -/
inductive Handled (l : Ledger τ) (ctx : CallContext) : Request → Outcome τ Answer → Prop
  | refused {request : Request} (e : Error) : Handled l ctx request (.error e, l)
  /-- A request that moves no money. -/
  | quiet {request : Request} {answer : Answer} {l' : Ledger τ}
      (hcontrolled : Controlled l ctx request answer l') : Handled l ctx request (.ok answer, l')
  | uncollected {period : PeriodId} {amount : Amount} {e : Error} {token : τ}
      (hcheck : l.checkDeposit ctx period amount = .ok ())
      (hcollect : PayoutToken.collect l.token ctx.caller amount = (.error e, token)) :
      Handled l ctx (.deposit period amount) (.error e, { l with token })
  /-- The token reports more than the fund of the period can count. -/
  | unrecorded {period : PeriodId} {amount received : Amount} {token : τ}
      (hcheck : l.checkDeposit ctx period amount = .ok ())
      (hcollect : PayoutToken.collect l.token ctx.caller amount = (.ok received, token))
      (hfull : (l.funds.fund period).deposited.add? received = none) :
      Handled l ctx (.deposit period amount) (.error (.overflow "period deposit"),
        { l with funds := l.funds.set period (l.funds.fund period), token })
  | deposited {period : PeriodId} {amount received total : Amount} {token : τ}
      (hcheck : l.checkDeposit ctx period amount = .ok ())
      (hcollect : PayoutToken.collect l.token ctx.caller amount = (.ok received, token))
      (htotal : (l.funds.fund period).deposited.add? received = some total) :
      Handled l ctx (.deposit period amount) (.ok (.amount received), Ledger.touch
        { l with
          funds := l.funds.set period
            { l.funds.fund period with deposited := total, lastDepositAt := some ctx.now }
          token } ctx.now)
  /-- Nothing is left of the period, so the token is not asked. -/
  | emptied {period : PeriodId} {treasury : Address}
      (hcheck : l.checkSweep ctx period treasury = .ok ())
      (hopen : (l.funds.fund period).isSwept = false) (hnone : l.remaining period = 0) :
      Handled l ctx (.sweepPeriod period treasury) (.ok (.amount (l.remaining period)), Ledger.touch
        { l with
          funds := l.funds.set period
            { l.funds.fund period with swept := l.remaining period, sweptAt := some ctx.now }
        } ctx.now)
  | unpaid {period : PeriodId} {treasury : Address} {e : Error} {token : τ}
      (hcheck : l.checkSweep ctx period treasury = .ok ())
      (hopen : (l.funds.fund period).isSwept = false) (hsome : l.remaining period ≠ 0)
      (hpaid : PayoutToken.transfer l.token treasury (l.remaining period) = (.error e, token)) :
      Handled l ctx (.sweepPeriod period treasury) (.error e,
        { l with
          funds := l.funds.set period { l.funds.fund period with swept := 0, sweptAt := none }
          token })
  | swept {period : PeriodId} {treasury : Address} {receipt : TransferReceipt} {token : τ}
      (hcheck : l.checkSweep ctx period treasury = .ok ())
      (hopen : (l.funds.fund period).isSwept = false) (hsome : l.remaining period ≠ 0)
      (hpaid : PayoutToken.transfer l.token treasury (l.remaining period) = (.ok receipt, token)) :
      Handled l ctx (.sweepPeriod period treasury) (.ok (.amount (l.remaining period)), Ledger.touch
        { l with
          funds := l.funds.set period
            { l.funds.fund period with swept := l.remaining period, sweptAt := some ctx.now }
          token } ctx.now)
  | claimed {entry : ClaimEntry} (hpassed : l.admitOne ctx entry = .ok ()) :
      Handled l ctx (.revealClaim entry) (Outcome.map (Answer.claim ∘ claimReceipt ctx.caller entry)
        (l.payOut ctx.caller [entry.reservation] entry.amount))
  | batchClaimed {periods : List PeriodId} {amounts : List Amount} {nonces : List Digest}
      {proofs : List (List Digest)} {entries : List ClaimEntry} {total : Amount}
      (hentries : ClaimEntry.ofLists periods amounts nonces proofs = .ok entries)
      (hpassed : l.admitAll ctx entries = .ok total) :
      Handled l ctx (.revealClaimBatch periods amounts nonces proofs)
        (Outcome.map (Answer.claims ∘ batchReceipt ctx.caller entries)
          (l.payOut ctx.caller (entries.map ClaimEntry.reservation) total))

private theorem handled_control {α : Type} {l : Ledger τ} {ctx : CallContext} {request : Request}
    {r : Result (α × Ledger τ)} {f : α → Answer}
    (h : ∀ a l', l.commitIf r = (.ok a, l') → Controlled l ctx request (f a) l') :
    Handled l ctx request (Outcome.map f (l.commitIf r)) := by
  cases r with
  | error e => exact .refused e
  | ok accepted => exact .quiet (h accepted.1 accepted.2 rfl)

/-- A deposit is refused by its checks or the token, or counted in the fund of its period. -/
private theorem handled_deposit (l : Ledger τ) (ctx : CallContext) (period : PeriodId)
    (amount : Amount) : Handled l ctx (.deposit period amount)
      (Outcome.map .amount (l.deposit ctx period amount)) := by
  unfold deposit
  cases hcheck : l.checkDeposit ctx period amount with
  | error e => exact .refused e
  | ok _ =>
    cases hcollect : PayoutToken.collect l.token ctx.caller amount with
    | mk collected token =>
      cases collected with
      | error e => exact .uncollected hcheck hcollect
      | ok received =>
        cases htotal : (l.funds.fund period).deposited.add? received with
        | none =>
          simp only [FundBook.recordDeposit_eq_of_no_room htotal]
          exact .unrecorded hcheck hcollect htotal
        | some total =>
          simp only [FundBook.recordDeposit_eq htotal]
          exact .deposited hcheck hcollect htotal

/-- A sweep is refused by its checks or the token, or takes what is left of its period. -/
private theorem handled_sweep (l : Ledger τ) (ctx : CallContext) (period : PeriodId)
    (treasury : Address) : Handled l ctx (.sweepPeriod period treasury)
      (Outcome.map .amount (l.sweepPeriod ctx period treasury)) := by
  unfold sweepPeriod
  cases hcheck : l.checkSweep ctx period treasury with
  | error e => exact .refused e
  | ok _ =>
    cases hopen : (l.funds.fund period).isSwept with
    | true =>
      simp only [FundBook.recordSweep_eq_of_isSwept hopen]
      exact .refused _
    | false =>
      simp only [FundBook.recordSweep_eq hopen]
      by_cases hnone : (l.funds.fund period).remaining = 0
      · rw [if_pos hnone]
        exact .emptied hcheck hopen hnone
      · rw [if_neg hnone]
        cases hpaid : PayoutToken.transfer l.token treasury (l.funds.fund period).remaining with
        | mk paid token =>
          cases paid with
          | error e =>
            simp only [FundBook.releaseSweep_set]
            exact .unpaid hcheck hopen hnone hpaid
          | ok receipt => exact .swept hcheck hopen hnone hpaid

private theorem handled_reveal (l : Ledger τ) (ctx : CallContext) (entry : ClaimEntry) :
    Handled l ctx (.revealClaim entry) (Outcome.map .claim (l.revealClaim ctx entry)) := by
  rw [revealClaim_eq]
  cases hpassed : l.admitOne ctx entry with
  | error e => exact .refused e
  | ok _ =>
    simp only [Outcome.map_map]
    exact .claimed hpassed

/-- A reveal of several claims is refused by its checks or is one payout of all of them. -/
private theorem handled_revealBatch (l : Ledger τ) (ctx : CallContext) (periods : List PeriodId)
    (amounts : List Amount) (nonces : List Digest) (proofs : List (List Digest)) :
    Handled l ctx (.revealClaimBatch periods amounts nonces proofs)
      (Outcome.map .claims (l.revealClaimBatch ctx periods amounts nonces proofs)) := by
  unfold revealClaimBatch
  cases hentries : ClaimEntry.ofLists periods amounts nonces proofs with
  | error e => exact .refused e
  | ok entries =>
    simp only [revealEntries_eq]
    cases hpassed : l.admitAll ctx entries with
    | error e => exact .refused e
    | ok total =>
      simp only [Outcome.map_map]
      exact .batchClaimed hentries hpassed

/-- Every request has one of these effects. Statements about runs go through these cases once for
each step. -/
theorem handled (l : Ledger τ) (ctx : CallContext) (request : Request) :
    Handled l ctx request (l.handle ctx request) := by
  cases request with
  | advancePeriod => exact handled_control fun _ _ h => controlled_advancePeriod h
  | setFeeSchedule schedule => exact handled_control fun _ _ h => controlled_setFeeSchedule h
  | deposit period amount => exact handled_deposit l ctx period amount
  | postCommitment period root => exact handled_control fun _ _ h => controlled_postCommitment h
  | disputeCommitment period => exact handled_control fun _ _ h => controlled_disputeCommitment h
  | replaceCommitment period root =>
    exact handled_control fun _ _ h => controlled_replaceCommitment h
  | sweepPeriod period treasury => exact handled_sweep l ctx period treasury
  | commitClaim period digest => exact handled_control fun _ _ h => controlled_commitClaim h
  | revealClaim entry => exact handled_reveal l ctx entry
  | revealClaimBatch periods amounts nonces proofs =>
    exact handled_revealBatch l ctx periods amounts nonces proofs
  | halt => exact handled_control fun _ _ h => controlled_raiseHalt h
  | unhalt => exact handled_control fun _ _ h => controlled_liftHalt h
  | setGuardian guardian => exact handled_control fun _ _ h => controlled_govern rfl h
  | proposeAuthority address => exact handled_control fun _ _ h => controlled_govern rfl h
  | acceptAuthority => exact handled_control fun _ _ h => controlled_govern rfl h
  | requestStrikeReset => exact handled_control fun _ _ h => controlled_govern rfl h
  | executeStrikeReset => exact handled_control fun _ _ h => controlled_govern rfl h
  | designateRecovery address => exact handled_control fun _ _ h => controlled_govern rfl h
  | claimRecovery => exact handled_control fun _ _ h => controlled_govern rfl h
  | recordOperations count => exact handled_control fun _ _ h => controlled_recordOperations h

theorem handle_of_admitted? {l : Ledger τ} {ctx : CallContext} {request : Request} {total : Amount}
    (h : l.admitted? ctx request = some total) :
    l.Payable ctx.caller request.claims ∧ IsTotal request.claims total ∧
      ∃ f, l.handle ctx request = Outcome.map f (l.payOut ctx.caller request.claims total) := by
  cases request with
  | revealClaim entry =>
    obtain ⟨_, hpassed, rfl⟩ := Option.map_eq_some_iff.1 h
    rw [Result.toOption_eq_some_iff] at hpassed
    exact ⟨payable_of_admitOne hpassed, isTotal_of_admitOne hpassed, _, handle_revealClaim hpassed⟩
  | revealClaimBatch periods amounts nonces proofs =>
    obtain ⟨entries, hentries, hpassed⟩ := Option.bind_eq_some_iff.1 h
    rw [Result.toOption_eq_some_iff] at hentries hpassed
    have hclaims : (Request.revealClaimBatch periods amounts nonces proofs).claims =
        entries.map ClaimEntry.reservation :=
      (ClaimEntry.map_reservation_of_ofLists hentries).symm
    rw [hclaims]
    exact ⟨payable_of_admitAll hpassed, isTotal_of_admitAll hpassed, _,
      handle_revealClaimBatch hentries hpassed⟩
  | _ => cases h

theorem handle_of_admitted?_eq_none {l : Ledger τ} {ctx : CallContext} {request : Request}
    (h : l.admitted? ctx request = none) (hclaims : request.claims ≠ []) :
    ∃ e, l.handle ctx request = (.error e, l) := by
  have hhandled := handled l ctx request
  generalize l.handle ctx request = outcome at hhandled ⊢
  cases hhandled with
  | refused e => exact ⟨e, rfl⟩
  | quiet hcontrolled => exact absurd hcontrolled.no_payout.1 hclaims
  | claimed hpassed => simp [admitted?, hpassed, Except.toOption] at h
  | batchClaimed hentries hpassed => simp [admitted?, hentries, hpassed, Except.toOption] at h
  | _ => exact absurd rfl hclaims

/-- Without a payout nothing changes about claims and losses, and no receipt is given. -/
structure Unpaid (l : Ledger τ) (outcome : Outcome τ Answer) : Prop where
  claimed : ∀ p, (outcome.2.periodFund p).claimed = (l.periodFund p).claimed
  lost : ∀ p, (outcome.2.periodFund p).precisionLoss = (l.periodFund p).precisionLoss
  registry : outcome.2.registry = l.registry
  answer : ∀ answer, outcome.1 = .ok answer → answer.isPayout = false

theorem unpaid_of_admitted?_eq_none {l : Ledger τ} {ctx : CallContext} {request : Request}
    (h : l.admitted? ctx request = none) : Unpaid l (l.handle ctx request) := by
  have hhandled := handled l ctx request
  generalize l.handle ctx request = outcome at hhandled ⊢
  cases hhandled with
  | refused e => exact ⟨fun _ => rfl, fun _ => rfl, rfl, fun _ h => by cases h⟩
  | @quiet _ answer l' hcontrolled =>
    obtain ⟨hfunds, hregistry, -⟩ := hcontrolled.money
    have hfund (p : PeriodId) : l'.periodFund p = l.periodFund p :=
      congrArg (fun b : FundBook => b.fund p) hfunds
    refine ⟨fun p => congrArg PeriodFund.claimed (hfund p),
      fun p => congrArg PeriodFund.precisionLoss (hfund p), hregistry, fun _ h => ?_⟩
    cases h
    exact hcontrolled.no_payout.2
  | uncollected => exact ⟨fun _ => rfl, fun _ => rfl, rfl, fun _ h => by cases h⟩
  | claimed hpassed => simp [admitted?, hpassed, Except.toOption] at h
  | batchClaimed hentries hpassed => simp [admitted?, hentries, hpassed, Except.toOption] at h
  | unrecorded | unpaid =>
    exact ⟨FundBook.column_set _ rfl, FundBook.column_set _ rfl, rfl, fun _ h => by cases h⟩
  | deposited | emptied | swept =>
    exact ⟨FundBook.column_set _ rfl, FundBook.column_set _ rfl, rfl, fun _ h => by cases h; rfl⟩

end token

end Ledger

end Settlement
