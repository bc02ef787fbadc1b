import Settlement.Proofs.Ledger.Timing

namespace Settlement.Ledger

variable {τ : Type} [PayoutToken τ]

/-- What arrives of a deposit, if the fund of the period has room for it. -/
def arriving (l : Ledger τ) (caller : Address) (period : PeriodId) (amount : Amount) :
    Result Amount := do
  let received ← (PayoutToken.collect l.token caller amount).1
  let _ ← orRefuse (.overflow "period deposit") ((l.periodFund period).deposited.add? received)
  return received

/-- What a sweep moves, if the period was not swept before. -/
def leaving (l : Ledger τ) (period : PeriodId) (treasury : Address) : Result Amount :=
  if (l.periodFund period).isSwept then .error (.alreadySwept period)
  else if l.remaining period = 0 then .ok (l.remaining period)
  else
    (PayoutToken.transfer l.token treasury (l.remaining period)).1.map fun _ => l.remaining period

/-- What the movement of money comes to once all checks have passed. -/
def movement (l : Ledger τ) (caller : Address) : Request → Verdict
  | .deposit period amount => (l.arriving caller period amount).verdict
  | .sweepPeriod period treasury => (l.leaving period treasury).verdict
  | .revealClaim entry => Result.verdict (l.payOut caller [entry.reservation] entry.amount).1
  | .revealClaimBatch periods amounts _ _ =>
    Result.verdict (l.payOut caller (periods.zip amounts) ((sum? amounts).getD 0)).1
  | _ => .passed

/-- The checks of a request, and what becomes of the money that it moves. They are listed in the
order in which they are made, since the first that fails is the answer. -/
def checks (l : Ledger τ) (caller : Address) (request : Request) : List Check :=
  match request with
  | .advancePeriod => (l.checkOperator caller).check :: l.era.advanceChecks
  | .setFeeSchedule schedule =>
    [(l.governance.checkAuthority caller).check, (l.era.setFeeSchedule schedule).check]
  | .deposit period amount =>
    l.depositChecks caller period amount ++ (l.movement caller request).checks
  | .postCommitment period _ =>
    (l.checkOperator caller).check :: .timed (.given (l.era.isClosed period)) ::
      l.commitments.postChecks l.governance.policy period
  | .disputeCommitment period =>
    (l.governance.checkGuardian caller).check ::
      l.commitments.disputeChecks l.governance.policy caller period
  | .replaceCommitment period _ =>
    (l.checkOperator caller).check :: l.commitments.replaceChecks period
  | .sweepPeriod period treasury =>
    l.sweepChecks caller period treasury ++ (l.movement caller request).checks
  | .commitClaim period _ =>
    [.timed (.given (l.era.isClosed period)), .settled (l.commitments.contains period),
      (l.registry.check caller period).check]
  | .revealClaim entry =>
    (l.revealChecks caller entry ++
      (l.halt.checkNotHalted.check :: l.claimChecks caller entry)) ++
    (l.movement caller request).checks
  | .revealClaimBatch periods amounts nonces proofs =>
    match ClaimEntry.ofLists periods amounts nonces proofs with
    | .error _ => [.settled false]
    | .ok entries =>
      (entries.flatMap (l.revealChecks caller) ++
        (l.halt.checkNotHalted.check :: (l.checkClaimBatch entries).check ::
          entries.flatMap (l.claimChecks caller))) ++
      (l.movement caller request).checks
  | .halt => [(l.governance.checkAuthority caller).check]
  | .unhalt =>
    [if l.governance.guardianEverConfigured then (l.governance.checkGuardian caller).check
      else (l.governance.checkAuthority caller).check]
  | .setGuardian guardian =>
    [(l.governance.checkAuthority caller).check, .settled (¬ guardian.isZero)]
  | .proposeAuthority address =>
    [(l.governance.checkAuthority caller).check, .settled (¬ address.isZero)]
  | .acceptAuthority => [.settled (l.governance.pendingAuthority = some caller)]
  | .requestStrikeReset => [(l.governance.checkGuardian caller).check]
  | .executeStrikeReset => l.governance.resetChecks caller
  | .designateRecovery address =>
    [(l.governance.checkGuardian caller).check, .settled (¬ address.isZero), l.governance.silence]
  | .claimRecovery => l.governance.recoveryChecks caller
  | .recordOperations count => [(l.era.record count).check]

section handle

variable {l : Ledger τ} {ctx : CallContext}

theorem fst_deposit (period : PeriodId) (amount : Amount) : (l.deposit ctx period amount).1 =
    (l.checkDeposit ctx period amount >>= fun _ => l.arriving ctx.caller period amount) := by
  unfold deposit arriving
  cases l.checkDeposit ctx period amount with
  | error e => rfl
  | ok _ =>
    obtain ⟨collected, token⟩ := PayoutToken.collect l.token ctx.caller amount
    cases collected with
    | error e => rfl
    | ok received =>
      cases htotal : (l.funds.fund period).deposited.add? received with
      | none =>
        simp only [FundBook.recordDeposit_eq_of_no_room htotal, Result.ok_bind, periodFund, htotal]
        rfl
      | some total =>
        simp only [FundBook.recordDeposit_eq htotal, Result.ok_bind, periodFund, htotal]
        rfl

theorem fst_sweepPeriod (period : PeriodId) (treasury : Address) :
    (l.sweepPeriod ctx period treasury).1 =
      (l.checkSweep ctx period treasury >>= fun _ => l.leaving period treasury) := by
  unfold sweepPeriod leaving
  cases l.checkSweep ctx period treasury with
  | error e => rfl
  | ok _ =>
    rw [Result.ok_bind]
    cases hopen : (l.funds.fund period).isSwept with
    | true =>
      have hopen' : (l.periodFund period).isSwept = true := hopen
      simp only [FundBook.recordSweep_eq_of_isSwept hopen, hopen', if_pos]
    | false =>
      have hopen' : (l.periodFund period).isSwept = false := hopen
      simp only [FundBook.recordSweep_eq hopen, hopen', Bool.false_eq_true, if_false]
      change _ = if (l.funds.fund period).remaining = 0 then _ else _
      split
      · rfl
      · change _ = Except.map _
          (PayoutToken.transfer l.token treasury (l.funds.fund period).remaining).1
        cases PayoutToken.transfer l.token treasury (l.funds.fund period).remaining with
        | mk paid token =>
          cases paid with
          | _ => rfl

theorem fst_revealClaim (entry : ClaimEntry) : (l.revealClaim ctx entry).1 =
    (l.admitOne ctx entry >>= fun _ =>
      (l.payOut ctx.caller [entry.reservation] entry.amount).1.map
        (claimReceipt ctx.caller entry)) := by
  rw [revealClaim_eq]
  cases l.admitOne ctx entry with
  | _ => rfl

theorem fst_revealEntries (entries : List ClaimEntry) : (l.revealEntries ctx entries).1 =
    (l.admitAll ctx entries >>= fun total =>
      (l.payOut ctx.caller (entries.map ClaimEntry.reservation) total).1.map
        (batchReceipt ctx.caller entries)) := by
  rw [revealEntries_eq]
  cases l.admitAll ctx entries with
  | _ => rfl

theorem verdict_revealClaim (entry : ClaimEntry) :
    Result.verdict (l.revealClaim ctx entry).1 =
      judge ctx.now ctx.block (l.checks ctx.caller (.revealClaim entry)) := by
  rw [fst_revealClaim]
  refine Result.verdict_bind verdict_admitOne fun _ _ => ?_
  rw [Result.verdict_map, judge_checks]
  rfl

theorem verdict_revealClaimBatch (periods : List PeriodId) (amounts : List Amount)
    (nonces : List Digest) (proofs : List (List Digest)) :
    Result.verdict (l.revealClaimBatch ctx periods amounts nonces proofs).1 =
      judge ctx.now ctx.block
        (l.checks ctx.caller (.revealClaimBatch periods amounts nonces proofs)) := by
  unfold revealClaimBatch checks
  cases hentries : ClaimEntry.ofLists periods amounts nonces proofs with
  | error e =>
    have he : e.isTemporal = false := ClaimEntry.static_ofLists _ _ _ _ e hentries
    simp only [hentries, Result.verdict, he]
    rfl
  | ok entries =>
    simp only [hentries]
    rw [fst_revealEntries]
    refine Result.verdict_bind verdict_admitAll fun total htotal => ?_
    have hsum : sum? amounts = some total := by
      rw [← (ClaimEntry.ofLists_eq_ok_iff.1 hentries).2.1]
      exact (admitAll_eq_ok_iff.1 htotal).2.2.1.sum
    rw [Result.verdict_map, judge_checks, movement, hsum,
      ClaimEntry.map_reservation_of_ofLists hentries]
    rfl

/-- What a request comes to is what its checks come to, and then the movement of money, which does
not ask for the time. -/
theorem verdict_handle (request : Request) : Result.verdict (l.handle ctx request).1 =
    judge ctx.now ctx.block (l.checks ctx.caller request) := by
  have hauthority : (l.governance.checkAuthority ctx.caller).verdict =
      judge ctx.now ctx.block [(l.governance.checkAuthority ctx.caller).check] :=
    Result.verdict_of_static (Governance.static_checkAuthority _)
  have hguardian : (l.governance.checkGuardian ctx.caller).verdict =
      judge ctx.now ctx.block [(l.governance.checkGuardian ctx.caller).check] :=
    Result.verdict_of_static (Governance.static_checkGuardian _)
  have hoperator : (l.checkOperator ctx.caller).verdict =
      judge ctx.now ctx.block [(l.checkOperator ctx.caller).check] :=
    Result.verdict_of_static static_checkOperator
  have hclosed (period : PeriodId) : (l.checkClosed period).verdict =
      judge ctx.now ctx.block [.timed (.given (l.era.isClosed period))] :=
    Result.verdict_require rfl Iff.rfl
  cases request with
  | advancePeriod =>
    refine verdict_commitIf.trans (Result.verdict_cons hoperator fun _ _ => ?_)
    exact Result.verdict_bind_of_passed Era.verdict_advance fun _ _ => rfl
  | setFeeSchedule schedule =>
    refine verdict_commitIf.trans (Result.verdict_cons hauthority fun _ _ => ?_)
    exact Result.verdict_bind_of_passed (Result.verdict_of_static (Era.static_setFeeSchedule _ _))
      fun _ _ => rfl
  | deposit period amount =>
    refine (Result.verdict_map _ _).trans ?_
    rw [fst_deposit]
    exact Result.verdict_bind verdict_checkDeposit fun _ _ => (judge_checks _).symm
  | postCommitment period root =>
    refine verdict_commitIf.trans (Result.verdict_cons hoperator fun _ _ => ?_)
    refine Result.verdict_cons (hclosed period) fun _ _ => ?_
    exact Result.verdict_bind_of_passed CommitmentBook.verdict_post fun _ _ => rfl
  | disputeCommitment period =>
    refine verdict_commitIf.trans (Result.verdict_cons hguardian fun _ _ => ?_)
    exact Result.verdict_bind_of_passed CommitmentBook.verdict_dispute fun _ _ => rfl
  | replaceCommitment period root =>
    refine verdict_commitIf.trans (Result.verdict_cons hoperator fun _ _ => ?_)
    exact Result.verdict_bind_of_passed CommitmentBook.verdict_replace fun _ _ => rfl
  | sweepPeriod period treasury =>
    refine (Result.verdict_map _ _).trans ?_
    rw [fst_sweepPeriod]
    exact Result.verdict_bind verdict_checkSweep fun _ _ => (judge_checks _).symm
  | commitClaim period digest =>
    have hunclaimed : (l.registry.check ctx.caller period).Static := Result.static_require rfl
    refine verdict_commitIf.trans (Result.verdict_cons (hclosed period) fun _ _ => ?_)
    refine Result.verdict_cons (Result.verdict_require_settled rfl Bool.decide_eq_true)
      fun _ _ => ?_
    exact Result.verdict_bind_of_passed (Result.verdict_of_static hunclaimed) fun _ _ => rfl
  | revealClaim entry => exact (Result.verdict_map _ _).trans (verdict_revealClaim entry)
  | revealClaimBatch periods amounts nonces proofs =>
    exact (Result.verdict_map _ _).trans (verdict_revealClaimBatch periods amounts nonces proofs)
  | halt =>
    refine verdict_commitIf.trans (Result.verdict_bind_of_passed ?_ fun _ _ => rfl)
    exact Result.verdict_bind_of_passed hauthority fun _ _ => rfl
  | unhalt =>
    unfold checks
    refine verdict_commitIf.trans (Result.verdict_bind_of_passed ?_ fun _ _ => rfl)
    unfold HaltSwitch.unhalt
    split
    · exact Result.verdict_bind_of_passed hguardian fun _ _ => rfl
    · exact Result.verdict_bind_of_passed hauthority fun _ _ => rfl
  | setGuardian guardian =>
    refine verdict_govern.trans (Result.verdict_cons hauthority fun _ _ => ?_)
    exact Result.verdict_bind_of_passed (Result.verdict_require_settled rfl rfl) fun _ _ => rfl
  | proposeAuthority address =>
    refine verdict_govern.trans (Result.verdict_cons hauthority fun _ _ => ?_)
    exact Result.verdict_bind_of_passed (Result.verdict_require_settled rfl rfl) fun _ _ => rfl
  | acceptAuthority =>
    refine verdict_govern.trans ?_
    exact Result.verdict_bind_of_passed (Result.verdict_require_settled rfl rfl) fun _ _ => rfl
  | requestStrikeReset =>
    exact verdict_govern.trans (Result.verdict_bind_of_passed hguardian fun _ _ => rfl)
  | executeStrikeReset => exact verdict_govern.trans Governance.verdict_executeStrikeReset
  | designateRecovery address => exact verdict_govern.trans Governance.verdict_designateRecovery
  | claimRecovery => exact verdict_govern.trans Governance.verdict_claimRecovery
  | recordOperations count =>
    refine verdict_commitIf.trans (Result.verdict_bind_of_passed ?_ fun _ _ => rfl)
    exact Result.verdict_of_static (Era.static_record _ _)

end handle

end Settlement.Ledger
