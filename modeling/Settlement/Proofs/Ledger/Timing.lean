import Settlement.Proofs.Commitment
import Settlement.Proofs.Gate
import Settlement.Proofs.Ledger.Effect

namespace Settlement

/-- A check for a refusal that does not depend on the time. What a chain of checks comes to is what
its gates and its settled facts come to, in the order in which they are made; nothing else about it
depends on when it is made. -/
def Result.check {α : Type} (r : Result α) : Check := .settled r.isOk

/-- The gates of the current period: it has lasted its minimum duration, and is not overdue where
that blocks it. -/
def Era.advanceChecks (e : Era) : List Check :=
  [.timed (.lasted e.startedAt e.policy.minPeriodDuration),
    .settled (e.current.number < e.policy.maxPeriod), .settled e.current.next?.isSome,
    .timed (if e.policy.overduePolicy = .block
      then .within e.startedAt e.policy.maxPeriodDuration else .given true)]

namespace CommitmentBook

variable (b : CommitmentBook)

/-- The gates of a posting: a root that is already posted and undisputed may be posted again when
the time for objections is over. -/
def postChecks (recovery : RecoveryPolicy) (period : PeriodId) : List Check :=
  match b.get? period with
  | none => []
  | some old => [.settled (¬ old.isDisputed), .timed (.since (old.objectionEnd recovery))]

/-- The gates of an objection: it comes in time, and the guardian has not objected just before. -/
def disputeChecks (recovery : RecoveryPolicy) (guardian : Address) (period : PeriodId) :
    List Check :=
  match b.get? period with
  | none => [.settled false]
  | some c =>
    [.settled (¬ c.isDisputed), .timed (.before (c.objectionEnd recovery)),
      .timed (match b.lastDisputeBy.get? guardian with
        | some last => .since (last.after recovery.disputeCooldown)
        | none => .given true)]

/-- The gates of a replacement: the dispute has lasted for the resolution delay. -/
def replaceChecks (period : PeriodId) : List Check :=
  match b.get? period with
  | none => [.settled false]
  | some c =>
    match c.dispute with
    | none => [.settled false]
    | some raised => [.timed (.since raised.resolveNotBefore)]

/-- The gates of a claim against the root of its period: the claim delay is over and the deadline is
not. -/
def claimableChecks (claims : ClaimPolicy) (period : PeriodId) : List Check :=
  match b.get? period with
  | none => [.settled false]
  | some c =>
    [.settled (¬ c.isDisputed), .timed (.since (c.postedAt.after claims.claimDelay)),
      .timed (.upTo c.claimDeadline)]

end CommitmentBook

namespace Governance

variable (g : Governance)

/-- The gate that opens when the authority has been silent for the liveness window. -/
def silence : Check := .timed (.since (g.lastAuthorityAction.after g.policy.livenessWindow))

/-- The gates of a reset: it was asked for, a reset delay ago. -/
def resetChecks (caller : Address) : List Check :=
  [(g.checkGuardian caller).check,
    .timed (match g.strikeResetRequestedAt with
      | some requested => .since (requested.after g.policy.strikeResetDelay)
      | none => .given false)]

/-- The gates of a takeover by the named successor, who waits for a liveness window from the naming,
too. -/
def recoveryChecks (caller : Address) : List Check :=
  match g.recovery.filter (·.address = caller) with
  | none => [.settled false]
  | some named =>
    [g.silence, .timed (.since (named.designatedAt.after g.policy.livenessWindow))]

end Governance

theorem Era.static_record (e : Era) (count : Count) : (e.record count).Static := by
  refine (Result.static_orRefuse rfl _).bind fun _ => ?_
  exact (Result.static_orRefuse rfl _).bind fun _ => Result.static_ok _

theorem Era.static_setFeeSchedule (e : Era) (schedule : FeeSchedule) :
    (e.setFeeSchedule schedule).Static := by
  have hvalid : schedule.validate.Static := by
    refine (Result.static_require rfl).bind fun _ => ?_
    exact (Result.static_require rfl).bind fun _ => Result.static_require rfl
  exact hvalid.bind fun _ => Result.static_ok _

theorem Era.static_batchFees (e : Era) (count : Count) : (e.batchFees count).Static := by
  have hfee : (e.periodFee e.current).Static := by
    unfold Era.periodFee
    split
    · exact Result.static_orRefuse rfl _
    · exact Result.static_orRefuse rfl _
  exact hfee.bind fun _ => Result.static_orRefuse rfl _

theorem FundBook.static_verifyAll (b : FundBook) : b.verifyAll.Static := by
  refine Result.static_forM fun period => ?_
  unfold FundBook.verify
  split
  · exact Result.static_ok ()
  · exact Result.static_require rfl

/-- Whether the lists of a batch are of one length has nothing to do with the time. -/
theorem ClaimEntry.static_ofLists (periods : List PeriodId) (amounts : List Amount)
    (nonces : List Digest) (proofs : List (List Digest)) :
    (ClaimEntry.ofLists periods amounts nonces proofs).Static :=
  (Result.static_forM fun _ => Result.static_require rfl).bind fun _ => Result.static_ok _

theorem Era.verdict_advance {e : Era} {now : Timestamp} {block : Count} :
    (e.advance now).verdict = judge now block e.advanceChecks := by
  refine Result.verdict_cons (Result.verdict_require rfl Iff.rfl) fun _ _ => ?_
  refine Result.verdict_cons (Result.verdict_require_settled rfl rfl) fun _ _ => ?_
  refine Result.verdict_cons (Result.verdict_orRefuse rfl _) fun _ _ => ?_
  refine Result.verdict_cons (Result.verdict_require rfl ?_) fun _ _ => rfl
  have hshort : e.policy.maxPeriodDuration < now.since e.startedAt ↔
      ¬ now.since e.startedAt ≤ e.policy.maxPeriodDuration := Nat.not_le.symm
  rw [decide_eq_true_iff, hshort]
  split
  · next hblock => simp [hblock, Gate.Open]
  · next hwarn => simp [hwarn, Gate.Open]

namespace CommitmentBook

variable {b : CommitmentBook} {claims : ClaimPolicy} {recovery : RecoveryPolicy}
  {guardian : Address} {period : PeriodId} {root : Digest} {now : Timestamp} {block : Count}

theorem verdict_post :
    (b.post claims recovery period root now).verdict =
      judge now block (b.postChecks recovery period) := by
  unfold post postChecks
  cases b.get? period with
  | none => rfl
  | some old =>
    refine Result.verdict_cons (Result.verdict_require_settled rfl rfl) fun _ _ => ?_
    exact Result.verdict_cons (Result.verdict_require rfl Iff.rfl) fun _ _ => rfl

theorem verdict_dispute : (b.dispute recovery guardian period now).verdict =
    judge now block (b.disputeChecks recovery guardian period) := by
  unfold dispute disputeChecks
  cases b.get? period with
  | none => rfl
  | some c =>
    rw [Result.orRefuse_some_bind]
    refine Result.verdict_cons (Result.verdict_require_settled rfl rfl) fun _ _ => ?_
    refine Result.verdict_cons (Result.verdict_require rfl Iff.rfl) fun _ _ => ?_
    cases b.lastDisputeBy.get? guardian with
    | none => rfl
    | some last => exact Result.verdict_cons (Result.verdict_require rfl Iff.rfl) fun _ _ => rfl

theorem verdict_replace :
    (b.replace period root now).verdict = judge now block (b.replaceChecks period) := by
  unfold replace replaceChecks
  cases b.get? period with
  | none => rfl
  | some c =>
    rw [Result.orRefuse_some_bind]
    cases hraised : c.dispute with
    | none =>
      simp only [hraised]
      rfl
    | some raised =>
      simp only [hraised]
      rw [Result.orRefuse_some_bind]
      exact Result.verdict_cons (Result.verdict_require rfl Iff.rfl) fun _ _ => rfl

/-- What is asked of the root of a claim comes to what its gates come to. -/
theorem verdict_claimable :
    (b.claimable claims period now).verdict =
      judge now block (b.claimableChecks claims period) := by
  unfold claimable claimableChecks
  cases b.get? period with
  | none => rfl
  | some c =>
    rw [Result.orRefuse_some_bind]
    refine Result.verdict_cons (Result.verdict_require_settled rfl rfl) fun _ _ => ?_
    refine Result.verdict_cons (Result.verdict_require rfl Iff.rfl) fun _ _ => ?_
    exact Result.verdict_cons (Result.verdict_require rfl Iff.rfl) fun _ _ => rfl

end CommitmentBook

namespace Governance

variable {g : Governance} {ctx : CallContext} {address : Address}

theorem static_checkAuthority (caller : Address) : (g.checkAuthority caller).Static :=
  (Result.static_require rfl).bind fun _ => Result.static_require rfl

theorem static_checkGuardian (caller : Address) : (g.checkGuardian caller).Static :=
  Result.static_require rfl

theorem verdict_checkInactive :
    (g.checkInactive ctx).verdict = judge ctx.now ctx.block [g.silence] :=
  Result.verdict_require rfl Iff.rfl

theorem verdict_executeStrikeReset :
    (g.executeStrikeReset ctx).verdict = judge ctx.now ctx.block (g.resetChecks ctx.caller) := by
  unfold executeStrikeReset resetChecks
  refine Result.verdict_cons (Result.verdict_of_static (static_checkGuardian _)) fun _ _ => ?_
  cases g.strikeResetRequestedAt with
  | none => rfl
  | some requested =>
    rw [Result.orRefuse_some_bind]
    exact Result.verdict_cons (Result.verdict_require rfl Iff.rfl) fun _ _ => rfl

theorem verdict_designateRecovery : (g.designateRecovery ctx address).verdict =
    judge ctx.now ctx.block
      [(g.checkGuardian ctx.caller).check, .settled (¬ address.isZero), g.silence] := by
  refine Result.verdict_cons (Result.verdict_of_static (static_checkGuardian _)) fun _ _ => ?_
  refine Result.verdict_cons (Result.verdict_require_settled rfl rfl) fun _ _ => ?_
  exact Result.verdict_cons verdict_checkInactive fun _ _ => rfl

theorem verdict_claimRecovery :
    (g.claimRecovery ctx).verdict = judge ctx.now ctx.block (g.recoveryChecks ctx.caller) := by
  unfold claimRecovery recoveryChecks
  cases g.recovery.filter (·.address = ctx.caller) with
  | none => rfl
  | some named =>
    rw [Result.orRefuse_some_bind]
    refine Result.verdict_cons verdict_checkInactive fun _ _ => ?_
    exact Result.verdict_cons (Result.verdict_require rfl Iff.rfl) fun _ _ => rfl

end Governance

namespace Ledger

variable {τ : Type}

/-- The checks of the commitment behind a claim. The only gate among them goes by the block. -/
def revealChecks (l : Ledger τ) (caller : Address) (entry : ClaimEntry) : List Check :=
  match l.commits.get? caller entry.period with
  | none => [.settled false]
  | some commit =>
    [.timed (.beyond commit.block),
      .settled (Claim.commitment ⟨l.domain, caller, entry.period, entry.amount⟩ entry.nonce =
        commit.digest)]

/-- The checks of a claim against the root of its period. -/
def claimChecks (l : Ledger τ) (caller : Address) (entry : ClaimEntry) : List Check :=
  .settled (entry.amount ≠ 0) :: .settled (l.claimPolicy.minClaimAmount ≤ entry.amount) ::
    .settled (entry.proof.length ≤ l.claimPolicy.maxProofLength.val) ::
    .timed (.given (l.era.isClosed entry.period)) ::
    (l.commitments.claimableChecks l.claimPolicy entry.period ++
    [(l.registry.check caller entry.period).check,
      .settled ((l.commitment? entry.period).any fun c =>
        verifyProof (Claim.leaf ⟨l.domain, caller, entry.period, entry.amount⟩) entry.proof c.root),
      .settled (entry.amount ≤ l.remaining entry.period)])

/-- The checks of a deposit. The interval since the last one is their only gate. -/
def depositChecks (l : Ledger τ) (caller : Address) (period : PeriodId) (amount : Amount) :
    List Check :=
  let fund := l.periodFund period
  [(l.checkOperator caller).check, .settled (amount ≠ 0),
    .settled (¬ l.commitments.contains period),
    .timed (match fund.lastDepositAt with
      | some last => .since (last.after l.claimPolicy.minDepositInterval)
      | none => .given true),
    .settled (fund.deposited.add? amount).isSome,
    .settled ((fund.deposited.add? amount).any (· ≤ l.claimPolicy.maxDepositPerPeriod))]

/-- The checks of a sweep. The delay after the deadline of the claims is the only gate among
them. -/
def sweepChecks (l : Ledger τ) (caller : Address) (period : PeriodId) (treasury : Address) :
    List Check :=
  (l.checkOperator caller).check :: .settled (¬ treasury.isZero) ::
    match l.commitments.sweepOpensAt? l.claimPolicy period with
    | none => [.settled false]
    | some opensAt => [.timed (.since opensAt)]

section part

variable {l : Ledger τ} {ctx : CallContext} {caller : Address} {now : Timestamp} {block : Count}
  {entry : ClaimEntry} {entries : List ClaimEntry}

/-- A request that changes the state if it is granted is granted when its checks say so. -/
theorem verdict_commitIf {α β : Type} {f : α → β} {r : Result (α × Ledger τ)} :
    Result.verdict (Outcome.map f (l.commitIf r)).1 = r.verdict := by
  cases r with
  | _ => rfl

theorem verdict_govern {α : Type} {f : Unit → α} {change : Governance → Result Governance} :
    Result.verdict (Outcome.map f (l.govern change)).1 = (change l.governance).verdict := by
  unfold govern
  rw [verdict_commitIf]
  cases change l.governance with
  | _ => rfl

theorem static_checkNotHalted : l.halt.checkNotHalted.Static := Result.static_require rfl

theorem static_checkOperator : (l.checkOperator caller).Static :=
  (Governance.static_checkAuthority caller).bind fun _ => static_checkNotHalted

/-- The size of a batch has nothing to do with the time, nor has a period that is named twice. -/
theorem static_checkClaimBatch : (l.checkClaimBatch entries).Static := by
  refine (Result.static_require rfl).bind fun _ => (Result.static_require rfl).bind fun _ => ?_
  split
  · rintro _ ⟨⟩
    rfl
  · exact Result.static_orRefuse rfl _

theorem verdict_checkReveal :
    (l.checkReveal ctx entry.period entry.amount entry.nonce).verdict =
      judge ctx.now ctx.block (l.revealChecks ctx.caller entry) := by
  unfold checkReveal CommitBook.checkReveal revealChecks
  cases l.commits.get? ctx.caller entry.period with
  | none => rfl
  | some commit =>
    rw [Result.orRefuse_some_bind]
    refine Result.verdict_cons (Result.verdict_require rfl Iff.rfl) fun _ _ => ?_
    exact Result.verdict_require_settled rfl rfl

theorem verdict_validateClaim :
    (l.validateClaim ctx.caller ctx.now entry.period entry.amount entry.proof).verdict =
      judge ctx.now ctx.block (l.claimChecks ctx.caller entry) := by
  refine Result.verdict_cons (Result.verdict_require_settled rfl rfl) fun _ _ => ?_
  refine Result.verdict_cons (Result.verdict_require_settled rfl rfl) fun _ _ => ?_
  refine Result.verdict_cons (Result.verdict_require_settled rfl rfl) fun _ _ => ?_
  refine Result.verdict_cons (Result.verdict_require rfl Iff.rfl) fun _ _ => ?_
  refine Result.verdict_bind CommitmentBook.verdict_claimable fun c hc => ?_
  have hrow : l.commitment? entry.period = some c := (CommitmentBook.claimable_eq_ok_iff.1 hc).1
  have hstatic : (l.registry.check ctx.caller entry.period).Static := Result.static_require rfl
  rw [hrow, Option.any_some]
  refine Result.verdict_cons (Result.verdict_of_static hstatic) fun _ _ => ?_
  refine Result.verdict_cons (Result.verdict_require_settled rfl Bool.decide_eq_true) fun _ _ => ?_
  exact Result.verdict_require_settled rfl rfl

theorem verdict_checkDeposit {period : PeriodId} {amount : Amount} :
    (l.checkDeposit ctx period amount).verdict =
      judge ctx.now ctx.block (l.depositChecks ctx.caller period amount) := by
  unfold checkDeposit depositChecks
  refine Result.verdict_cons (Result.verdict_of_static static_checkOperator) fun _ _ => ?_
  refine Result.verdict_cons (Result.verdict_require_settled rfl rfl) fun _ _ => ?_
  refine Result.verdict_cons (Result.verdict_require_settled rfl rfl) fun _ _ => ?_
  have hcap : Result.verdict (do
      let total ← orRefuse (.overflow "period deposit")
        ((l.periodFund period).deposited.add? amount)
      require (total ≤ l.claimPolicy.maxDepositPerPeriod)
        (.tooLarge period total l.claimPolicy.maxDepositPerPeriod)) =
      judge ctx.now ctx.block [.settled ((l.periodFund period).deposited.add? amount).isSome,
        .settled (((l.periodFund period).deposited.add? amount).any
          (· ≤ l.claimPolicy.maxDepositPerPeriod))] := by
    refine Result.verdict_cons (Result.verdict_orRefuse rfl _) fun total htotal => ?_
    rw [orRefuse_eq_ok_iff.1 htotal]
    exact Result.verdict_require_settled rfl rfl
  simp only
  cases (l.periodFund period).lastDepositAt with
  | none => exact hcap
  | some last => exact Result.verdict_cons (Result.verdict_require rfl Iff.rfl) fun _ _ => hcap

theorem verdict_checkSweep {period : PeriodId} {treasury : Address} :
    (l.checkSweep ctx period treasury).verdict =
      judge ctx.now ctx.block (l.sweepChecks ctx.caller period treasury) := by
  unfold checkSweep sweepChecks
  refine Result.verdict_cons (Result.verdict_of_static static_checkOperator) fun _ _ => ?_
  refine Result.verdict_cons (Result.verdict_require_settled rfl rfl) fun _ _ => ?_
  cases l.commitments.sweepOpensAt? l.claimPolicy period with
  | none => rfl
  | some opensAt =>
    rw [Result.orRefuse_some_bind]
    exact Result.verdict_require rfl Iff.rfl

/-- A reveal of one claim is asked for its commitment first, then whether there is a halt, then for
the claim. -/
theorem verdict_admitOne : (l.admitOne ctx entry).verdict = judge ctx.now ctx.block
    (l.revealChecks ctx.caller entry ++
      (l.halt.checkNotHalted.check :: l.claimChecks ctx.caller entry)) := by
  refine Result.verdict_bind verdict_checkReveal fun _ _ => ?_
  exact Result.verdict_cons (Result.verdict_of_static static_checkNotHalted) fun _ _ =>
    verdict_validateClaim

/-- A reveal of several claims is asked for all commitments first, and for all claims in the end. -/
theorem verdict_admitAll : (l.admitAll ctx entries).verdict = judge ctx.now ctx.block
    (entries.flatMap (l.revealChecks ctx.caller) ++
      (l.halt.checkNotHalted.check :: (l.checkClaimBatch entries).check ::
        entries.flatMap (l.claimChecks ctx.caller))) := by
  refine Result.verdict_bind (Result.verdict_forM fun _ => verdict_checkReveal) fun _ _ => ?_
  refine Result.verdict_cons (Result.verdict_of_static static_checkNotHalted) fun _ _ => ?_
  refine Result.verdict_cons (Result.verdict_of_static static_checkClaimBatch) fun _ _ => ?_
  exact Result.verdict_bind_of_passed (Result.verdict_forM fun _ => verdict_validateClaim)
    fun _ _ => rfl

theorem timedBy_claimChecks (l : Ledger τ) (caller : Address) (entry : ClaimEntry) :
    TimedBy none (l.claimChecks caller entry) := by
  unfold claimChecks CommitmentBook.claimableChecks
  cases l.commitments.get? entry.period with
  | _ => simp [Result.check, Gate.GoesBy]

theorem timedBy_revealChecks (l : Ledger τ) (caller : Address) (entry : ClaimEntry) :
    TimedBy none (l.revealChecks caller entry) := by
  unfold revealChecks
  cases l.commits.get? caller entry.period with
  | _ => simp [Gate.GoesBy]

end part

end Ledger

end Settlement
