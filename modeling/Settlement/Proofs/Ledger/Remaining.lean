import Settlement.Proofs.Ledger.Succession
import Settlement.Proofs.Ledger.Waiting

namespace Settlement

namespace Error

/-- How long the refusal says to wait, if it says so. A claim after its deadline, for example, is
told nothing about waiting. -/
def remaining? : Error → Option Span
  | claimDelayActive _ remaining => some remaining
  | disputePeriodActive _ remaining => some remaining
  | resolutionDelayActive _ remaining => some remaining
  | disputeCooldown remaining => some remaining
  | tooFrequent _ remaining => some remaining
  | sweepTooEarly _ remaining => some remaining
  | recoveryNotReady remaining => some remaining
  | _ => none

/-- The refusal without the time to wait: what remains is its kind, and the period that it is
about. -/
def untimed : Error → Error
  | claimDelayActive period _ => claimDelayActive period .zero
  | disputePeriodActive period _ => disputePeriodActive period .zero
  | resolutionDelayActive period _ => resolutionDelayActive period .zero
  | disputeCooldown _ => disputeCooldown .zero
  | tooFrequent period _ => tooFrequent period .zero
  | sweepTooEarly period _ => sweepTooEarly period .zero
  | recoveryNotReady _ => recoveryNotReady .zero
  | e => e

theorem remaining?_of_not_isTemporal {e : Error} (h : e.isTemporal = false) :
    e.remaining? = none := by
  cases e <;> first | rfl | simp [isTemporal, code] at h

theorem isSome_remaining?_untimed (e : Error) : e.untimed.remaining?.isSome = e.remaining?.isSome := by
  cases e <;> rfl

end Error

namespace Result

variable {α β : Type} {r : Result α} {f : α → Result β}

/-- No refusal says how long to wait. This is weaker than `Static`, since some temporal refusals do
not say so either. -/
def Silent (r : Result α) : Prop := ∀ e, r = .error e → e.remaining? = none

theorem Static.silent (h : r.Static) : r.Silent :=
  fun e he => Error.remaining?_of_not_isTemporal (h e he)

theorem silent_ok (a : α) : Silent (.ok a : Result α) := nofun

theorem silent_error {e : Error} (he : e.remaining? = none) : Silent (.error e : Result α) := by
  rintro _ ⟨⟩
  exact he

theorem silent_require {condition : Prop} [Decidable condition] {e : Error}
    (he : e.remaining? = none) : (require condition e).Silent := by
  unfold require
  split
  · exact silent_ok ()
  · exact silent_error he

theorem silent_orRefuse {e : Error} (he : e.remaining? = none) (x : Option α) :
    (orRefuse e x).Silent := by
  cases x with
  | some a => exact silent_ok a
  | none => exact silent_error he

theorem Silent.bind (hr : r.Silent) (hf : ∀ a, (f a).Silent) : (r >>= f).Silent := by
  intro e he
  rcases bind_eq_error_iff.1 he with he | ⟨a, -, he⟩
  · exact hr e he
  · exact hf a e he

theorem Silent.map (hr : r.Silent) (f : α → β) : Silent (r.map f) := by
  cases r with
  | ok a => exact silent_ok _
  | error e => exact silent_error (hr e rfl)

end Result

/-- The end of a period is nothing that a refusal says how long to wait for. -/
theorem Era.silent_advance (e : Era) (now : Timestamp) : (e.advance now).Silent := by
  refine (Result.silent_require rfl).bind fun _ => (Result.silent_require rfl).bind fun _ => ?_
  refine (Result.silent_orRefuse rfl _).bind fun _ => ?_
  exact (Result.silent_require rfl).bind fun _ => Result.silent_ok _

/-- The refusals of a token have nothing to do with the time. -/
structure SilentToken (τ : Type) [PayoutToken τ] : Prop where
  collect : ∀ (t : τ) who amount, Result.Silent (PayoutToken.collect t who amount).1
  transfer : ∀ (t : τ) who amount, Result.Silent (PayoutToken.transfer t who amount).1
  revert : ∀ (t : τ) receipt, Result.Silent (PayoutToken.revert t receipt).1

theorem PoolToken.silentToken : SilentToken PoolToken := by
  have hmoved {α : Type} {t : PoolToken} {r : Result (α × PoolToken)} (h : r.Static) :
      Result.Silent (unlessRefused t r).1 := by
    cases r with
    | ok moved => exact Result.silent_ok _
    | error e => exact Result.silent_error (h.silent e rfl)
  refine ⟨fun t who amount => hmoved ?_, fun t who amount => hmoved ?_, fun t receipt => hmoved ?_⟩
  · refine (Result.static_require rfl).bind fun _ => (Result.static_require rfl).bind fun _ => ?_
    exact (Result.static_orRefuse rfl _).bind fun _ => Result.static_ok _
  · refine (Result.static_require rfl).bind fun _ => (Result.static_require rfl).bind fun _ => ?_
    exact (Result.static_orRefuse rfl _).bind fun _ => Result.static_ok _
  · have hback : (t.revert receipt).Static := by
      refine (Result.static_require rfl).bind fun _ => ?_
      exact (Result.static_orRefuse rfl _).bind fun _ => Result.static_ok _
    intro e he
    cases hrevert : t.revert receipt with
    | ok t' =>
      rw [hrevert] at he
      cases he
    | error cause =>
      rw [hrevert] at he
      cases he
      exact hback e hrevert

namespace Ledger

variable {τ α β : Type} {l : Ledger τ} {ctx : CallContext} {checks : List Check} {r : Result α}
  {f : α → Result β} {e : Error} {deadline : Timestamp}

/-- The time up to which a refusal of this kind says to wait. A successor waits from when it was
named; whoever names one, from the last action of the authority. -/
def deadline? (l : Ledger τ) (caller : Address) : Error → Option Timestamp
  | .claimDelayActive period _ =>
    (l.commitments.get? period).map fun c => c.postedAt.after l.claimPolicy.claimDelay
  | .disputePeriodActive period _ =>
    (l.commitments.get? period).map fun c => c.objectionEnd l.governance.policy
  | .resolutionDelayActive period _ =>
    ((l.commitments.get? period).bind Commitment.dispute).map Dispute.resolveNotBefore
  | .disputeCooldown _ =>
    (l.commitments.lastDisputeBy.get? caller).map (·.after l.governance.policy.disputeCooldown)
  | .tooFrequent period _ =>
    (l.periodFund period).lastDepositAt.map (·.after l.claimPolicy.minDepositInterval)
  | .sweepTooEarly period _ => l.commitments.sweepOpensAt? l.claimPolicy period
  | .recoveryNotReady _ =>
    some (((l.governance.recovery.map RecoveryDesignation.designatedAt).getD
      l.governance.lastAuthorityAction).after l.governance.policy.livenessWindow)
  | _ => none

/-- The deadline depends on the kind of refusal alone, not on the time that is told. -/
theorem deadline?_untimed (l : Ledger τ) (caller : Address) (e : Error) :
    l.deadline? caller e.untimed = l.deadline? caller e := by
  cases e <;> rfl

/-- The refusal says to wait up to this deadline, which is still to come and opens one of the
gates. -/
structure Awaits (l : Ledger τ) (ctx : CallContext) (checks : List Check) (e : Error)
    (deadline : Timestamp) : Prop where
  due : l.deadline? ctx.caller e = some deadline
  ahead : ctx.now < deadline
  told : e.remaining? = some (deadline.since ctx.now)
  gate : .timed (.since deadline) ∈ checks

/-- Whatever is said about how long to wait is said of a gate that opens at a deadline. -/
def Tells (l : Ledger τ) (ctx : CallContext) (checks : List Check) (r : Result α) : Prop :=
  ∀ e, r = .error e → e.remaining? ≠ none → ∃ deadline, l.Awaits ctx checks e deadline

section tells

theorem tells_of_silent (h : r.Silent) : l.Tells ctx checks r :=
  fun e he hsome => absurd (h e he) hsome

theorem tells_of_static (h : r.Static) : l.Tells ctx checks r := tells_of_silent h.silent

theorem Tells.bind (hr : l.Tells ctx checks r) (hf : ∀ a, r = .ok a → l.Tells ctx checks (f a)) :
    l.Tells ctx checks (r >>= f) := by
  intro e he
  rcases Result.bind_eq_error_iff.1 he with he | ⟨a, ha, he⟩
  · exact hr e he
  · exact hf a ha e he

theorem Tells.map (hr : l.Tells ctx checks r) (f : α → β) : l.Tells ctx checks (r.map f) := by
  cases r with
  | ok a => exact tells_of_silent (Result.silent_ok _)
  | error e =>
    rintro _ ⟨⟩
    exact hr e rfl

theorem tells_forM {xs : List α} {f : α → Result Unit} (hf : ∀ x ∈ xs, l.Tells ctx checks (f x)) :
    l.Tells ctx checks (xs.forM f) := by
  induction xs with
  | nil => exact tells_of_silent (Result.silent_ok _)
  | cons x xs ih =>
    have hrest := ih fun y hy => hf y (List.mem_cons_of_mem _ hy)
    exact (hf x List.mem_cons_self).bind fun _ _ => hrest

theorem tells_require (hdue : l.deadline? ctx.caller e = some deadline)
    (htold : e.remaining? = some (deadline.since ctx.now))
    (hgate : .timed (.since deadline) ∈ checks) :
    l.Tells ctx checks (require (deadline ≤ ctx.now) e) := by
  unfold require
  split
  · exact tells_of_silent (Result.silent_ok ())
  · next hahead =>
    rintro _ ⟨⟩ -
    exact ⟨deadline, hdue, Int.not_le.1 hahead, htold, hgate⟩

theorem Tells.commitIf {r : Result (α × Ledger τ)} (h : l.Tells ctx checks r) (f : α → β) :
    l.Tells ctx checks (Outcome.map f (l.commitIf r)).1 := by
  cases r with
  | ok done => exact tells_of_silent (Result.silent_ok _)
  | error e =>
    rintro _ ⟨⟩
    exact h e rfl

end tells

section part

variable {entry : ClaimEntry} {entries : List ClaimEntry} {period : PeriodId} {amount : Amount}

theorem tells_checkOperator : l.Tells ctx checks (l.checkOperator ctx.caller) :=
  tells_of_static static_checkOperator

theorem tells_checkClosed : l.Tells ctx checks (l.checkClosed period) :=
  tells_of_silent (Result.silent_require rfl)

theorem tells_checkDeposit (hchecks : l.depositChecks ctx.caller period amount ⊆ checks) :
    l.Tells ctx checks (l.checkDeposit ctx period amount) := by
  refine tells_checkOperator.bind fun _ _ => ?_
  refine (tells_of_static (Result.static_require rfl)).bind fun _ _ => ?_
  refine (tells_of_static (Result.static_require rfl)).bind fun _ _ => ?_
  have hcap : l.Tells ctx checks (do
      let total ← orRefuse (.overflow "period deposit")
        ((l.periodFund period).deposited.add? amount)
      require (total ≤ l.claimPolicy.maxDepositPerPeriod)
        (.tooLarge period total l.claimPolicy.maxDepositPerPeriod)) :=
    tells_of_static ((Result.static_orRefuse rfl _).bind fun _ => Result.static_require rfl)
  simp only
  cases hlast : (l.periodFund period).lastDepositAt with
  | none => exact hcap
  | some last =>
    have hdue (rest : Span) : l.deadline? ctx.caller (.tooFrequent period rest) =
        some (last.after l.claimPolicy.minDepositInterval) := by
      simp [deadline?, hlast]
    refine (tells_require (hdue _) rfl (hchecks ?_)).bind fun _ _ => hcap
    simp [depositChecks, hlast]

theorem tells_checkSweep {treasury : Address}
    (hchecks : l.sweepChecks ctx.caller period treasury ⊆ checks) :
    l.Tells ctx checks (l.checkSweep ctx period treasury) := by
  refine tells_checkOperator.bind fun _ _ => ?_
  refine (tells_of_static (Result.static_require rfl)).bind fun _ _ => ?_
  refine (tells_of_static (Result.static_orRefuse rfl _)).bind fun opensAt hopens => ?_
  have hopens := orRefuse_eq_ok_iff.1 hopens
  exact tells_require hopens rfl (hchecks (by simp [sweepChecks, hopens]))

theorem tells_post {root : Digest}
    (hchecks : l.commitments.postChecks l.governance.policy period ⊆ checks) :
    l.Tells ctx checks
      (l.commitments.post l.claimPolicy l.governance.policy period root ctx.now) := by
  unfold CommitmentBook.post
  cases hrow : l.commitments.get? period with
  | none => exact tells_of_silent (Result.silent_ok _)
  | some old =>
    have hdue (rest : Span) : l.deadline? ctx.caller (.disputePeriodActive period rest) =
        some (old.objectionEnd l.governance.policy) := by
      simp [deadline?, hrow]
    refine (tells_of_static (Result.static_require rfl)).bind fun _ _ => ?_
    refine (tells_require (hdue _) rfl (hchecks ?_)).bind fun _ _ =>
      tells_of_silent (Result.silent_ok _)
    simp [CommitmentBook.postChecks, hrow]

theorem tells_dispute
    (hchecks : l.commitments.disputeChecks l.governance.policy ctx.caller period ⊆ checks) :
    l.Tells ctx checks
      (l.commitments.dispute l.governance.policy ctx.caller period ctx.now) := by
  unfold CommitmentBook.dispute
  refine (tells_of_static (Result.static_orRefuse rfl _)).bind fun c hrow => ?_
  have hrow := orRefuse_eq_ok_iff.1 hrow
  refine (tells_of_static (Result.static_require rfl)).bind fun _ _ => ?_
  refine (tells_of_silent (Result.silent_require rfl)).bind fun _ _ => ?_
  cases hlast : l.commitments.lastDisputeBy.get? ctx.caller with
  | none => exact tells_of_silent (Result.silent_ok _)
  | some last =>
    have hdue (rest : Span) : l.deadline? ctx.caller (.disputeCooldown rest) =
        some (last.after l.governance.policy.disputeCooldown) := by
      simp [deadline?, hlast]
    refine (tells_require (hdue _) rfl (hchecks ?_)).bind fun _ _ =>
      tells_of_silent (Result.silent_ok _)
    simp [CommitmentBook.disputeChecks, hrow, hlast]

theorem tells_replace {root : Digest} (hchecks : l.commitments.replaceChecks period ⊆ checks) :
    l.Tells ctx checks (l.commitments.replace period root ctx.now) := by
  unfold CommitmentBook.replace
  refine (tells_of_static (Result.static_orRefuse rfl _)).bind fun c hrow => ?_
  refine (tells_of_static (Result.static_orRefuse rfl _)).bind fun raised hraised => ?_
  have hrow := orRefuse_eq_ok_iff.1 hrow
  have hraised := orRefuse_eq_ok_iff.1 hraised
  have hdue (rest : Span) : l.deadline? ctx.caller (.resolutionDelayActive period rest) =
      some raised.resolveNotBefore := by
    simp [deadline?, hrow, hraised]
  refine (tells_require (hdue _) rfl (hchecks ?_)).bind fun _ _ =>
    tells_of_silent (Result.silent_ok _)
  simp [CommitmentBook.replaceChecks, hrow, hraised]

theorem tells_claimable (hchecks : l.commitments.claimableChecks l.claimPolicy period ⊆ checks) :
    l.Tells ctx checks (l.commitments.claimable l.claimPolicy period ctx.now) := by
  unfold CommitmentBook.claimable
  refine (tells_of_static (Result.static_orRefuse rfl _)).bind fun c hrow => ?_
  have hrow := orRefuse_eq_ok_iff.1 hrow
  have hdue (rest : Span) : l.deadline? ctx.caller (.claimDelayActive period rest) =
      some (c.postedAt.after l.claimPolicy.claimDelay) := by
    simp [deadline?, hrow]
  refine (tells_of_static (Result.static_require rfl)).bind fun _ _ => ?_
  refine (tells_require (hdue _) rfl (hchecks ?_)).bind fun _ _ => ?_
  · simp [CommitmentBook.claimableChecks, hrow]
  · exact (tells_of_silent (Result.silent_require rfl)).bind fun _ _ =>
      tells_of_silent (Result.silent_ok _)

theorem tells_validateClaim (hchecks : l.claimChecks ctx.caller entry ⊆ checks) :
    l.Tells ctx checks
      (l.validateClaim ctx.caller ctx.now entry.period entry.amount entry.proof) := by
  have hrow : l.commitments.claimableChecks l.claimPolicy entry.period ⊆ checks := by
    intro check hcheck
    apply hchecks
    simp [claimChecks, hcheck]
  refine (tells_of_static (Result.static_require rfl)).bind fun _ _ => ?_
  refine (tells_of_static (Result.static_require rfl)).bind fun _ _ => ?_
  refine (tells_of_static (Result.static_require rfl)).bind fun _ _ => ?_
  refine tells_checkClosed.bind fun _ _ => ?_
  refine (tells_claimable hrow).bind fun _ _ => ?_
  refine (tells_of_static (Result.static_require rfl)).bind fun _ _ => ?_
  refine (tells_of_static (Result.static_require rfl)).bind fun _ _ => ?_
  exact tells_of_static (Result.static_require rfl)

theorem silent_checkReveal :
    (l.checkReveal ctx entry.period entry.amount entry.nonce).Silent := by
  unfold checkReveal CommitBook.checkReveal
  refine (Result.silent_orRefuse rfl _).bind fun _ => ?_
  exact (Result.silent_require rfl).bind fun _ => Result.silent_require rfl

theorem tells_admitOne (hchecks : l.claimChecks ctx.caller entry ⊆ checks) :
    l.Tells ctx checks (l.admitOne ctx entry) := by
  refine (tells_of_silent silent_checkReveal).bind fun _ _ => ?_
  exact (tells_of_static static_checkNotHalted).bind fun _ _ => tells_validateClaim hchecks

theorem tells_admitAll (hchecks : ∀ entry ∈ entries, l.claimChecks ctx.caller entry ⊆ checks) :
    l.Tells ctx checks (l.admitAll ctx entries) := by
  refine (tells_forM fun _ _ => tells_of_silent silent_checkReveal).bind fun _ _ => ?_
  refine (tells_of_static static_checkNotHalted).bind fun _ _ => ?_
  refine (tells_of_static static_checkClaimBatch).bind fun _ _ => ?_
  refine (tells_forM fun entry hentry => tells_validateClaim (hchecks entry hentry)).bind ?_
  exact fun _ _ => tells_of_silent (Result.silent_ok _)

/-- A successor was named when the authority had been silent for long enough. -/
def SilentIfNamed (g : Governance) (now : Timestamp) : Prop :=
  g.recovery.isSome = true → g.lastAuthorityAction.after g.policy.livenessWindow ≤ now

/-- Whoever waits for the silence of the authority waits for a window after its last action, if
nobody is named meanwhile. -/
theorem tells_checkInactive (hnamed : SilentIfNamed l.governance ctx.now)
    (hchecks : l.governance.silence ∈ checks) :
    l.Tells ctx checks (l.governance.checkInactive ctx) := by
  unfold Governance.checkInactive
  cases hrecovery : l.governance.recovery with
  | none =>
    have hdue (rest : Span) : l.deadline? ctx.caller (.recoveryNotReady rest) =
        some (l.governance.lastAuthorityAction.after l.governance.policy.livenessWindow) := by
      simp [deadline?, hrecovery]
    exact tells_require (hdue _) rfl hchecks
  | some named =>
    have hsilent := hnamed (by rw [hrecovery]; rfl)
    simp only [require, if_pos hsilent]
    exact tells_of_silent (Result.silent_ok _)

theorem tells_designateRecovery {address : Address}
    (hnamed : SilentIfNamed l.governance ctx.now) (hchecks : l.governance.silence ∈ checks) :
    l.Tells ctx checks (l.governance.designateRecovery ctx address) := by
  refine (tells_of_static (Governance.static_checkGuardian _)).bind fun _ _ => ?_
  refine (tells_of_static (Result.static_require rfl)).bind fun _ _ => ?_
  exact (tells_checkInactive hnamed hchecks).bind fun _ _ => tells_of_silent (Result.silent_ok _)

theorem tells_claimRecovery (hnamed : SilentIfNamed l.governance ctx.now)
    (hchecks : l.governance.recoveryChecks ctx.caller ⊆ checks) :
    l.Tells ctx checks (l.governance.claimRecovery ctx) := by
  unfold Governance.claimRecovery
  refine (tells_of_static (Result.static_orRefuse rfl _)).bind fun named hfound => ?_
  have hfound := orRefuse_eq_ok_iff.1 hfound
  have hrecovery : l.governance.recovery = some named := (Option.filter_eq_some_iff.1 hfound).1
  have hdue (rest : Span) : l.deadline? ctx.caller (.recoveryNotReady rest) =
      some (named.designatedAt.after l.governance.policy.livenessWindow) := by
    simp [deadline?, hrecovery]
  refine (tells_checkInactive hnamed (hchecks ?_)).bind fun _ _ => ?_
  · simp [Governance.recoveryChecks, hfound]
  · refine (tells_require (hdue _) rfl (hchecks ?_)).bind fun _ _ =>
      tells_of_silent (Result.silent_ok _)
    simp [Governance.recoveryChecks, hfound]

theorem static_apportionFrom (shortfall total assigned : Amount) (amounts : List Amount) :
    (apportionFrom shortfall total assigned amounts).Static := by
  fun_induction apportionFrom shortfall total assigned amounts with
  | case1 => exact Result.static_ok _
  | case2 => exact Result.static_ok _
  | case3 assigned amount rest _ ih =>
    refine (Result.static_orRefuse rfl _).bind fun product => ?_
    exact (ih product).bind fun _ => Result.static_ok _

theorem static_assess {reserved : List Reservation} {total : Amount} {receipt : TransferReceipt} :
    (l.assess reserved total receipt).Static := by
  have hslippage : (l.checkSlippage receipt).Static := by
    unfold checkSlippage
    simp only
    split
    · exact Result.static_ok _
    · refine (Result.static_orRefuse rfl _).bind fun _ => ?_
      exact (Result.static_orRefuse rfl _).bind fun _ => Result.static_require rfl
  refine hslippage.bind fun _ => (static_apportionFrom _ _ _ _).bind fun _ => ?_
  exact (Result.static_require rfl).bind fun _ => Result.static_ok _

end part

section handle

variable [PayoutToken τ]

theorem silent_arriving (htoken : SilentToken τ) (caller : Address) (period : PeriodId)
    (amount : Amount) : (l.arriving caller period amount).Silent := by
  refine (htoken.collect _ _ _).bind fun _ => ?_
  exact (Result.silent_orRefuse rfl _).bind fun _ => Result.silent_ok _

theorem silent_leaving (htoken : SilentToken τ) (period : PeriodId) (treasury : Address) :
    (l.leaving period treasury).Silent := by
  unfold leaving
  split
  · exact Result.silent_error rfl
  · split
    · exact Result.silent_ok _
    · exact (htoken.transfer _ _ _).map _

theorem silent_payOut (htoken : SilentToken τ) (who : Address) (reserved : List Reservation)
    (total : Amount) : Result.Silent (l.payOut who reserved total).1 := by
  have hpaid := l.paidOut who reserved total
  generalize l.payOut who reserved total = outcome at hpaid
  cases hpaid with
  | unsent hsent =>
    have hsilent := htoken.transfer l.token who total
    rw [hsent] at hsilent
    exact Result.silent_error (hsilent _ rfl)
  | takenBack _ hcause => exact Result.silent_error (static_assess.silent _ hcause)
  | @kept receipt cause e sent token _ _ hback =>
    have hsilent := htoken.revert sent receipt
    rw [hback] at hsilent
    exact Result.silent_error (hsilent _ rfl)
  | accepted => exact Result.silent_ok _

/-- The end of a period is nothing that a refusal says how long to wait for. -/
theorem tells_advancePeriod : l.Tells ctx checks (l.handle ctx .advancePeriod).1 := by
  refine Tells.commitIf (tells_checkOperator.bind fun _ _ => ?_) _
  refine Tells.bind (tells_of_silent (Era.silent_advance _ _)) fun _ _ => ?_
  exact tells_of_silent (Result.silent_ok _)

/-- No request that is refused tells more about waiting than the deadline of one of its gates. -/
theorem tells_handle (htoken : SilentToken τ) (hnamed : SilentIfNamed l.governance ctx.now)
    (request : Request) :
    l.Tells ctx (l.checks ctx.caller request) (l.handle ctx request).1 := by
  have hauthority : l.Tells ctx (l.checks ctx.caller request)
      (l.governance.checkAuthority ctx.caller) :=
    tells_of_static (Governance.static_checkAuthority _)
  have hguardian : l.Tells ctx (l.checks ctx.caller request)
      (l.governance.checkGuardian ctx.caller) :=
    tells_of_static (Governance.static_checkGuardian _)
  have hdone {α : Type} (a : α) : l.Tells ctx (l.checks ctx.caller request) (.ok a) :=
    tells_of_silent (Result.silent_ok a)
  cases request with
  | advancePeriod => exact tells_advancePeriod
  | setFeeSchedule schedule =>
    refine Tells.commitIf (hauthority.bind fun _ _ => ?_) _
    exact Tells.bind (tells_of_static (Era.static_setFeeSchedule _ _)) fun _ _ => hdone _
  | deposit period amount =>
    refine Tells.map ?_ _
    rw [fst_deposit]
    refine (tells_checkDeposit (List.subset_append_left _ _)).bind fun _ _ => ?_
    exact tells_of_silent (silent_arriving htoken _ _ _)
  | postCommitment period root =>
    refine Tells.commitIf (tells_checkOperator.bind fun _ _ => ?_) _
    refine tells_checkClosed.bind fun _ _ => ?_
    refine Tells.bind (tells_post ?_) fun _ _ => hdone _
    exact List.subset_cons_of_subset _ (List.subset_cons_self _ _)
  | disputeCommitment period =>
    refine Tells.commitIf (hguardian.bind fun _ _ => ?_) _
    exact Tells.bind (tells_dispute (List.subset_cons_self _ _)) fun _ _ => hdone _
  | replaceCommitment period root =>
    refine Tells.commitIf (tells_checkOperator.bind fun _ _ => ?_) _
    exact Tells.bind (tells_replace (List.subset_cons_self _ _)) fun _ _ => hdone _
  | sweepPeriod period treasury =>
    refine Tells.map ?_ _
    rw [fst_sweepPeriod]
    refine (tells_checkSweep (List.subset_append_left _ _)).bind fun _ _ => ?_
    exact tells_of_silent (silent_leaving htoken _ _)
  | commitClaim period digest =>
    have hunclaimed : (l.registry.check ctx.caller period).Static := Result.static_require rfl
    refine Tells.commitIf (tells_checkClosed.bind fun _ _ => ?_) _
    refine Tells.bind (tells_of_static (Result.static_require rfl)) fun _ _ => ?_
    exact Tells.bind (tells_of_static hunclaimed) fun _ _ => hdone _
  | revealClaim entry =>
    refine Tells.map ?_ _
    rw [fst_revealClaim]
    refine (tells_admitOne ?_).bind fun _ _ =>
      tells_of_silent ((silent_payOut htoken _ _ _).map _)
    intro check hcheck
    simp [checks, hcheck]
  | revealClaimBatch periods amounts nonces proofs =>
    refine Tells.map ?_ _
    unfold revealClaimBatch checks
    cases hentries : ClaimEntry.ofLists periods amounts nonces proofs with
    | error e =>
      have he : e.isTemporal = false := ClaimEntry.static_ofLists _ _ _ _ e hentries
      exact tells_of_silent (Result.silent_error (Error.remaining?_of_not_isTemporal he))
    | ok entries =>
      simp only [hentries]
      rw [fst_revealEntries]
      refine (tells_admitAll fun entry hentry => ?_).bind fun _ _ =>
        tells_of_silent ((silent_payOut htoken _ _ _).map _)
      intro check hcheck
      have hmem : check ∈ entries.flatMap (l.claimChecks ctx.caller) :=
        List.mem_flatMap.2 ⟨entry, hentry, hcheck⟩
      simp [hmem]
  | designateRecovery address =>
    refine Tells.commitIf (Tells.bind ?_ fun _ _ => hdone _) _
    exact tells_designateRecovery hnamed (by simp [checks])
  | claimRecovery =>
    refine Tells.commitIf (Tells.bind ?_ fun _ _ => hdone _) _
    exact tells_claimRecovery hnamed (List.Subset.refl _)
  | halt => exact Tells.commitIf (Tells.bind (hauthority.bind fun _ _ => hdone _) fun _ _ => hdone _) _
  | unhalt =>
    refine Tells.commitIf (Tells.bind ?_ fun _ _ => hdone _) _
    unfold HaltSwitch.unhalt
    split
    · exact hguardian.bind fun _ _ => hdone _
    · exact hauthority.bind fun _ _ => hdone _
  | setGuardian guardian =>
    refine Tells.commitIf (Tells.bind (hauthority.bind fun _ _ => ?_) fun _ _ => hdone _) _
    exact Tells.bind (tells_of_static (Result.static_require rfl)) fun _ _ => hdone _
  | proposeAuthority address =>
    refine Tells.commitIf (Tells.bind (hauthority.bind fun _ _ => ?_) fun _ _ => hdone _) _
    exact Tells.bind (tells_of_static (Result.static_require rfl)) fun _ _ => hdone _
  | acceptAuthority =>
    refine Tells.commitIf (Tells.bind ?_ fun _ _ => hdone _) _
    exact Tells.bind (tells_of_static (Result.static_require rfl)) fun _ _ => hdone _
  | requestStrikeReset =>
    exact Tells.commitIf (Tells.bind (hguardian.bind fun _ _ => hdone _) fun _ _ => hdone _) _
  | executeStrikeReset =>
    refine Tells.commitIf (Tells.bind (hguardian.bind fun _ _ => ?_) fun _ _ => hdone _) _
    refine Tells.bind (tells_of_silent (Result.silent_orRefuse rfl _)) fun _ _ => ?_
    exact Tells.bind (tells_of_silent (Result.silent_require rfl)) fun _ _ => hdone _
  | recordOperations count =>
    exact Tells.commitIf (Tells.bind (tells_of_static (Era.static_record _ _)) fun _ _ => hdone _) _

end handle

section run

variable [PayoutToken τ] {policy : ProtocolPolicy} {authority : Address} {guardian : Option Address}
  {token : τ} {now : Timestamp} {events : List (Event τ)} {call : Call}

/-- A named successor was named within the run, by which time the authority had been silent. -/
theorem silentIfNamed_after (hstart : Ledger.start policy authority guardian token now = .ok l)
    (hordered : InOrder (events ++ [.request call])) :
    SilentIfNamed (l.after events).governance call.ctx.now := by
  intro hsome
  obtain ⟨named, hnamed⟩ := Option.isSome_iff_exists.1 hsome
  have hnone : l.governance.recovery = none := by rw [governance_of_start hstart]
  have hsilent := (wellFormed_after hstart events).silent named hnamed
  obtain ⟨first, designation, second, rfl, -, htime, -⟩ := designated_of_recovery hnone hnamed
  have hearlier : designation ∈
      (first ++ .request designation :: second).filterMap Event.call? := by
    simp [Event.call?]
  rw [htime] at hsilent
  exact Timestamp.le_trans hsilent (hordered.le_of_append_request hearlier)

theorem open_of_granted {answer : Answer} (h : (l.handle call.ctx call.request).1 = .ok answer)
    {gate : Gate} (hgate : .timed gate ∈ l.checks call.ctx.caller call.request) :
    gate.Open call.ctx.now call.ctx.block := by
  have hpassed : Result.verdict (l.handle call.ctx call.request).1 = .passed := by rw [h]; rfl
  rw [verdict_handle] at hpassed
  exact open_of_judge_eq_passed hpassed hgate

/-- The time that a refusal says to wait is that up to a deadline, after any run in which time does
not run backwards and for any token whose own refusals say nothing of the kind. The same call on the
same state is refused at all times from now up to the deadline, and from then on it is never refused
with the same kind of refusal about the same period. The time is positive, and it is over at the
deadline, unless now or the deadline lies in a leap second: from there the waiting goes on as if
from the second before. -/
theorem remaining_exact (htoken : SilentToken τ)
    (hstart : Ledger.start policy authority guardian token now = .ok l)
    (hordered : InOrder (events ++ [.request call])) {e : Error} {remaining : Span}
    (hrefused : ((l.after events).handle call.ctx call.request).1 = .error e)
    (hremaining : e.remaining? = some remaining) :
    ∃ deadline : Timestamp, (l.after events).deadline? call.ctx.caller e = some deadline ∧
      call.ctx.now < deadline ∧ remaining = deadline.since call.ctx.now ∧
      (∀ later height, call.ctx.now ≤ later → later < deadline →
        ∃ e', ((l.after events).handle (call.postponed later height).ctx call.request).1 =
          .error e') ∧
      (∀ later height, deadline ≤ later → ∀ e',
        ((l.after events).handle (call.postponed later height).ctx call.request).1 = .error e' →
          e'.untimed ≠ e.untimed) ∧
      (call.ctx.now.inLeapSecond = false → deadline.inLeapSecond = false →
        0 < remaining.nanos ∧ call.ctx.now.after remaining = deadline) := by
  have hnamed := silentIfNamed_after hstart hordered
  have hsome : e.remaining? ≠ none := by simp [hremaining]
  obtain ⟨deadline, hawaits⟩ := tells_handle htoken hnamed call.request e hrefused hsome
  have hrest : remaining = deadline.since call.ctx.now :=
    Option.some.inj (hremaining.symm.trans hawaits.told)
  refine ⟨deadline, hawaits.due, hawaits.ahead, hrest, ?_, ?_, ?_⟩
  · intro later height hlater hbefore
    cases hanswer : ((l.after events).handle (call.postponed later height).ctx call.request).1 with
    | error e' => exact ⟨e', rfl⟩
    | ok answer =>
      have hgate : .timed (.since deadline) ∈ (l.after events).checks
          (call.postponed later height).ctx.caller (call.postponed later height).request := hawaits.gate
      have hopen : (Gate.since deadline).Open later height := open_of_granted hanswer hgate
      exact absurd hbefore (Timestamp.not_lt.2 hopen)
  · intro later height hafter e' hagain hsame
    have hlater : call.ctx.now ≤ later :=
      Timestamp.le_trans (Timestamp.le_of_lt hawaits.ahead) hafter
    have hnamed' : SilentIfNamed (l.after events).governance (call.postponed later height).ctx.now :=
      fun hsome => Timestamp.le_trans (hnamed hsome) hlater
    have hsome' : e'.remaining? ≠ none := by
      rw [← Option.isSome_iff_ne_none, ← Error.isSome_remaining?_untimed, hsame,
        Error.isSome_remaining?_untimed, Option.isSome_iff_ne_none]
      exact hsome
    obtain ⟨deadline', hawaits'⟩ := tells_handle htoken hnamed' call.request e' hagain hsome'
    have hdue : (l.after events).deadline? call.ctx.caller e = some deadline' := by
      rw [← deadline?_untimed, ← hsame, deadline?_untimed]
      exact hawaits'.due
    obtain rfl := Option.some.inj (hawaits.due.symm.trans hdue)
    exact absurd hawaits'.ahead (Timestamp.not_lt.2 hafter)
  · intro hplain hplain'
    rw [hrest]
    exact Timestamp.after_since hplain hplain' hawaits.ahead

end run

/-- The second successor claims the role a second before it may. -/
def hastyTakeover : Call :=
  ⟨⟨⟨5⟩, Timestamp.epoch.after (.ofSeconds 7776000), 1⟩, .claimRecovery⟩

/-- The refusal tells one second. The deadline is that second away, and before it the call is
refused at any time. -/
theorem remaining_exact_of_hastyTakeover : ∃ l : Ledger PoolToken,
    Ledger.start {} ⟨1⟩ (some ⟨2⟩) .empty .epoch = .ok l ∧ SilentToken PoolToken ∧
      InOrder (successionRun ++ [.request hastyTakeover]) ∧
      ((l.after successionRun).handle hastyTakeover.ctx hastyTakeover.request).1 =
        .error (.recoveryNotReady (.ofSeconds 1)) ∧
      ∃ deadline : Timestamp, deadline = Timestamp.epoch.after (.ofSeconds 7776001) ∧
        (∀ later height, hastyTakeover.ctx.now ≤ later → later < deadline →
          ∃ e, ((l.after successionRun).handle (hastyTakeover.postponed later height).ctx
            hastyTakeover.request).1 = .error e) ∧
        (∀ later height, deadline ≤ later → ∀ e,
          ((l.after successionRun).handle (hastyTakeover.postponed later height).ctx
            hastyTakeover.request).1 = .error e →
            e.untimed ≠ .recoveryNotReady .zero) ∧
        hastyTakeover.ctx.now.after (.ofSeconds 1) = deadline := by
  obtain ⟨l, hstart, hrefused, hdue⟩ : ∃ l : Ledger PoolToken,
      Ledger.start {} ⟨1⟩ (some ⟨2⟩) .empty .epoch = .ok l ∧
        ((l.after successionRun).handle hastyTakeover.ctx hastyTakeover.request).1 =
          .error (.recoveryNotReady (.ofSeconds 1)) ∧
        (l.after successionRun).deadline? hastyTakeover.ctx.caller
          (.recoveryNotReady (.ofSeconds 1)) =
            some (Timestamp.epoch.after (.ofSeconds 7776001)) := ⟨_, rfl, by rfl, by rfl⟩
  have hordered : InOrder (successionRun ++ [.request hastyTakeover]) := by decide +kernel
  obtain ⟨deadline, hdeadline, -, -, hclosed, hopen, hexact⟩ :=
    remaining_exact PoolToken.silentToken hstart hordered hrefused rfl
  obtain rfl := Option.some.inj (hdeadline.symm.trans hdue)
  exact ⟨l, hstart, PoolToken.silentToken, hordered, hrefused, _, rfl, hclosed, hopen,
    (hexact (by decide +kernel) (by decide +kernel)).2⟩

/-- A deposit shortly before midnight, of a day that ends with a leap second. -/
def eveningDeposit : Call := ⟨⟨⟨1⟩, Timestamp.epoch.after (.ofSeconds 86300), 1⟩, .deposit ⟨0⟩ 100⟩

/-- Another deposit in the middle of the leap second, long before the interval is over. -/
def leapDeposit : Call :=
  ⟨⟨⟨1⟩, ⟨86399, 1500000000, by decide, by decide, by decide, by decide⟩, 1⟩, .deposit ⟨0⟩ 100⟩

/-- The interval between deposits ends 200 seconds into the next day. In the middle of the leap
second the clock tells half a second less than that; but the waiting goes on as if from the second
before, so when it is over the interval has a second left and the deposit is refused again. -/
theorem tooFrequent_of_leapDeposit : ∃ l : Ledger PoolToken,
    Ledger.start {} ⟨1⟩ none { PoolToken.empty with balances := Table.empty.insert ⟨1⟩ 1000 }
        .epoch = .ok l ∧
      InOrder [.request eveningDeposit, (.request leapDeposit : Event PoolToken)] ∧
      ((l.after [.request eveningDeposit]).handle leapDeposit.ctx leapDeposit.request).1 =
        .error (.tooFrequent ⟨0⟩ (.ofMillis 199500)) ∧
      ((l.after [.request eveningDeposit]).handle
        (leapDeposit.postponed (leapDeposit.ctx.now.after (.ofMillis 199500)) 1).ctx
          leapDeposit.request).1 = .error (.tooFrequent ⟨0⟩ (.ofSeconds 1)) :=
  ⟨_, rfl, by decide +kernel, by rfl, by rfl⟩

end Ledger

end Settlement
