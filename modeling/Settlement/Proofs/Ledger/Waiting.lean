import Settlement.Proofs.Ledger.Checks
import Settlement.Proofs.Ledger.Pricing

namespace Settlement

/-- The same call at another time and in another block. Whoever waits makes this one instead. -/
def Call.postponed (call : Call) (later : Timestamp) (height : Count) : Call :=
  ⟨{ call.ctx with now := later, block := height }, call.request⟩

/-- Requests that wait for delays alone, if for anything. -/
def Request.isDelayed : Request → Bool
  | .advancePeriod | .deposit _ _ | .postCommitment _ _ | .disputeCommitment _ | .sweepPeriod _ _
  | .commitClaim _ _ | .revealClaim _ | .revealClaimBatch _ _ _ _ | .executeStrikeReset => false
  | _ => true

namespace Ledger

variable {τ : Type} [PayoutToken τ]

/-- The call is refused for a cause that is said to pass by waiting. -/
def untimely (l : Ledger τ) (call : Call) : Bool :=
  Result.isUntimely (l.handle call.ctx call.request).1

/-- The gates that lie ahead of a call: those that it would meet if it came through the ones
before. -/
def gates (l : Ledger τ) (call : Call) : List Gate :=
  gatesAhead (l.checks call.ctx.caller call.request)

variable {l : Ledger τ} {call : Call}

theorem untimely_iff : l.untimely call = true ↔
    ∃ gate ∈ l.gates call, ¬ gate.Open call.ctx.now call.ctx.block := by
  rw [untimely, ← Result.verdict_eq_untimely_iff, verdict_handle, judge_eq_untimely_iff]
  rfl

/-- The gates of an advance go by the age of the current period, those of all other requests by the
time itself. -/
theorem exists_timedBy (l : Ledger τ) (caller : Address) (request : Request) :
    ∃ start?, TimedBy start? (l.checks caller request) := by
  cases request with
  | advancePeriod =>
    refine ⟨some l.era.startedAt, ?_⟩
    by_cases hblock : l.era.policy.overduePolicy = .block
    · simp [checks, Era.advanceChecks, Result.check, Gate.GoesBy, hblock]
    · simp [checks, Era.advanceChecks, Result.check, Gate.GoesBy, hblock]
  | deposit period amount =>
    refine ⟨none, timedBy_append.2 ⟨?_, timedBy_checks _⟩⟩
    unfold depositChecks
    cases hlast : (l.periodFund period).lastDepositAt with
    | _ => simp [Result.check, Gate.GoesBy, hlast]
  | postCommitment period root =>
    refine ⟨none, ?_⟩
    unfold checks CommitmentBook.postChecks
    cases hrow : l.commitments.get? period with
    | _ => simp [hrow, Result.check, Gate.GoesBy]
  | disputeCommitment period =>
    refine ⟨none, ?_⟩
    unfold checks CommitmentBook.disputeChecks
    cases hrow : l.commitments.get? period with
    | none => simp [hrow, Result.check]
    | some c =>
      cases l.commitments.lastDisputeBy.get? caller with
      | _ => simp [hrow, Result.check, Gate.GoesBy]
  | replaceCommitment period root =>
    refine ⟨none, ?_⟩
    unfold checks CommitmentBook.replaceChecks
    cases hrow : l.commitments.get? period with
    | none => simp [hrow, Result.check]
    | some c =>
      cases hraised : c.dispute with
      | _ => simp [hrow, hraised, Result.check, Gate.GoesBy]
  | sweepPeriod period treasury =>
    refine ⟨none, timedBy_append.2 ⟨?_, timedBy_checks _⟩⟩
    unfold sweepChecks
    cases l.commitments.sweepOpensAt? l.claimPolicy period with
    | _ => simp [Result.check, Gate.GoesBy]
  | revealClaim entry =>
    refine ⟨none, timedBy_append.2 ⟨timedBy_append.2 ⟨timedBy_revealChecks _ _ _, ?_⟩,
      timedBy_checks _⟩⟩
    exact timedBy_settled_cons.2 (timedBy_claimChecks _ _ _)
  | revealClaimBatch periods amounts nonces proofs =>
    refine ⟨none, ?_⟩
    unfold checks
    cases hentries : ClaimEntry.ofLists periods amounts nonces proofs with
    | error e => simp [hentries]
    | ok entries =>
      simp only [hentries]
      refine timedBy_append.2 ⟨timedBy_append.2 ⟨?_, ?_⟩, timedBy_checks _⟩
      · exact timedBy_flatMap fun entry => timedBy_revealChecks _ _ entry
      · exact timedBy_settled_cons.2 (timedBy_settled_cons.2
          (timedBy_flatMap fun entry => timedBy_claimChecks _ _ entry))
  | unhalt =>
    refine ⟨none, ?_⟩
    cases hever : l.governance.guardianEverConfigured with
    | _ => simp [checks, hever, Result.check]
  | executeStrikeReset =>
    refine ⟨none, ?_⟩
    unfold checks Governance.resetChecks
    cases l.governance.strikeResetRequestedAt with
    | _ => simp [Result.check, Gate.GoesBy]
  | claimRecovery =>
    refine ⟨none, ?_⟩
    unfold checks Governance.recoveryChecks
    cases l.governance.recovery.filter (·.address = caller) with
    | _ => simp [Governance.silence, Gate.GoesBy]
  | _ => exact ⟨none, by simp [checks, Governance.silence, Result.check, Gate.GoesBy]⟩

/-- Waiting helps exactly if the gates ahead can be surmounted: the same request passes later on if
all of them are open together at some time from now on. -/
theorem exists_timely_iff : (∃ later height, call.ctx.now ≤ later ∧ call.ctx.block ≤ height ∧
      l.untimely (call.postponed later height) = false) ↔
    Surmountable call.ctx.now (l.gates call) := by
  obtain ⟨start?, hclock⟩ := exists_timedBy l call.ctx.caller call.request
  have hgates : ∀ gate ∈ l.gates call, gate.GoesBy start? := fun gate hgate =>
    hclock gate (timed_mem_of_mem_gatesAhead hgate)
  have htimely (later : Timestamp) (height : Count) :
      l.untimely (call.postponed later height) = false ↔
        ∀ gate ∈ l.gates call, gate.Open later height := by
    have hiff : l.untimely (call.postponed later height) = true ↔
        ∃ gate ∈ l.gates call, ¬ gate.Open later height := untimely_iff
    rw [← Bool.not_eq_true, hiff]
    simp
  simp only [htimely]
  exact (surmountable_iff_exists_open call.ctx.block hgates).symm

/-- A request that waits for delays alone can always wait them out, since its gates only open. It is
not so for an objection that comes after its time, for a claim after its deadline, or for anything
that other requests have to bring about. -/
theorem surmountable_of_isDelayed (h : call.request.isDelayed = true) :
    Surmountable call.ctx.now (l.gates call) := by
  obtain ⟨ctx, request⟩ := call
  refine surmountable_of_since fun gate hgate => ?_
  have hcheck : .timed gate ∈ l.checks ctx.caller request := timed_mem_of_mem_gatesAhead hgate
  clear hgate
  cases request with
  | replaceCommitment period root =>
    unfold checks CommitmentBook.replaceChecks at hcheck
    cases hrow : l.commitments.get? period with
    | none => simp [hrow, Result.check] at hcheck
    | some c =>
      cases hraised : c.dispute with
      | none => simp [hrow, hraised, Result.check] at hcheck
      | some raised =>
        simp only [hrow, hraised, Result.check, List.mem_cons, List.not_mem_nil, or_false,
          reduceCtorEq, false_or, Check.timed.injEq] at hcheck
        exact ⟨_, hcheck⟩
  | designateRecovery address =>
    simp only [checks, Governance.silence, Result.check, List.mem_cons, List.not_mem_nil, or_false,
      reduceCtorEq, false_or, Check.timed.injEq] at hcheck
    exact ⟨_, hcheck⟩
  | claimRecovery =>
    unfold checks Governance.recoveryChecks at hcheck
    cases hnamed : l.governance.recovery.filter (·.address = ctx.caller) with
    | none => simp [hnamed] at hcheck
    | some named =>
      simp only [hnamed, Governance.silence, List.mem_cons, List.not_mem_nil, or_false,
        Check.timed.injEq] at hcheck
      rcases hcheck with rfl | rfl
      · exact ⟨_, rfl⟩
      · exact ⟨_, rfl⟩
  | unhalt =>
    cases hever : l.governance.guardianEverConfigured with
    | _ => simp [checks, hever, Result.check] at hcheck
  | advancePeriod => cases h
  | deposit _ _ | postCommitment _ _ | disputeCommitment _ | sweepPeriod _ _ => cases h
  | commitClaim _ _ | revealClaim _ | revealClaimBatch _ _ _ _ | executeStrikeReset => cases h
  | _ => simp [checks, Result.check] at hcheck

section run

variable {policy : ProtocolPolicy} {authority : Address} {guardian : Option Address} {token : τ}
  {now : Timestamp}

theorem isUntimely_feesForPeriod_iff
    (hstart : Ledger.start policy authority guardian token now = .ok l) (events : List (Event τ))
    (period : PeriodId) : Result.isUntimely ((l.after events).era.feesForPeriod period) = true ↔
      (l.after events).era.isClosed period = false := by
  obtain ⟨granted, h⟩ := chronicle_after hstart events
  have hclosed := h.exists_snapshot?_iff (p := period)
  rw [Era.isClosed, decide_eq_false_iff_not, ← hclosed]
  unfold Era.feesForPeriod
  cases (l.after events).era.snapshot? period with
  | none => simp [orRefuse, Result.isUntimely, Error.isTemporal, Error.code]
  | some s =>
    have hfees : Result.Static (s.feeSchedule.feeOf period >>= (totalFee · s.operations)) :=
      (Result.static_orRefuse rfl _).bind fun _ => Result.static_orRefuse rfl _
    rw [Result.orRefuse_some_bind, hfees.isUntimely_eq_false]
    simp

/-- After any run, a call is refused for its time exactly if one of the gates ahead of it is closed,
and waiting helps exactly if these gates can be surmounted, as it always does where a request waits
for delays alone. The ledger answers questions without asking for the time: the fees of a period are
refused as long as it is open, and no other answer is refused for its time. -/
theorem recoverable_iff_surmountable
    (hstart : Ledger.start policy authority guardian token now = .ok l) (events : List (Event τ))
    (call : Call) :
    ((l.after events).untimely call = true ↔
        ∃ gate ∈ (l.after events).gates call, ¬ gate.Open call.ctx.now call.ctx.block) ∧
      ((∃ later height, call.ctx.now ≤ later ∧ call.ctx.block ≤ height ∧
          (l.after events).untimely (call.postponed later height) = false) ↔
        Surmountable call.ctx.now ((l.after events).gates call)) ∧
      (call.request.isDelayed = true →
        Surmountable call.ctx.now ((l.after events).gates call)) ∧
      (∀ period, Result.isUntimely ((l.after events).era.feesForPeriod period) = true ↔
        (l.after events).era.isClosed period = false) ∧
      (∀ count, Result.isUntimely ((l.after events).era.batchFees count) = false) ∧
      Result.isUntimely (l.after events).checkInvariants = false := by
  refine ⟨untimely_iff, exists_timely_iff, surmountable_of_isDelayed,
    isUntimely_feesForPeriod_iff hstart events, fun count => ?_, ?_⟩
  · exact (Era.static_batchFees _ count).isUntimely_eq_false
  · exact (FundBook.static_verifyAll _).isUntimely_eq_false

end run

/-- A period is closed and its root posted, so the time for objections begins. -/
def postedRun : List (Event PoolToken) :=
  [.request ⟨⟨⟨1⟩, Timestamp.epoch.after (.ofSeconds 3600), 1⟩, .advancePeriod⟩,
   .request ⟨⟨⟨1⟩, Timestamp.epoch.after (.ofSeconds 3600), 1⟩, .postCommitment ⟨0⟩ 7⟩]

/-- The next period is to be closed a second too soon. -/
def hastyAdvance : Call :=
  ⟨⟨⟨1⟩, Timestamp.epoch.after (.ofSeconds 7199), 1⟩, .advancePeriod⟩

/-- The guardian objects when the time for objections is over, and will not be heard at any later
time. -/
def tardyDispute : Call :=
  ⟨⟨⟨2⟩, Timestamp.epoch.after (.ofSeconds 90000), 1⟩, .disputeCommitment ⟨0⟩⟩

/-- The request that is a second too soon can wait, and waiting helps. -/
theorem recoverable_iff_surmountable_of_hasty : ∃ l : Ledger PoolToken,
    Ledger.start {} ⟨1⟩ (some ⟨2⟩) .empty .epoch = .ok l ∧
      (l.after postedRun).untimely hastyAdvance = true ∧
      Surmountable hastyAdvance.ctx.now ((l.after postedRun).gates hastyAdvance) ∧
      ((l.after postedRun).untimely hastyAdvance = true ↔
        ∃ gate ∈ (l.after postedRun).gates hastyAdvance,
          ¬ gate.Open hastyAdvance.ctx.now hastyAdvance.ctx.block) ∧
      ((∃ later height, hastyAdvance.ctx.now ≤ later ∧ hastyAdvance.ctx.block ≤ height ∧
          (l.after postedRun).untimely (hastyAdvance.postponed later height) = false) ↔
        Surmountable hastyAdvance.ctx.now ((l.after postedRun).gates hastyAdvance)) := by
  obtain ⟨l, hstart, huntimely, hahead⟩ : ∃ l : Ledger PoolToken,
      Ledger.start {} ⟨1⟩ (some ⟨2⟩) .empty .epoch = .ok l ∧
        (l.after postedRun).untimely hastyAdvance = true ∧
        Surmountable hastyAdvance.ctx.now ((l.after postedRun).gates hastyAdvance) :=
    ⟨_, rfl, by decide +kernel, by decide +kernel⟩
  obtain ⟨hrefused, hwaits, -⟩ := recoverable_iff_surmountable hstart postedRun hastyAdvance
  exact ⟨l, hstart, huntimely, hahead, hrefused, hwaits⟩

/-- An objection that comes too late is refused for its time, and is so at all later times. -/
theorem untimely_of_tardy : ∃ l : Ledger PoolToken,
    Ledger.start {} ⟨1⟩ (some ⟨2⟩) .empty .epoch = .ok l ∧
      InOrder (postedRun ++ [.request tardyDispute]) ∧
      ((l.after postedRun).handle tardyDispute.ctx tardyDispute.request).1 =
        .error (.disputeWindowClosed ⟨0⟩) ∧
      (Error.disputeWindowClosed ⟨0⟩).isTemporal = true ∧
      ∀ later height, tardyDispute.ctx.now ≤ later → tardyDispute.ctx.block ≤ height →
        (l.after postedRun).untimely (tardyDispute.postponed later height) = true := by
  obtain ⟨l, hstart, hrefused, hshut⟩ : ∃ l : Ledger PoolToken,
      Ledger.start {} ⟨1⟩ (some ⟨2⟩) .empty .epoch = .ok l ∧
        ((l.after postedRun).handle tardyDispute.ctx tardyDispute.request).1 =
          .error (.disputeWindowClosed ⟨0⟩) ∧
        ¬ Surmountable tardyDispute.ctx.now ((l.after postedRun).gates tardyDispute) :=
    ⟨_, rfl, by rfl, by decide +kernel⟩
  refine ⟨l, hstart, by decide +kernel, hrefused, rfl, fun later height hlater hheight => ?_⟩
  rw [← exists_timely_iff] at hshut
  by_contra htimely
  exact hshut ⟨later, height, hlater, hheight, Bool.eq_false_iff.2 htimely⟩

end Ledger

end Settlement
