import Settlement.Proofs.Ledger.Lifecycle
import Settlement.Token.Pool

namespace Settlement

/-- A granted request of this kind settles the dispute about the root of a period. -/
def Request.replaces (p : PeriodId) : Request → Bool
  | .replaceCommitment period _ => period = p
  | _ => false

/-- A granted request of this kind takes what is left of a period. -/
def Request.sweeps (p : PeriodId) : Request → Bool
  | .sweepPeriod period _ => period = p
  | _ => false

theorem Request.concerns_of_sweeps {p : PeriodId} {request : Request}
    (h : request.sweeps p = true) : request.concerns p = true := by
  cases request with
  | sweepPeriod period treasury => exact h
  | _ => cases h

/-- The fund after all that is left of it has been swept. -/
def PeriodFund.cleared (f : PeriodFund) (now : Timestamp) : PeriodFund :=
  { f with swept := f.remaining, sweptAt := some now }

/-- No money went out of a fund or into it. Times of deposits do not matter. -/
structure PeriodFund.SameMoney (f f' : PeriodFund) : Prop where
  claimed : f'.claimed = f.claimed
  swept : f'.swept = f.swept
  remaining : f'.remaining = f.remaining

/-- A sweep leaves the money of a fund as it is only if nothing is left to be swept. -/
theorem PeriodFund.Sound.sameMoney_cleared_iff {f : PeriodFund} (h : f.Sound)
    (hopen : f.isSwept = false) {now : Timestamp} :
    f.SameMoney (f.cleared now) ↔ f.remaining = 0 := by
  have hempty : (f.cleared now).remaining = 0 :=
    Word.val_eq_zero_iff.1 (val_remaining_sweep h hopen now)
  constructor
  · intro hsame
    rw [← hsame.remaining, hempty]
  · intro hnone
    exact ⟨rfl, hnone.trans (h.unswept hopen).symm, hempty.trans hnone.symm⟩

namespace Ledger

variable {τ : Type} {l : Ledger τ} {p : PeriodId} {c : Commitment}

theorem not_validClaim_of_isDisputed (hrow : l.commitment? p = some c)
    (hdisputed : c.isDisputed = true) {who : Address} {now : Timestamp} {amount : Amount}
    {proof : List Digest} : ¬ l.ValidClaim who now p amount proof := by
  intro hvalid
  obtain ⟨c', hclaimable, -⟩ := hvalid.proven
  obtain ⟨hrow', hundisputed, -⟩ := CommitmentBook.claimable_eq_ok_iff.1 hclaimable
  obtain rfl : c = c' := Option.some.inj (hrow.symm.trans hrow')
  rw [Commitment.isDisputed_eq_false_iff.2 hundisputed] at hdisputed
  cases hdisputed

/-- Neither a posting nor an objection passes while the root is disputed, so the root and its
dispute stay until the authority replaces it. -/
theorem Controlled.commitment?_of_isDisputed {ctx : CallContext} {request : Request}
    {answer : Answer} {l' : Ledger τ} (h : Controlled l ctx request answer l')
    (hrow : l.commitment? p = some c) (hdisputed : c.isDisputed = true)
    (hkeeps : request.replaces p = false) :
    l'.commitment? p = some c := by
  have hraised (hundisputed : c.dispute = none) : False := by
    rw [Commitment.isDisputed_eq_false_iff.2 hundisputed] at hdisputed
    cases hdisputed
  cases h with
  | @posted period _ _ _ _ _ hpost =>
    obtain ⟨rfl, hold⟩ := CommitmentBook.post_eq_ok hpost
    have hne : p ≠ period := by
      rintro rfl
      rcases hold with ⟨hnone, -⟩ | ⟨c', hrow', hundisputed, -⟩
      · exact Option.some_ne_none c (hrow.symm.trans hnone)
      · obtain rfl : c = c' := Option.some.inj (hrow.symm.trans hrow')
        exact hraised hundisputed
    exact (CommitmentBook.get?_set ..).trans ((if_neg hne).trans hrow)
  | @disputed period _ _ hdispute =>
    obtain ⟨c', _, hrow', hundisputed, -, hrows⟩ := CommitmentBook.dispute_eq_ok hdispute
    have hne : p ≠ period := by
      rintro rfl
      obtain rfl : c = c' := Option.some.inj (hrow.symm.trans hrow')
      exact hraised hundisputed
    exact (hrows p).trans ((if_neg hne).trans hrow)
  | @replaced period _ _ _ _ hreplace =>
    obtain ⟨old, -, -, -, rfl⟩ := CommitmentBook.replace_eq_ok hreplace
    have hne : p ≠ period := Ne.symm (of_decide_eq_false hkeeps)
    exact (CommitmentBook.get?_set ..).trans ((if_neg hne).trans hrow)
  | resumed =>
    split
    · exact hrow
    · exact hrow
  | advanced | priced | counted | committed | halted | governed => exact hrow

section token

variable [PayoutToken τ]

theorem PaidOut.periodFund_of_not_mem {who : Address} {reserved : List Reservation} {total : Amount}
    {outcome : Outcome τ (TransferReceipt × List Amount)} (h : PaidOut l who reserved total outcome)
    (hp : p ∉ reserved.map Prod.fst) : outcome.2.periodFund p = l.periodFund p := by
  cases h with
  | unsent | takenBack => rfl
  | kept | accepted => exact fund_settle_of_not_mem hp

/-- What a call does to the money of a period whose root is disputed and can be swept from `opensAt`
on. -/
inductive Withheld (l : Ledger τ) (p : PeriodId) (opensAt : Timestamp) (call : Call) : Prop
  | kept (hgrant : ∀ granted ∈ l.grant call, granted.request.sweeps p = false)
      (hfund : (l.step call).periodFund p = l.periodFund p)
  | swept (hgrant : l.grant call = [call]) (hsweeps : call.request.sweeps p = true)
      (hlate : opensAt ≤ call.ctx.now) (hopen : (l.periodFund p).isSwept = false)
      (hfund : (l.step call).periodFund p = (l.periodFund p).cleared call.ctx.now)

/-- A call that is no sweep of the period withholds its money if it does not touch the fund. -/
theorem Withheld.of_not_sweeps {opensAt : Timestamp} {call : Call}
    (hsweeps : call.request.sweeps p = false)
    (hfund : (l.step call).periodFund p = l.periodFund p) : Withheld l p opensAt call := by
  refine .kept (fun granted hgranted => ?_) hfund
  rw [mem_grant hgranted]
  exact hsweeps

/-- Every call withholds the money of such a period. A sweep asks for the deadline of the claims
alone, not for the dispute. -/
theorem withheld (hsound : l.Sound) (hrow : l.commitment? p = some c)
    (hdisputed : c.isDisputed = true) (call : Call) :
    Withheld l p (c.claimDeadline.after l.claimPolicy.sweepDelay) call := by
  obtain ⟨ctx, request⟩ := call
  have hhandled := handled l ctx request
  generalize houtcome : l.handle ctx request = outcome at hhandled
  have hstep : l.step ⟨ctx, request⟩ = outcome.2 := congrArg Prod.snd houtcome
  have hgrant : l.grant ⟨ctx, request⟩ = if outcome.1.isOk then [⟨ctx, request⟩] else [] := by
    rw [← houtcome]
    rfl
  have hquiet (hfund : outcome.2.periodFund p = l.periodFund p)
      (hsweeps : request.sweeps p = false) :
      Withheld l p (c.claimDeadline.after l.claimPolicy.sweepDelay) ⟨ctx, request⟩ :=
    .of_not_sweeps hsweeps (hstep ▸ hfund)
  cases hhandled with
  | refused => exact .kept (by simp [hgrant, Except.isOk, Except.toBool]) (hstep ▸ rfl)
  | quiet hcontrolled =>
    refine hquiet (congrArg (fun b : FundBook => b.fund p) hcontrolled.money.1) ?_
    rw [← Bool.not_eq_true]
    intro hsweeps
    have hconcerns := hcontrolled.concerns p
    rw [Request.concerns_of_sweeps hsweeps] at hconcerns
    cases hconcerns
  | uncollected => exact hquiet rfl rfl
  | unrecorded => exact hquiet (l.funds.fund_set_self _ p) rfl
  | @deposited period amount received total token hcheck =>
    refine hquiet ?_ rfl
    have hne : p ≠ period := by
      rintro rfl
      rw [commitment?_of_checkDeposit hcheck] at hrow
      cases hrow
    exact (FundBook.fund_set ..).trans (if_neg hne)
  | @unpaid period _ _ _ _ hopen =>
    have hrelease : { l.funds.fund period with swept := 0, sweptAt := none } =
        l.funds.fund period := (hsound period).release_eq hopen
    refine .kept (by simp [hgrant, Except.isOk, Except.toBool]) ?_
    rw [hstep, hrelease]
    exact l.funds.fund_set_self period p
  | @emptied period _ hcheck hopen | @swept period _ _ _ hcheck hopen =>
    by_cases hp : p = period
    · subst hp
      obtain ⟨c', hrow', hlate⟩ := commitment?_of_checkSweep hcheck
      obtain rfl : c = c' := Option.some.inj (hrow.symm.trans hrow')
      refine .swept hgrant (decide_eq_true rfl) hlate hopen ?_
      rw [hstep]
      exact (FundBook.fund_set ..).trans (if_pos rfl)
    · exact hquiet ((FundBook.fund_set ..).trans (if_neg hp)) (decide_eq_false (Ne.symm hp))
  | @claimed entry hpassed =>
    refine hquiet ((paidOut ..).periodFund_of_not_mem fun hp => ?_) rfl
    obtain rfl : p = entry.period := List.mem_singleton.1 hp
    exact not_validClaim_of_isDisputed hrow hdisputed (admitOne_eq_ok_iff.1 hpassed).2.2
  | @batchClaimed _ _ _ _ entries _ _ hpassed =>
    refine hquiet ((paidOut ..).periodFund_of_not_mem fun hp => ?_) rfl
    obtain ⟨_, hmem, rfl⟩ := List.mem_map.1 hp
    obtain ⟨entry, hentry, rfl⟩ := List.mem_map.1 hmem
    exact not_validClaim_of_isDisputed hrow hdisputed
      ((admitAll_eq_ok_iff.1 hpassed).2.2.2 entry hentry)

theorem commitment?_step_of_isDisputed (hrow : l.commitment? p = some c)
    (hdisputed : c.isDisputed = true) {call : Call}
    (hkeeps : ∀ granted ∈ l.grant call, granted.request.replaces p = false) :
    (l.step call).commitment? p = some c := by
  rcases (handled l call.ctx call.request).terms with ⟨answer, hok, hcontrolled⟩ | hterms
  · have hgrant : l.grant call = [call] := by
      unfold grant
      rw [hok]
      rfl
    rw [hgrant, List.forall_mem_singleton] at hkeeps
    exact hcontrolled.commitment?_of_isDisputed hrow hdisputed hkeeps
  · exact (hterms.commitment? p).trans hrow

/-- A disputed root and its dispute stay through every run in which the root is not replaced. -/
theorem commitment?_after_of_isDisputed (hrow : l.commitment? p = some c)
    (hdisputed : c.isDisputed = true) {events : List (Event τ)}
    (hkeeps : ∀ call ∈ l.granted events, call.request.replaces p = false) :
    (l.after events).commitment? p = some c :=
  after_of_granted (P := fun l => l.commitment? p = some c)
    (fun _ _ hcall hrow => commitment?_step_of_isDisputed hrow hdisputed hcall)
    (fun _ _ hrow => hrow) hrow hkeeps

theorem periodFund_after_of_isDisputed (hsound : l.Sound) (hrow : l.commitment? p = some c)
    (hdisputed : c.isDisputed = true) {events : List (Event τ)}
    (hkeeps : ∀ call ∈ l.granted events, call.request.replaces p = false)
    (hunswept : ∀ call ∈ l.granted events, call.request.sweeps p = false) :
    (l.after events).periodFund p = l.periodFund p := by
  suffices h : (l.after events).Sound ∧ (l.after events).commitment? p = some c ∧
      (l.after events).periodFund p = l.periodFund p from h.2.2
  refine after_of_granted
    (P := fun l' => l'.Sound ∧ l'.commitment? p = some c ∧ l'.periodFund p = l.periodFund p)
    (A := fun call => call.request.replaces p = false ∧ call.request.sweeps p = false)
    ?_ (fun _ _ h => h) ⟨hsound, hrow, rfl⟩
    fun call hcall => ⟨hkeeps call hcall, hunswept call hcall⟩
  rintro l' call hallowed ⟨hsound, hrow, hfund⟩
  refine ⟨hsound.next (.request call), commitment?_step_of_isDisputed hrow hdisputed
    fun granted hgranted => (hallowed granted hgranted).1, ?_⟩
  cases withheld hsound hrow hdisputed call with
  | kept _ hsame => exact hsame.trans hfund
  | swept hgrant hsweeps =>
    rw [(hallowed call (hgrant ▸ List.mem_singleton_self call)).2] at hsweeps
    cases hsweeps

section Orderly

variable {claims : ClaimPolicy} {events : List (Event τ)} {sweep : Call}

/-- A granted sweep of a period whose root is disputed takes all that is left, and nothing moves
money of the period afterwards. -/
theorem cleared_of_grant (hsound : l.Sound) (horderly : Orderly claims l)
    (hrow : l.commitment? p = some c) (hdisputed : c.isDisputed = true)
    (hgrant : l.grant sweep = [sweep]) (hsweeps : sweep.request.sweeps p = true)
    (rest : List (Event τ)) :
    c.claimDeadline.after claims.sweepDelay ≤ sweep.ctx.now ∧ (l.periodFund p).isSwept = false ∧
      ((l.step sweep).after rest).periodFund p = (l.periodFund p).cleared sweep.ctx.now := by
  cases withheld hsound hrow hdisputed sweep with
  | kept hunswept =>
    rw [hunswept sweep (hgrant ▸ List.mem_singleton_self sweep)] at hsweeps
    cases hsweeps
  | swept _ _ hlate hopen hfund =>
    refine ⟨horderly.policy ▸ hlate, hopen, ?_⟩
    have hsound' : (l.step sweep).Sound := hsound.next (.request sweep)
    have horderly' : Orderly claims (l.step sweep) := horderly.moved hsound (moved hsound sweep)
    rw [(kept_after hsound' horderly' p rest).swept (by rw [hfund]; rfl), hfund]

/-- A sweep that is granted in a run is granted once, and the fund stays as it has left it. -/
theorem exists_cleared (hsound : l.Sound) (horderly : Orderly claims l)
    (hrow : l.commitment? p = some c) (hdisputed : c.isDisputed = true)
    (hkeeps : ∀ call ∈ l.granted events, call.request.replaces p = false)
    (hsweep : sweep ∈ l.granted events) (hsweeps : sweep.request.sweeps p = true) :
    ∃ before rest, events = before ++ .request sweep :: rest ∧
      c.claimDeadline.after claims.sweepDelay ≤ sweep.ctx.now ∧
      ((l.after before).periodFund p).isSwept = false ∧
      (l.after events).periodFund p = ((l.after before).periodFund p).cleared sweep.ctx.now := by
  obtain ⟨before, rest, rfl, hgrant⟩ := exists_of_mem_granted hsweep
  rw [granted, gather_append, List.forall_mem_append] at hkeeps
  obtain ⟨hsound', horderly'⟩ := orderly_after hsound horderly before
  have hrow' := commitment?_after_of_isDisputed hrow hdisputed hkeeps.1
  refine ⟨before, rest, rfl, ?_⟩
  rw [after_append]
  exact cleared_of_grant hsound' horderly' hrow' hdisputed hgrant hsweeps rest

/-- What a sweep takes from a period whose root is disputed was there all the time. -/
theorem cleared_of_mem_granted (hsound : l.Sound) (horderly : Orderly claims l)
    (hrow : l.commitment? p = some c) (hdisputed : c.isDisputed = true)
    (hkeeps : ∀ call ∈ l.granted events, call.request.replaces p = false)
    (hsweep : sweep ∈ l.granted events) (hsweeps : sweep.request.sweeps p = true) :
    c.claimDeadline.after claims.sweepDelay ≤ sweep.ctx.now ∧ (l.periodFund p).isSwept = false ∧
      (l.after events).periodFund p = (l.periodFund p).cleared sweep.ctx.now := by
  obtain ⟨before, rest, rfl, hlate, hopen, hfund⟩ :=
    exists_cleared hsound horderly hrow hdisputed hkeeps hsweep hsweeps
  rw [granted, gather_append, List.forall_mem_append] at hkeeps
  -- An earlier sweep would have left nothing to be swept now.
  have hunswept : ∀ call ∈ l.granted before, call.request.sweeps p = false := by
    intro call hcall
    rw [← Bool.not_eq_true]
    intro hearlier
    obtain ⟨_, _, -, -, -, hcleared⟩ :=
      exists_cleared hsound horderly hrow hdisputed hkeeps.1 hcall hearlier
    rw [hcleared] at hopen
    cases hopen
  rw [periodFund_after_of_isDisputed hsound hrow hdisputed hkeeps.1 hunswept] at hopen hfund
  exact ⟨hlate, hopen, hfund⟩

end Orderly

/-- The money of a period whose root is disputed moves in one way only. Until the root is replaced
the row of the period stays what it is, and what is claimed, swept and left of it stays the same
exactly if no sweep is granted or nothing was left. A sweep that is granted comes a sweep delay
after the deadline of the claims at the earliest, and takes all that is left. -/
theorem disputed_unmoved_iff {policy : ProtocolPolicy} {authority : Address}
    {guardian : Option Address} {token : τ} {now : Timestamp}
    (hstart : Ledger.start policy authority guardian token now = .ok l) {before : List (Event τ)}
    (hrow : (l.after before).commitment? p = some c) (hdisputed : c.isDisputed = true)
    {later : List (Event τ)}
    (hkeeps : ∀ call ∈ (l.after before).granted later, call.request.replaces p = false) :
    (l.after (before ++ later)).commitment? p = some c ∧
      (((l.after before).periodFund p).SameMoney ((l.after (before ++ later)).periodFund p) ↔
        (l.after before).remaining p = 0 ∨
          ∀ call ∈ (l.after before).granted later, call.request.sweeps p = false) ∧
      ∀ sweep ∈ (l.after before).granted later, sweep.request.sweeps p = true →
        c.claimDeadline.after policy.claims.sweepDelay ≤ sweep.ctx.now ∧
          (l.after (before ++ later)).periodFund p =
            ((l.after before).periodFund p).cleared sweep.ctx.now := by
  have hsound := sound_after hstart before
  have horderly := (lifecycle_in_order hstart before).1
  rw [after_append]
  refine ⟨commitment?_after_of_isDisputed hrow hdisputed hkeeps, ?_, fun sweep hsweep hsweeps => ?_⟩
  · by_cases hswept : ∃ sweep ∈ (l.after before).granted later, sweep.request.sweeps p = true
    · obtain ⟨sweep, hsweep, hsweeps⟩ := hswept
      obtain ⟨-, hopen, hfund⟩ :=
        cleared_of_mem_granted hsound horderly hrow hdisputed hkeeps hsweep hsweeps
      rw [hfund, (hsound p).sameMoney_cleared_iff hopen]
      refine ⟨Or.inl, fun h => h.resolve_right fun hunswept => ?_⟩
      rw [hunswept sweep hsweep] at hsweeps
      cases hsweeps
    · have hunswept : ∀ call ∈ (l.after before).granted later, call.request.sweeps p = false := by
        intro call hcall
        rw [← Bool.not_eq_true]
        exact fun hsweeps => hswept ⟨call, hcall, hsweeps⟩
      rw [periodFund_after_of_isDisputed hsound hrow hdisputed hkeeps hunswept]
      exact ⟨fun _ => Or.inr hunswept, fun _ => ⟨rfl, rfl, rfl⟩⟩
  · obtain ⟨hlate, -, hfund⟩ :=
      cleared_of_mem_granted hsound horderly hrow hdisputed hkeeps hsweep hsweeps
    exact ⟨hlate, hfund⟩

end token

/-- A period is funded, closed and posted, and the guardian objects to its root in time. -/
def disputedRun : List (Event PoolToken) :=
  [.request ⟨⟨⟨1⟩, .epoch, 1⟩, .deposit ⟨0⟩ 500⟩,
   .request ⟨⟨⟨1⟩, Timestamp.epoch.after (.ofSeconds 3600), 1⟩, .advancePeriod⟩,
   .request ⟨⟨⟨1⟩, Timestamp.epoch.after (.ofSeconds 3600), 1⟩, .postCommitment ⟨0⟩ 7⟩,
   .request ⟨⟨⟨2⟩, Timestamp.epoch.after (.ofSeconds 7200), 1⟩, .disputeCommitment ⟨0⟩⟩]

/-- The row of the period after the run, with the objection that was raised. -/
def disputedRow : Commitment where
  period := ⟨0⟩
  root := 7
  postedAt := Timestamp.epoch.after (.ofSeconds 3600)
  firstPostedAt := Timestamp.epoch.after (.ofSeconds 3600)
  claimDeadline := Timestamp.epoch.after (.ofSeconds 7779600)
  replacements := 0
  dispute := some
    { guardian := ⟨2⟩, raisedAt := Timestamp.epoch.after (.ofSeconds 7200),
      resolveNotBefore := Timestamp.epoch.after (.ofSeconds 50400) }

/-- The root is not replaced. The authority posts another in vain, and sweeps the period when the
deadline of its claims has passed by a sweep delay. -/
def unresolvedRun : List (Event PoolToken) :=
  [.request ⟨⟨⟨1⟩, Timestamp.epoch.after (.ofSeconds 172800), 1⟩, .postCommitment ⟨0⟩ 8⟩,
   .request ⟨⟨⟨1⟩, Timestamp.epoch.after (.ofSeconds 10371600), 1⟩, .sweepPeriod ⟨0⟩ ⟨3⟩⟩]

/-- The root of the period is never replaced, and a sweep is granted in the end. -/
theorem disputed_unmoved_iff_of_unresolved : ∃ l : Ledger PoolToken,
    Ledger.start {} ⟨1⟩ (some ⟨2⟩) { balances := Table.empty.insert ⟨1⟩ 1000 } .epoch = .ok l ∧
      (l.after disputedRun).commitment? ⟨0⟩ = some disputedRow ∧ disputedRow.isDisputed = true ∧
      (∀ call ∈ (l.after disputedRun).granted unresolvedRun, call.request.replaces ⟨0⟩ = false) ∧
      (l.after (disputedRun ++ unresolvedRun)).commitment? ⟨0⟩ = some disputedRow ∧
      (((l.after disputedRun).periodFund ⟨0⟩).SameMoney
          ((l.after (disputedRun ++ unresolvedRun)).periodFund ⟨0⟩) ↔
        (l.after disputedRun).remaining ⟨0⟩ = 0 ∨
          ∀ call ∈ (l.after disputedRun).granted unresolvedRun, call.request.sweeps ⟨0⟩ = false) ∧
      ∀ sweep ∈ (l.after disputedRun).granted unresolvedRun, sweep.request.sweeps ⟨0⟩ = true →
        disputedRow.claimDeadline.after (.ofSeconds 2592000) ≤ sweep.ctx.now ∧
          (l.after (disputedRun ++ unresolvedRun)).periodFund ⟨0⟩ =
            ((l.after disputedRun).periodFund ⟨0⟩).cleared sweep.ctx.now := by
  obtain ⟨l, hstart, hrow, hkeeps⟩ : ∃ l : Ledger PoolToken,
      Ledger.start {} ⟨1⟩ (some ⟨2⟩) { balances := Table.empty.insert ⟨1⟩ 1000 } .epoch = .ok l ∧
        (l.after disputedRun).commitment? ⟨0⟩ = some disputedRow ∧
        ∀ call ∈ (l.after disputedRun).granted unresolvedRun, call.request.replaces ⟨0⟩ = false :=
    ⟨_, rfl, by decide +kernel, by decide +kernel⟩
  exact ⟨l, hstart, hrow, rfl, hkeeps, disputed_unmoved_iff hstart hrow rfl hkeeps⟩

/-- A disputed root does not hold the money of its period back for ever: nobody replaces the root,
and the authority sweeps all of it while the dispute is open. -/
theorem swept_while_disputed_of_unresolved : ∃ l : Ledger PoolToken,
    Ledger.start {} ⟨1⟩ (some ⟨2⟩) { balances := Table.empty.insert ⟨1⟩ 1000 } .epoch = .ok l ∧
      InOrder (disputedRun ++ unresolvedRun) ∧
      (l.after disputedRun).commitment? ⟨0⟩ = some disputedRow ∧ disputedRow.isDisputed = true ∧
      (∀ call ∈ (l.after disputedRun).granted unresolvedRun, call.request.replaces ⟨0⟩ = false) ∧
      (l.after (disputedRun ++ unresolvedRun)).commitment? ⟨0⟩ = some disputedRow ∧
      ((l.after disputedRun).periodFund ⟨0⟩).swept = 0 ∧
      (l.after disputedRun).remaining ⟨0⟩ = 500 ∧
      ((l.after (disputedRun ++ unresolvedRun)).periodFund ⟨0⟩).swept = 500 ∧
      (l.after (disputedRun ++ unresolvedRun)).remaining ⟨0⟩ = 0 :=
  ⟨_, rfl, by decide +kernel, by decide +kernel, rfl, by decide +kernel, by decide +kernel,
    by decide +kernel, by decide +kernel, by decide +kernel, by decide +kernel⟩

end Ledger

end Settlement
