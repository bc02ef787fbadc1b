import Settlement.Proofs.Ledger.Conservation
import Settlement.Proofs.Ledger.Posting

namespace Settlement.Ledger

variable {τ : Type} {l l' : Ledger τ} {ctx : CallContext}

/-- Nothing but money has changed: the terms, the marks and the open commitments are what they
were. -/
structure SameClaims (l l' : Ledger τ) : Prop where
  terms : SameTerms l l'
  registry : l'.registry = l.registry
  commits : l'.commits = l.commits

/-- How the books may be after a request, whether it was granted or not. Besides what moves no money
there are three things that can happen to them: a deposit is counted, a sweep is counted, and claims
are paid. -/
inductive Moved (l : Ledger τ) (now : Timestamp) (l' : Ledger τ) : Prop
  | controlled {ctx : CallContext} {request : Request} {answer : Answer}
      (hcontrolled : Controlled l ctx request answer l')
  | idle (hsame : SameClaims l l') (hfunds : ∀ p, l'.periodFund p = l.periodFund p)
  | deposited {period : PeriodId} {total : Amount} (hsame : SameClaims l l')
      (hunposted : l.commitment? period = none)
      (hfunds : ∀ p, l'.periodFund p = if p = period then
        { l.periodFund period with deposited := total, lastDepositAt := some now }
        else l.periodFund p)
  | swept {period : PeriodId} {c : Commitment} (hsame : SameClaims l l')
      (hposted : l.commitment? period = some c)
      (hlate : c.claimDeadline.after l.claimPolicy.sweepDelay ≤ now)
      (hopen : (l.periodFund period).isSwept = false)
      (hfunds : ∀ p, l'.periodFund p = if p = period then
        { l.periodFund period with
          swept := (l.periodFund period).remaining, sweptAt := some now }
        else l.periodFund p)
  | settled {who : Address} {claims : List Reservation} {losses : List Amount} {token : τ}
      (hpayable : l.Payable who claims) (hpositive : ∀ claim ∈ claims, claim.2 ≠ 0)
      (hposted : ∀ claim ∈ claims, ∃ c, l.commitment? claim.1 = some c)
      (hlength : losses.length = claims.length)
      (hsettle : l' = l.settle who claims losses token)

theorem commitment?_of_checkDeposit {period : PeriodId} {amount : Amount}
    (h : l.checkDeposit ctx period amount = .ok ()) : l.commitment? period = none := by
  obtain ⟨_, -, h⟩ := Result.bind_eq_ok_iff.1 h
  obtain ⟨_, -, h⟩ := Result.bind_eq_ok_iff.1 h
  obtain ⟨_, hunposted, -⟩ := Result.bind_eq_ok_iff.1 h
  rw [require_eq_ok_iff] at hunposted
  exact Option.not_isSome_iff_eq_none.1 hunposted

/-- Only a period with a root is swept, when its claims are over and a further delay is. -/
theorem commitment?_of_checkSweep {period : PeriodId} {treasury : Address}
    (h : l.checkSweep ctx period treasury = .ok ()) :
    ∃ c, l.commitment? period = some c ∧
      c.claimDeadline.after l.claimPolicy.sweepDelay ≤ ctx.now := by
  obtain ⟨_, -, h⟩ := Result.bind_eq_ok_iff.1 h
  obtain ⟨_, -, h⟩ := Result.bind_eq_ok_iff.1 h
  obtain ⟨opensAt, hopensAt, h⟩ := Result.bind_eq_ok_iff.1 h
  obtain ⟨c, hrow, rfl⟩ := Option.map_eq_some_iff.1 (orRefuse_eq_ok_iff.1 hopensAt)
  exact ⟨c, hrow, require_eq_ok_iff.1 h⟩

theorem ValidClaim.posted {claimant : Address} {now : Timestamp} {period : PeriodId}
    {amount : Amount} {proof : List Digest} (h : l.ValidClaim claimant now period amount proof) :
    ∃ c, l.commitment? period = some c := by
  obtain ⟨c, hclaimable, -⟩ := h.proven
  exact ⟨c, (CommitmentBook.claimable_eq_ok_iff.1 hclaimable).1⟩

variable [PayoutToken τ]

theorem moved_of_paidOut {entries : List ClaimEntry} {total : Amount} {now : Timestamp}
    {outcome : Outcome τ (TransferReceipt × List Amount)}
    (hvalid : ∀ e ∈ entries, l.ValidClaim ctx.caller ctx.now e.period e.amount e.proof)
    (hpayable : l.Payable ctx.caller (entries.map ClaimEntry.reservation))
    (htotal : IsTotal (entries.map ClaimEntry.reservation) total)
    (hpaid : PaidOut l ctx.caller (entries.map ClaimEntry.reservation) total outcome) :
    Moved l now outcome.2 := by
  have hposted : ∀ claim ∈ entries.map ClaimEntry.reservation,
      ∃ c, l.commitment? claim.1 = some c := by
    intro claim hclaim
    obtain ⟨e, he, rfl⟩ := List.mem_map.1 hclaim
    exact (hvalid e he).posted
  cases hpaid with
  | unsent | takenBack => exact .idle ⟨⟨rfl, rfl, rfl, ⟨rfl, rfl, rfl⟩⟩, rfl, rfl⟩ fun _ => rfl
  | kept =>
    refine .settled hpayable htotal.positive hposted ?_ rfl
    rw [length_shares _ htotal.map_snd_ne_nil htotal.sum htotal.val_pos, List.length_map]
  | accepted _ hlosses =>
    exact .settled hpayable htotal.positive hposted (assess_eq_ok htotal hlosses).1 rfl

/-- Every request moves the books in one of these ways. A sweep that is taken back leaves no trace,
since nothing was swept before. -/
theorem moved (hsound : l.Sound) (call : Call) : Moved l call.ctx.now (l.step call) := by
  obtain ⟨ctx, request⟩ := call
  have hhandled := handled l ctx request
  change Moved l ctx.now (l.handle ctx request).2
  generalize l.handle ctx request = outcome at hhandled ⊢
  cases hhandled with
  | refused | uncollected => exact .idle ⟨⟨rfl, rfl, rfl, ⟨rfl, rfl, rfl⟩⟩, rfl, rfl⟩ fun _ => rfl
  | quiet hcontrolled => exact .controlled hcontrolled
  | unrecorded =>
    exact .idle ⟨⟨rfl, rfl, rfl, ⟨rfl, rfl, rfl⟩⟩, rfl, rfl⟩ fun p => l.funds.fund_set_self _ p
  | deposited hcheck =>
    exact .deposited ⟨⟨rfl, rfl, rfl, ⟨rfl, rfl, rfl⟩⟩, rfl, rfl⟩ (commitment?_of_checkDeposit hcheck)
      fun p => FundBook.fund_set ..
  | emptied hcheck hopen | swept hcheck hopen =>
    obtain ⟨c, hposted, hlate⟩ := commitment?_of_checkSweep hcheck
    exact .swept ⟨⟨rfl, rfl, rfl, ⟨rfl, rfl, rfl⟩⟩, rfl, rfl⟩ hposted hlate hopen
      fun p => FundBook.fund_set ..
  | @unpaid period _ _ _ _ hopen =>
    refine .idle ⟨⟨rfl, rfl, rfl, ⟨rfl, rfl, rfl⟩⟩, rfl, rfl⟩ fun p => ?_
    have hrelease : { l.funds.fund period with swept := 0, sweptAt := none } =
        l.funds.fund period := (hsound period).release_eq hopen
    rw [hrelease]
    exact l.funds.fund_set_self period p
  | @claimed entry hpassed =>
    have hvalid : ∀ e ∈ [entry], l.ValidClaim ctx.caller ctx.now e.period e.amount e.proof :=
      List.forall_mem_singleton.2 (admitOne_eq_ok_iff.1 hpassed).2.2
    exact moved_of_paidOut hvalid (payable_of_admitOne hpassed) (isTotal_of_admitOne hpassed)
      (Ledger.paidOut l ..)
  | batchClaimed _ hpassed =>
    exact moved_of_paidOut (admitAll_eq_ok_iff.1 hpassed).2.2.2 (payable_of_admitAll hpassed)
      (isTotal_of_admitAll hpassed) (Ledger.paidOut l ..)

end Settlement.Ledger
