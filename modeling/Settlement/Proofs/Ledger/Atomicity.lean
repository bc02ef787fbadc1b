import Settlement.Proofs.Ledger.Conservation
import Settlement.Proofs.Token.Contract

namespace Settlement

namespace Ledger

variable {τ : Type} {l : Ledger τ} {ctx : CallContext} {who : Address}
  {reserved : List Reservation} {losses : List Amount} {receipt : TransferReceipt}
  {period : PeriodId} {amount total : Amount}

/-- The claims were paid by one transfer. They are marked, their amounts count as claimed, each
period bears its part of the loss if there is room for it, and their commitments are closed. Apart
from this and the token nothing has changed. -/
structure Stands (l : Ledger τ) (who : Address) (claims : List Reservation)
    (receipt : TransferReceipt) (losses : List Amount) (l' : Ledger τ) : Prop where
  unclaimed : ∀ claim ∈ claims, l.hasClaimed who claim.1 = false
  marks : ∀ claimant p, l'.hasClaimed claimant p = true ↔
    (claimant = who ∧ p ∈ claims.map Prod.fst) ∨ l.hasClaimed claimant p = true
  length_losses : losses.length = claims.length
  sum_losses : amountSum losses = receipt.shortfall.val
  funds : ∀ p amount, (p, amount) ∈ claims → ∃ f claimed precisionLoss,
    l.funds.get? p = some f ∧ l'.funds.get? p = some { f with claimed, precisionLoss } ∧
    claimed.val = f.claimed.val + amount.val ∧
    precisionLoss.val =
      if f.precisionLoss.val + sumFor ((claims.map Prod.fst).zip losses) p < 2 ^ 128
      then f.precisionLoss.val + sumFor ((claims.map Prod.fst).zip losses) p
      else f.precisionLoss.val
  other_funds : ∀ p, p ∉ claims.map Prod.fst → l'.funds.get? p = l.funds.get? p
  commits : ∀ claimant p, l'.commits.get? claimant p =
    if claimant = who ∧ p ∈ claims.map Prod.fst then none else l.commits.get? claimant p
  rest : l' = { l with
    funds := l'.funds, registry := l'.registry, commits := l'.commits, token := l'.token }

theorem stands_settle (h : l.Payable who reserved) (hlength : losses.length = reserved.length)
    (hsum : amountSum losses = receipt.shortfall.val) (token : τ) :
    Stands l who reserved receipt losses (l.settle who reserved losses token) where
  unclaimed := h.unclaimed
  marks _ _ := hasClaimed_settle
  length_losses := hlength
  sum_losses := hsum
  funds p amount hmem := by
    obtain ⟨f, loss, hget, -, hsettle⟩ := get?_settle_of_mem h hlength token hmem
    have hclaimed := val_claimed_settle h hlength token p
    have hlost := val_precisionLoss_settle h hlength token p
    rw [FundBook.fund_of_get? hget, FundBook.fund_of_get? hsettle] at hclaimed hlost
    rw [sumFor_of_mem h.nodup hmem] at hclaimed
    exact ⟨f, _, _, hget, hsettle, hclaimed, hlost⟩
  other_funds p hp := get?_settle_of_not_mem hp
  commits claimant p := CommitBook.get?_removeAll ..
  rest := rfl

variable [PayoutToken τ]

/-- A reveal that passed its checks made the token pay, the ledger objected to what the token
reported, and the token refused with `e` to take the transfer back. -/
def RevertRefused (l : Ledger τ) (call : Call) (e : Error) : Prop :=
  ∃ total receipt cause sent, l.admitted? call.ctx call.request = some total ∧
    PayoutToken.transfer l.token call.ctx.caller total = (.ok receipt, sent) ∧
    l.assess call.request.claims total receipt = .error cause ∧
    (PayoutToken.revert sent receipt).1 = .error e

/-- A request without a payout that the token refuses to take back is refused without a trace. The
cases are those of the effect of a request; reveals are taken up by `paidOut_error`. -/
private theorem handled_error {request : Request} {outcome : Outcome τ Answer} {e : Error}
    (hsound : l.Sound) (hhonours : Honours l.token) (hhandled : Handled l ctx request outcome)
    (hnone : l.admitted? ctx request = none) (herror : outcome.1 = .error e) : outcome.2 = l := by
  cases hhandled with
  | refused e => rfl
  | quiet => cases herror
  | uncollected _ hcollect =>
    obtain rfl := hhonours.collect_error _ _ _ _ hcollect
    rfl
  | unrecorded hcheck hcollect hfull =>
    obtain ⟨total, htotal⟩ := exists_add?_of_checkDeposit hcheck
      (hhonours.collect_le _ _ _ _ hcollect)
    rw [htotal] at hfull
    cases hfull
  | deposited => cases herror
  | emptied => cases herror
  | @unpaid period treasury e' token _ hopen hsome hpaid =>
    obtain rfl := hhonours.transfer_error _ _ _ _ hpaid
    have hne : l.funds.fund period ≠ {} := by
      intro hempty
      apply hsome
      unfold remaining FundBook.remaining
      rw [hempty]
      rfl
    have hrelease : { l.funds.fund period with swept := 0, sweptAt := none } =
        l.funds.fund period := (hsound period).release_eq hopen
    have hfunds : l.funds.set period { l.funds.fund period with swept := 0, sweptAt := none } =
        l.funds :=
      (congrArg (l.funds.set period) hrelease).trans
        (FundBook.set_eq_self (FundBook.get?_eq_some_fund hne))
    simp only [hfunds]
  | swept => cases herror
  | claimed hpassed => simp [admitted?, hpassed, Except.toOption] at hnone
  | batchClaimed hentries hpassed => simp [admitted?, hentries, hpassed, Except.toOption] at hnone

/-- When a payout is refused the state is what it was, or the token has refused to take the transfer
back and the payout stands. -/
private theorem paidOut_error {outcome : Outcome τ (TransferReceipt × List Amount)} {e : Error}
    (hhonours : Honours l.token) (hpayable : l.Payable who reserved)
    (htotal : IsTotal reserved total) (hpaid : PaidOut l who reserved total outcome)
    (herror : outcome.1 = .error e) :
    (outcome.2 = l ∧ ∀ receipt cause sent e',
        PayoutToken.transfer l.token who total = (.ok receipt, sent) →
        l.assess reserved total receipt = .error cause →
        (PayoutToken.revert sent receipt).1 ≠ .error e') ∨
      ∃ receipt cause sent losses,
        PayoutToken.transfer l.token who total = (.ok receipt, sent) ∧
        l.assess reserved total receipt = .error cause ∧
        (PayoutToken.revert sent receipt).1 = .error e ∧
        outcome.2.token = sent ∧ Stands l who reserved receipt losses outcome.2 := by
  cases hpaid with
  | unsent hsent =>
    obtain rfl := hhonours.transfer_error _ _ _ _ hsent
    refine Or.inl ⟨rfl, fun receipt cause sent e' hsent' => ?_⟩
    rw [hsent] at hsent'
    cases hsent'
  | takenBack hsent _ hback =>
    obtain rfl := hhonours.revert_transfer _ _ _ _ _ hsent hback
    refine Or.inl ⟨rfl, fun receipt cause sent e' hsent' _ hrefused => ?_⟩
    rw [hsent] at hsent'
    cases hsent'
    rw [hback] at hrefused
    cases hrefused
  | @kept receipt cause e' sent token hsent hcause hback =>
    cases herror
    obtain rfl := hhonours.revert_error _ _ _ _ _ _ hsent hback
    have hlength := length_shares receipt.shortfall htotal.map_snd_ne_nil htotal.sum htotal.val_pos
    rw [List.length_map] at hlength
    have hsum := amountSum_shares receipt.shortfall htotal.map_snd_ne_nil htotal.sum htotal.val_pos
    refine Or.inr ⟨receipt, cause, token, _, hsent, hcause, ?_, rfl,
      stands_settle hpayable hlength hsum token⟩
    rw [hback]
  | accepted => cases herror

/-- When a request is refused in a state that a ledger can reach, and the token keeps its contract
there, the state is what it was before, in all its parts. The one exception is a payout that the
token refuses to take back: its refusal is the answer, and the payout stands. -/
theorem step_eq_or_stands {policy : ProtocolPolicy} {authority : Address}
    {guardian : Option Address} {token : τ} {now : Timestamp}
    (hstart : Ledger.start policy authority guardian token now = .ok l) (events : List (Event τ))
    (hhonours : Honours (l.after events).token) (call : Call) {e : Error}
    (herror : ((l.after events).handle call.ctx call.request).1 = .error e) :
    ((l.after events).step call = l.after events ∧
        ∀ e', ¬ (l.after events).RevertRefused call e') ∨
      ((l.after events).RevertRefused call e ∧ ∃ total receipt sent losses,
        amountSum (call.request.claims.map Prod.snd) = total.val ∧
        PayoutToken.transfer (l.after events).token call.ctx.caller total = (.ok receipt, sent) ∧
        ((l.after events).step call).token = sent ∧
        Stands (l.after events) call.ctx.caller call.request.claims receipt losses
          ((l.after events).step call)) := by
  have hsound := sound_after hstart events
  generalize l.after events = reached at hhonours herror hsound ⊢
  cases hadmitted : reached.admitted? call.ctx call.request with
  | none =>
    refine Or.inl ⟨handled_error hsound hhonours (handled reached ..) hadmitted herror, ?_⟩
    rintro e' ⟨total, receipt, cause, sent, hsome, -⟩
    rw [hadmitted] at hsome
    cases hsome
  | some total =>
    obtain ⟨hpayable, htotal, f, hhandle⟩ := handle_of_admitted? hadmitted
    have hstep : reached.step call =
        (reached.payOut call.ctx.caller call.request.claims total).2 := congrArg Prod.snd hhandle
    rw [hhandle, Outcome.fst_map_eq_error_iff] at herror
    rw [hstep]
    rcases paidOut_error hhonours hpayable htotal (paidOut reached ..) herror with
      ⟨hsame, hnot⟩ | ⟨receipt, cause, sent, losses, hsent, hcause, hback, htoken, hstands⟩
    · refine Or.inl ⟨hsame, ?_⟩
      rintro e' ⟨total', receipt, cause, sent, hsome, hsent, hcause, hback⟩
      rw [hadmitted] at hsome
      cases hsome
      exact hnot receipt cause sent e' hsent hcause hback
    · exact Or.inr ⟨⟨total, receipt, cause, sent, hadmitted, hsent, hcause, hback⟩,
        total, receipt, sent, losses, htotal.sum, hsent, htoken, hstands⟩

/-- The slippage of a reveal is objected to, and the token does not take the transfer back. -/
theorem step_eq_or_stands_of_refusing : ∃ (reached : Ledger FaultyToken) (call : Call) (e : Error),
    Ledger.start {} ⟨1⟩ none refusingStart.token .epoch = .ok refusingStart ∧
      refusingStart.after refusingPaid = reached ∧ Honours reached.token ∧
      (reached.handle call.ctx call.request).1 = .error e ∧ reached.step call ≠ reached ∧
      ((reached.step call = reached ∧ ∀ e', ¬ reached.RevertRefused call e') ∨
        (reached.RevertRefused call e ∧ ∃ total receipt sent losses,
          amountSum (call.request.claims.map Prod.snd) = total.val ∧
          PayoutToken.transfer reached.token call.ctx.caller total = (.ok receipt, sent) ∧
          (reached.step call).token = sent ∧
          Stands reached call.ctx.caller call.request.claims receipt losses
            (reached.step call))) := by
  have hstart : Ledger.start {} ⟨1⟩ none refusingStart.token .epoch = .ok refusingStart := rfl
  have hhonours : Honours (refusingStart.after refusingPaid).token := by
    rw [after_refusingPaid]
    exact FaultyToken.honours_of_refuseRevert rfl rfl
  have hmarked : (refusingLedger.payOut ⟨2⟩ [lossyEntry.reservation] 200).2.hasClaimed ⟨2⟩ ⟨1⟩ ≠
      refusingLedger.hasClaimed ⟨2⟩ ⟨1⟩ := by decide +kernel
  refine ⟨refusingStart.after refusingPaid, ⟨refusingContext, .revealClaim lossyEntry⟩, _, hstart,
    rfl, hhonours, fst_handle_lossy, fun hsame => ?_,
    step_eq_or_stands hstart refusingPaid hhonours _ fst_handle_lossy⟩
  rw [after_refusingPaid, step_revealClaim admitOne_lossy] at hsame
  exact hmarked (congrArg (fun l : Ledger FaultyToken => l.hasClaimed ⟨2⟩ ⟨1⟩) hsame)

end Ledger

end Settlement
