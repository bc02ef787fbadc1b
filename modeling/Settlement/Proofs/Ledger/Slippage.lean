import Mathlib.Algebra.Ring.Int.Defs
import Settlement.Proofs.Ledger.History
import Settlement.Proofs.Ledger.LossBound
import Settlement.Proofs.Ledger.Posting
import Settlement.Proofs.Ledger.Total

namespace Settlement

namespace Ledger

/-- What was claimed of all periods together. There are finitely many periods, so the sum is over
all of them. -/
def totalClaimed {τ : Type} (l : Ledger τ) : Nat := ∑ p, (l.periodFund p).claimed.val

/-- What was lost of all periods together, added up in the same way. -/
def totalLost {τ : Type} (l : Ledger τ) : Nat := ∑ p, (l.periodFund p).precisionLoss.val

section totals

variable {τ : Type} {l : Ledger τ} {who : Address} {reserved : List Reservation} {total : Amount}
  {losses : List Amount}

theorem totalClaimed_settle (hpayable : l.Payable who reserved) (htotal : IsTotal reserved total)
    (hlength : losses.length = reserved.length) (token : τ) :
    (l.settle who reserved losses token).totalClaimed = l.totalClaimed + total.val := by
  calc (l.settle who reserved losses token).totalClaimed
      = ∑ p, ((l.periodFund p).claimed.val + sumFor reserved p) :=
        Finset.sum_congr rfl fun p _ => val_claimed_settle hpayable hlength token p
    _ = l.totalClaimed + total.val := by
        rw [Finset.sum_add_distrib, sum_sumFor, htotal.sum]
        rfl

theorem totalLost_settle (hpayable : l.Payable who reserved)
    (hlength : losses.length = reserved.length)
    (hroom : l.funds.HasRoom ((reserved.map Prod.fst).zip losses)) (token : τ) :
    (l.settle who reserved losses token).totalLost = l.totalLost + amountSum losses := by
  have hlosses : ((reserved.map Prod.fst).zip losses).map Prod.snd = losses :=
    List.map_snd_zip (by simp [hlength])
  calc (l.settle who reserved losses token).totalLost
      = ∑ p, ((l.periodFund p).precisionLoss.val +
          sumFor ((reserved.map Prod.fst).zip losses) p) :=
        Finset.sum_congr rfl fun p _ =>
          val_precisionLoss_settle_of_room hpayable hlength hroom token p
    _ = l.totalLost + amountSum losses := by
        rw [Finset.sum_add_distrib, sum_sumFor, hlosses]
        rfl

theorem shortfall_le_of_checkSlippage {receipt : TransferReceipt}
    (hwithin : l.checkSlippage receipt = .ok ()) :
    10000 * receipt.shortfall.val ≤ l.claimPolicy.maxSlippageBps.val * receipt.sent.val := by
  unfold checkSlippage at hwithin
  by_cases hzero : receipt.shortfall = 0
  · rw [hzero, Word.val_zero, Nat.mul_zero]
    exact Nat.zero_le _
  · simp only [if_neg hzero] at hwithin
    obtain ⟨scaled, hscaled, hwithin⟩ := Result.bind_eq_ok_iff.1 hwithin
    obtain ⟨allowed, hallowed, hwithin⟩ := Result.bind_eq_ok_iff.1 hwithin
    rw [orRefuse_eq_ok_iff, Word.ofNat?_eq_some_iff] at hscaled hallowed
    rw [require_eq_ok_iff, Word.le_def, ← hscaled, ← hallowed] at hwithin
    rw [Nat.mul_comm, Nat.mul_comm _ receipt.sent.val]
    exact hwithin

theorem shortfall_le_of_assess {receipt : TransferReceipt}
    (h : l.assess reserved total receipt = .ok losses) :
    10000 * receipt.shortfall.val ≤ l.claimPolicy.maxSlippageBps.val * receipt.sent.val := by
  obtain ⟨_, hwithin, -⟩ := Result.bind_eq_ok_iff.1 h
  exact shortfall_le_of_checkSlippage hwithin

end totals

variable {l : Ledger PoolToken} {call : Call}

/-- What a call for claims adds to the balance of its caller. -/
def credit (l : Ledger PoolToken) (call : Call) : Int :=
  if call.request.claims = [] then 0
  else ((l.step call).token.balanceOf call.ctx.caller).val -
    (l.token.balanceOf call.ctx.caller).val

/-- What the calls of a run add to the balances of their claimants, in order. -/
def credits (l : Ledger PoolToken) (events : List (Event PoolToken)) : List Int :=
  l.gather (fun l call => [l.credit call]) events

/-- How a call divides what it pays between the claimant and the losses. -/
structure Divides (l : Ledger PoolToken) (call : Call) (claimed lost : Nat) : Prop where
  totalClaimed : (l.step call).totalClaimed = l.totalClaimed + claimed
  totalLost : (l.step call).totalLost = l.totalLost + lost
  credit_add : l.credit call + lost = claimed
  within : 10000 * lost ≤ l.claimPolicy.maxSlippageBps.val * claimed
  unpaid : (∀ payout ∈ l.payouts call, payout.claims = []) → l.credit call = 0

private theorem divides_nothing {l' : Ledger PoolToken} (hstep : l.step call = l')
    (hclaimed : ∀ p, (l'.periodFund p).claimed = (l.periodFund p).claimed)
    (hlost : ∀ p, (l'.periodFund p).precisionLoss = (l.periodFund p).precisionLoss)
    (hcredit : call.request.claims = [] ∨
      l'.token.balanceOf call.ctx.caller = l.token.balanceOf call.ctx.caller) :
    l.Divides call 0 0 := by
  have hcredit : l.credit call = 0 := by
    unfold credit
    split
    · rfl
    · next hclaims =>
      rw [hstep, hcredit.resolve_left hclaims, Int.sub_self]
  refine ⟨?_, ?_, by rw [hcredit]; rfl, by rw [Nat.mul_zero, Nat.mul_zero], fun _ => hcredit⟩
  · rw [hstep, Nat.add_zero]
    exact Finset.sum_congr rfl fun p _ => congrArg Word.val (hclaimed p)
  · rw [hstep, Nat.add_zero]
    exact Finset.sum_congr rfl fun p _ => congrArg Word.val (hlost p)

/-- Every call divides what it pays: a payout that stands credits its claimant with what it claims
less its losses, and the losses are within the limit of the policy. With this token none stands that
was objected to. -/
theorem exists_divides (l : Ledger PoolToken) (call : Call) :
    ∃ claimed lost, l.Divides call claimed lost := by
  cases hadmitted : l.admitted? call.ctx call.request with
  | none =>
    have hunpaid := unpaid_of_admitted?_eq_none hadmitted
    refine ⟨0, 0, divides_nothing rfl hunpaid.claimed hunpaid.lost ?_⟩
    by_cases hclaims : call.request.claims = []
    · exact Or.inl hclaims
    · obtain ⟨e, hrefused⟩ := handle_of_admitted?_eq_none hadmitted hclaims
      refine Or.inr ?_
      unfold step
      rw [hrefused]
  | some total =>
    obtain ⟨hpayable, htotal, f, hhandle⟩ := handle_of_admitted? hadmitted
    have hpaid := paidByPool l call.ctx.caller call.request.claims total
    generalize l.payOut call.ctx.caller call.request.claims total = outcome at hhandle hpaid
    cases hpaid with
    | @calledOff e token hbalances =>
      have hstep : l.step call = { l with token } := congrArg Prod.snd hhandle
      exact ⟨0, 0, divides_nothing hstep (fun _ => rfl) (fun _ => rfl) (Or.inr (hbalances _))⟩
    | @accepted receipt losses token hsent hlosses =>
      have hstep : l.step call = l.settle call.ctx.caller call.request.claims losses token :=
        congrArg Prod.snd hhandle
      obtain ⟨hlength, hsum, -, hroom⟩ := assess_eq_ok htotal hlosses
      obtain ⟨hexact, hreceived⟩ := sent_of_transfer hsent
      have hbalance := PoolToken.balanceOf_of_transfer hsent
      have hcredit : l.credit call = receipt.received.val := by
        unfold credit
        rw [if_neg htotal.nonempty, hstep]
        change ((token.balanceOf call.ctx.caller).val : Int) - _ = _
        omega
      refine ⟨total.val, receipt.shortfall.val, ?_, ?_, ?_, ?_, fun hnone => ?_⟩
      · rw [hstep]
        exact totalClaimed_settle hpayable htotal hlength token
      · rw [hstep, ← hsum]
        exact totalLost_settle hpayable hlength hroom token
      · rw [Word.le_def] at hreceived
        rw [hcredit, TransferReceipt.shortfall, Word.val_satSub, hexact]
        rw [hexact] at hreceived
        omega
      · rw [← hexact]
        exact shortfall_le_of_assess hlosses
      · obtain ⟨payout, hmem, hclaims⟩ :=
          exists_payout_of_ok (congrArg Prod.fst hhandle) htotal.nonempty
        exact absurd (hclaims.symm.trans (hnone payout hmem)) htotal.nonempty

/-- The credits so far and the losses make up what was claimed, and the losses are within the
limit. -/
structure Accounted (l : Ledger PoolToken) (credits : List Int) : Prop where
  sum_add : credits.sum + l.totalLost = l.totalClaimed
  within : 10000 * l.totalLost ≤ l.claimPolicy.maxSlippageBps.val * l.totalClaimed

/-- A call keeps this, since what it divides is accounted for by itself. -/
theorem Accounted.step {before : List Int} (h : l.Accounted before) (call : Call) :
    (l.step call).Accounted (before ++ [l.credit call]) := by
  obtain ⟨claimed, lost, hdivides⟩ := exists_divides l call
  have hsum := h.sum_add
  have hcredit := hdivides.credit_add
  have hwithin := h.within
  refine ⟨?_, ?_⟩
  · rw [hdivides.totalClaimed, hdivides.totalLost, List.sum_append, List.sum_singleton]
    omega
  · rw [hdivides.totalClaimed, hdivides.totalLost, (samePolicy_step l call).claims, Nat.mul_add,
      Nat.mul_add]
    exact Nat.add_le_add h.within hdivides.within

theorem Accounted.after {before : List Int} (h : l.Accounted before)
    (events : List (Event PoolToken)) : (l.after events).Accounted (before ++ l.credits events) :=
  gather_of_next (fun _ call _ h => h.step call) (fun _ _ _ h => ⟨h.sum_add, h.within⟩) h events

/-- Over a run with the token that burns a fee, however the fee changes between the requests, what
claimants were credited with and what was lost of all periods make up what was claimed of them, and
the loss is within the limit of the policy. Only claims that are paid are credited. -/
theorem credits_add_totalLost {policy : ProtocolPolicy} {authority : Address}
    {guardian : Option Address} {token : PoolToken} {now : Timestamp}
    (hstart : Ledger.start policy authority guardian token now = .ok l)
    (events : List (Event PoolToken)) :
    (l.credits events).sum + (l.after events).totalLost = (l.after events).totalClaimed ∧
      10000 * (l.after events).totalLost ≤
        policy.claims.maxSlippageBps.val * (l.after events).totalClaimed ∧
      ∀ earlier call, (∀ payout ∈ (l.after earlier).payouts call, payout.claims = []) →
        (l.after earlier).credit call = 0 := by
  obtain ⟨-, hpolicy, hfunds, -, -⟩ := start_eq_ok hstart
  have hnone : l.totalClaimed = 0 ∧ l.totalLost = 0 := by
    have hempty (p : PeriodId) : l.periodFund p = {} := by
      unfold periodFund
      rw [hfunds]
      rfl
    refine ⟨Finset.sum_eq_zero fun p _ => ?_, Finset.sum_eq_zero fun p _ => ?_⟩
    · rw [hempty p]
      rfl
    · rw [hempty p]
      rfl
  have hstarted : l.Accounted [] := by
    refine ⟨?_, ?_⟩
    · rw [hnone.1, hnone.2]
      rfl
    · rw [hnone.1, hnone.2, Nat.mul_zero, Nat.mul_zero]
  have haccounted := hstarted.after events
  have hwithin := haccounted.within
  rw [(samePolicy_after l events).claims, hpolicy] at hwithin
  refine ⟨haccounted.sum_add, hwithin, fun earlier call hunpaid => ?_⟩
  obtain ⟨claimed, lost, hdivides⟩ := exists_divides (l.after earlier) call
  exact hdivides.unpaid hunpaid

/-- Of the two hundred and one that are claimed two are lost, within the limit. -/
theorem credits_add_totalLost_of_uneven :
    Ledger.start { claims := { minClaimAmount := 1 } } ⟨1⟩ none unevenStart.token .epoch =
        .ok unevenStart ∧
      (unevenStart.credits unevenRun).sum + (unevenStart.after unevenRun).totalLost =
        (unevenStart.after unevenRun).totalClaimed ∧
      10000 * (unevenStart.after unevenRun).totalLost ≤
        ({ claims := { minClaimAmount := 1 } } : ProtocolPolicy).claims.maxSlippageBps.val *
          (unevenStart.after unevenRun).totalClaimed ∧
      ∀ earlier call,
        (∀ payout ∈ (unevenStart.after earlier).payouts call, payout.claims = []) →
          (unevenStart.after earlier).credit call = 0 := by
  have hstart : Ledger.start { claims := { minClaimAmount := 1 } } ⟨1⟩ none unevenStart.token
      .epoch = .ok unevenStart := rfl
  exact ⟨hstart, credits_add_totalLost hstart unevenRun⟩

end Ledger

end Settlement
