import Settlement.Proofs.Ledger.Conservation
import Settlement.Proofs.Ledger.Total
import Settlement.Proofs.Token.Pool

namespace Settlement

namespace PoolToken

/-- A change of the token from outside. None of them touches the pool. -/
inductive Adjustment
  | mint (who : Address) (amount : Amount)
  | setFee (bps : Word 32)
  | setFailing (failing : Bool)

/-- The token after an adjustment. Minting that is refused changes nothing. -/
def adjust (t : PoolToken) : Adjustment → PoolToken
  | .mint who amount =>
    match t.mint who amount with
    | .ok minted => minted
    | .error _ => t
  | .setFee bps => t.setFee bps
  | .setFailing failing => t.setFailing failing

theorem pool_adjust (t : PoolToken) (adjustment : Adjustment) :
    (t.adjust adjustment).pool = t.pool := by
  cases adjustment with
  | setFee bps => rfl
  | setFailing failing => rfl
  | mint who amount =>
    simp only [adjust]
    cases hmint : t.mint who amount with
    | error e => rfl
    | ok minted =>
      obtain ⟨balance, -, hminted⟩ := Result.bind_eq_ok_iff.1 hmint
      obtain rfl := Result.pure_eq_ok_iff.1 hminted
      rfl

end PoolToken

/-- A request, or an adjustment of the token between two requests. -/
inductive PoolEvent
  | request (call : Call)
  | adjust (adjustment : PoolToken.Adjustment)

/-- The same as an event of a ledger over this token. -/
def PoolEvent.event : PoolEvent → Event PoolToken
  | .request call => .request call
  | .adjust adjustment => .token fun t => t.adjust adjustment

namespace Ledger

variable {l : Ledger PoolToken} {ctx : CallContext} {who : Address}
  {reserved : List Reservation} {losses : List Amount} {total : Amount}

/-- The pool holds what remains of all periods, no more and no less, and the funds are in order. A
fee comes off a deposit before it is credited and off a payout after it is charged, so the two books
never see it. -/
structure Solvent (l : Ledger PoolToken) : Prop where
  sound : l.Sound
  pool : l.token.pool.val = ∑ p, (l.remaining p).val

/-- When the fund of one period is replaced, what all have left changes by the difference of the
two. -/
theorem sum_remaining_set (b : FundBook) (p : PeriodId) (f : PeriodFund) :
    ∑ q, ((b.set p f).remaining q).val + (b.remaining p).val =
      ∑ q, (b.remaining q).val + f.remaining.val :=
  b.sum_set (fun f => f.remaining.val) p f

/-- A payout takes from the funds what it transfers; its losses are not part of what remains. -/
theorem sum_remaining_settle (hpayable : l.Payable who reserved) (htotal : IsTotal reserved total)
    (hlength : losses.length = reserved.length) (token : PoolToken) :
    ∑ p, ((l.settle who reserved losses token).remaining p).val + total.val =
      ∑ p, (l.remaining p).val := by
  have hperiod (p : PeriodId) : ((l.settle who reserved losses token).remaining p).val +
      sumFor reserved p = (l.remaining p).val := by
    change ((l.settle who reserved losses token).funds.fund p).remaining.val + _ =
      (l.funds.fund p).remaining.val
    by_cases hp : p ∈ reserved.map Prod.fst
    · obtain ⟨⟨q, amount⟩, hmem, heq⟩ := List.mem_map.1 hp
      obtain rfl : q = p := heq
      obtain ⟨loss, -, hfund⟩ := fund_settle_of_mem hpayable hlength token hmem
      have hclaimed := val_claimed_settle hpayable hlength token q
      have hroom := hpayable.claimed_add_le hmem
      rw [sumFor_of_mem hpayable.nodup hmem] at hclaimed ⊢
      rw [hfund] at hclaimed ⊢
      rw [PeriodFund.val_remaining, PeriodFund.val_remaining, hclaimed]
      change (l.funds.fund q).deposited.val - _ - (l.funds.fund q).swept.val + _ = _
      omega
    · rw [fund_settle_of_not_mem hp, sumFor_of_not_mem hp, Nat.add_zero]
  calc ∑ p, ((l.settle who reserved losses token).remaining p).val + total.val
      = ∑ p, ((l.settle who reserved losses token).remaining p).val +
          ∑ p, sumFor reserved p := by rw [sum_sumFor, htotal.sum]
    _ = ∑ p, (l.remaining p).val := by
        rw [← Finset.sum_add_distrib]
        exact Finset.sum_congr rfl fun p _ => hperiod p

/-- A pool that moves by what the fund of one period moves by still holds what all of them have
left. -/
theorem Solvent.pool_set (h : l.Solvent) {period : PeriodId} {f : PeriodFund} {token : PoolToken}
    (hmoved : token.pool.val + (l.remaining period).val = l.token.pool.val + f.remaining.val) :
    token.pool.val = ∑ p, ((l.funds.set period f).remaining p).val := by
  have hset := sum_remaining_set l.funds period f
  have hbefore : l.token.pool.val = ∑ p, (l.funds.remaining p).val := h.pool
  change _ + (l.funds.remaining period).val = _ at hmoved
  omega

/-- A payout keeps this, however it ends. Since this token takes back every transfer that it was
just asked for, a payout that is called off leaves the pool where it was. -/
theorem Solvent.paidOut {outcome : Outcome PoolToken (TransferReceipt × List Amount)}
    (h : l.Solvent) (hpayable : l.Payable who reserved) (htotal : IsTotal reserved total)
    (hpaid : PaidOut l who reserved total outcome) : outcome.2.Solvent := by
  refine ⟨h.sound.paidOut hpayable htotal hpaid, ?_⟩
  cases hpaid with
  | unsent hsent =>
    obtain ⟨-, rfl⟩ := unlessRefused_eq_error_iff.1 hsent
    exact h.pool
  | takenBack hsent _ hback =>
    rw [PoolToken.revert_of_transfer hsent] at hback
    cases hback
    exact h.pool
  | kept hsent _ hback =>
    rw [PoolToken.revert_of_transfer hsent] at hback
    cases hback
  | @accepted receipt losses token hsent hlosses =>
    have hpool := PoolToken.pool_of_transfer hsent
    have hfunds := sum_remaining_settle hpayable htotal (assess_eq_ok htotal hlosses).1 token
    have hbefore := h.pool
    change token.pool.val = ∑ p, ((l.settle who reserved losses token).remaining p).val
    omega

theorem Solvent.handled {request : Request} {outcome : Outcome PoolToken Answer} (h : l.Solvent)
    (hhandled : Handled l ctx request outcome) : outcome.2.Solvent := by
  refine ⟨h.sound.handled hhandled, ?_⟩
  cases hhandled with
  | refused e => exact h.pool
  | quiet hcontrolled =>
    obtain ⟨hfunds, -, htoken⟩ := hcontrolled.money
    have hbefore : l.token.pool.val = ∑ p, (l.funds.remaining p).val := h.pool
    rw [← hfunds, ← htoken] at hbefore
    exact hbefore
  | uncollected _ hcollect =>
    obtain ⟨-, rfl⟩ := unlessRefused_eq_error_iff.1 hcollect
    exact h.pool
  | unrecorded hcheck hcollect hfull =>
    obtain ⟨total, htotal⟩ := exists_add?_of_checkDeposit hcheck (PoolToken.collect_le hcollect)
    rw [htotal] at hfull
    cases hfull
  | @deposited period amount received total token _ hcollect htotal =>
    -- The pool and the fund are credited with the same amount, what is left after the fee.
    have hpool := PoolToken.pool_of_collect hcollect
    have hdeposited := Word.add?_eq_some_iff.1 htotal
    have hcovered : (l.funds.fund period).claimed.val + (l.funds.fund period).swept.val ≤
        (l.funds.fund period).deposited.val := (h.sound period).covered
    apply h.pool_set
    change token.pool.val + (l.funds.fund period).remaining.val = _
    simp only [PeriodFund.val_remaining]
    omega
  | @emptied period treasury _ hopen hnone =>
    apply h.pool_set
    have hswept := PeriodFund.val_remaining_sweep (h.sound period) hopen ctx.now
    rw [Word.val_eq_zero_iff.2 hnone]
    exact congrArg (l.token.pool.val + ·) hswept.symm
  | @unpaid period treasury e token _ hopen _ hpaid =>
    obtain ⟨-, rfl⟩ := unlessRefused_eq_error_iff.1 hpaid
    apply h.pool_set
    have hrelease : { l.funds.fund period with swept := 0, sweptAt := none } =
        l.funds.fund period := (h.sound period).release_eq hopen
    rw [hrelease]
    rfl
  | @swept period treasury receipt token _ hopen _ hpaid =>
    have hpool := PoolToken.pool_of_transfer hpaid
    have hswept := PeriodFund.val_remaining_sweep (h.sound period) hopen ctx.now
    apply h.pool_set
    exact hpool.trans (congrArg (l.token.pool.val + ·) hswept.symm)
  | claimed hpassed =>
    exact (h.paidOut (payable_of_admitOne hpassed) (isTotal_of_admitOne hpassed)
      (Ledger.paidOut l ..)).pool
  | batchClaimed _ hpassed =>
    exact (h.paidOut (payable_of_admitAll hpassed) (isTotal_of_admitAll hpassed)
      (Ledger.paidOut l ..)).pool

theorem Solvent.next (h : l.Solvent) (event : PoolEvent) : (l.next event.event).Solvent := by
  cases event with
  | request call => exact h.handled (Ledger.handled l call.ctx call.request)
  | adjust adjustment =>
    refine ⟨h.sound, ?_⟩
    change (l.token.adjust adjustment).pool.val = _
    rw [PoolToken.pool_adjust]
    exact h.pool

theorem Solvent.after (h : l.Solvent) (events : List PoolEvent) :
    (l.after (events.map PoolEvent.event)).Solvent := by
  induction events generalizing l with
  | nil => exact h
  | cons event rest ih => exact ih (h.next event)

/-- In every state of a run with the token that burns a fee, its pool holds exactly what all periods
together have left, if it held nothing at the start: whatever fees are taken off deposits and
payouts, whatever transfers fail or are taken back, and whatever is swept. -/
theorem pool_eq_sum_remaining {policy : ProtocolPolicy} {authority : Address}
    {guardian : Option Address} {token : PoolToken} {now : Timestamp}
    (hstart : Ledger.start policy authority guardian token now = .ok l) (hempty : token.pool = 0)
    (events : List PoolEvent) :
    (l.after (events.map PoolEvent.event)).token.pool.val =
      ∑ p, ((l.after (events.map PoolEvent.event)).remaining p).val := by
  obtain ⟨-, -, hfunds, -, htoken⟩ := start_eq_ok hstart
  have hsolvent : l.Solvent := by
    refine ⟨sound_after hstart [], ?_⟩
    have hnone (p : PeriodId) : (l.remaining p).val = 0 := by
      unfold remaining
      rw [hfunds]
      rfl
    rw [htoken, hempty, Word.val_zero, Finset.sum_eq_zero fun p _ => hnone p]
  exact (hsolvent.after events).pool

/-- Two deposits under a fee of one percent, and a third while the token is paused. -/
def feeRun : List PoolEvent :=
  [.adjust (.mint ⟨1⟩ 1000), .adjust (.setFee 100),
    .request ⟨⟨⟨1⟩, .epoch, 1⟩, .deposit ⟨0⟩ 500⟩, .request ⟨⟨⟨1⟩, .epoch, 1⟩, .deposit ⟨1⟩ 300⟩,
    .adjust (.setFailing true), .request ⟨⟨⟨1⟩, .epoch, 2⟩, .deposit ⟨2⟩ 100⟩]

/-- Of the eight hundred that were deposited eight are burned, and the third deposit is refused. -/
theorem pool_eq_sum_remaining_of_fee : ∃ l reached : Ledger PoolToken,
    Ledger.start {} ⟨1⟩ none .empty .epoch = .ok l ∧ PoolToken.empty.pool = 0 ∧
      l.after (feeRun.map PoolEvent.event) = reached ∧ reached.token.pool = 792 ∧
      reached.token.pool.val = ∑ p, (reached.remaining p).val := by
  obtain ⟨l, hstart, hpool⟩ : ∃ l : Ledger PoolToken,
      Ledger.start {} ⟨1⟩ none .empty .epoch = .ok l ∧
        (l.after (feeRun.map PoolEvent.event)).token.pool = 792 := ⟨_, rfl, by decide +kernel⟩
  exact ⟨l, _, hstart, rfl, rfl, hpool, pool_eq_sum_remaining hstart rfl feeRun⟩

end Ledger

end Settlement
