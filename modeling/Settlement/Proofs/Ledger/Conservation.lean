import Settlement.Proofs.Ledger.Event
import Settlement.Proofs.Ledger.Settle
import Settlement.Token.Faulty

namespace Settlement

/-- What is kept about the money of a period: the deposits cover its claims and its sweep, and
nothing is swept before the sweep is recorded. The latter holds because a sweep is only taken back
from a fund that had none before. -/
structure PeriodFund.Sound (f : PeriodFund) : Prop where
  covered : f.Covered
  unswept : f.isSwept = false → f.swept = 0

namespace PeriodFund

variable {f : PeriodFund} {amount loss total : Amount} {now : Timestamp}

theorem sound_empty : Sound {} := ⟨by decide, fun _ => rfl⟩

theorem Sound.deposit (h : f.Sound) (htotal : f.deposited.add? amount = some total) :
    Sound { f with deposited := total, lastDepositAt := some now } := by
  refine ⟨?_, h.unswept⟩
  have hcovered := h.covered
  rw [Word.add?_eq_some_iff] at htotal
  unfold Covered at hcovered ⊢
  simp only
  omega

theorem Sound.sweep (h : f.Sound) (hopen : f.isSwept = false) :
    Sound { f with swept := f.remaining, sweptAt := some now } := by
  refine ⟨?_, fun hfalse => by cases hfalse⟩
  have hcovered := h.covered
  unfold Covered at hcovered ⊢
  simp only [val_remaining, h.unswept hopen, Word.val_zero]
  omega

theorem val_remaining_sweep (h : f.Sound) (hopen : f.isSwept = false)
    (now : Timestamp) :
    ({ f with swept := f.remaining, sweptAt := some now } : PeriodFund).remaining.val = 0 := by
  have hunswept := h.unswept hopen
  simp only [val_remaining, hunswept, Word.val_zero]
  omega

theorem Sound.release (h : f.Sound) : Sound { f with swept := 0, sweptAt := none } := by
  refine ⟨?_, fun _ => rfl⟩
  have hcovered := h.covered
  unfold Covered at hcovered ⊢
  simp only [Word.val_zero]
  omega

theorem Sound.release_eq (h : f.Sound) (hopen : f.isSwept = false) :
    { f with swept := 0, sweptAt := none } = f := by
  have hnone : f.sweptAt = none := Option.not_isSome_iff_eq_none.1 (by simpa [isSwept] using hopen)
  rw [← h.unswept hopen, ← hnone]

theorem Sound.charge (h : f.Sound)
    (hroom : f.claimed.val + f.swept.val + amount.val ≤ f.deposited.val) :
    (f.charge amount).Sound := by
  refine ⟨?_, h.unswept⟩
  have := f.deposited.isLt
  have hclaimed : (f.claimed.satAdd amount).val = f.claimed.val + amount.val :=
    Word.val_satAdd_of_lt (by omega)
  unfold Covered
  simp only [PeriodFund.charge, hclaimed]
  omega

theorem Sound.bear (h : f.Sound) (loss : Amount) : (f.bear loss).Sound := ⟨h.covered, h.unswept⟩

end PeriodFund

theorem FundBook.sound_set {b : FundBook} {p : PeriodId} {f : PeriodFund}
    (h : ∀ p, (b.fund p).Sound) (hf : f.Sound) (q : PeriodId) : ((b.set p f).fund q).Sound := by
  rw [fund_set]
  split
  · exact hf
  · exact h q

namespace Ledger

variable {τ : Type} {l : Ledger τ} {ctx : CallContext} {who : Address}
  {reserved : List Reservation} {losses : List Amount} {total : Amount}

/-- The money of every period is in order. All that is said of the money of a ledger is derived from
this. -/
def Sound (l : Ledger τ) : Prop := ∀ p, (l.periodFund p).Sound

theorem Sound.of_funds_eq {l' : Ledger τ} (h : l.Sound) (hfunds : l'.funds = l.funds) :
    l'.Sound := by
  intro p
  unfold periodFund
  rw [hfunds]
  exact h p

/-- A payout whose claims can all be paid keeps the money of every period in order. -/
theorem Sound.settle (h : l.Sound) (hpayable : l.Payable who reserved)
    (hlength : losses.length = reserved.length) (token : τ) :
    (l.settle who reserved losses token).Sound := by
  intro p
  unfold periodFund
  by_cases hp : p ∈ reserved.map Prod.fst
  · obtain ⟨⟨q, amount⟩, hmem, rfl⟩ := List.mem_map.1 hp
    obtain ⟨loss, -, hfund⟩ := fund_settle_of_mem hpayable hlength token hmem
    rw [hfund]
    exact ((h q).charge (hpayable.claimed_add_le hmem)).bear loss
  · rw [fund_settle_of_not_mem hp]
    exact h p

theorem checkInvariants_of_sound (h : l.Sound) : l.checkInvariants = .ok () := by
  unfold checkInvariants FundBook.verifyAll
  rw [Result.forM_eq_ok_iff]
  intro p _
  unfold FundBook.verify
  cases hget : l.funds.get? p with
  | none => rfl
  | some f =>
    have hf := (h p).covered
    unfold periodFund at hf
    rw [FundBook.fund_of_get? hget] at hf
    exact require_eq_ok_iff.2 hf

variable [PayoutToken τ]

theorem Sound.paidOut {outcome : Outcome τ (TransferReceipt × List Amount)} (h : l.Sound)
    (hpayable : l.Payable who reserved) (htotal : IsTotal reserved total)
    (hpaid : PaidOut l who reserved total outcome) : outcome.2.Sound := by
  cases hpaid with
  | unsent => exact h
  | takenBack => exact h
  | kept =>
    apply h.settle hpayable
    rw [length_shares _ htotal.map_snd_ne_nil htotal.sum htotal.val_pos, List.length_map]
  | accepted _ hlosses => exact h.settle hpayable (assess_eq_ok htotal hlosses).1 _

theorem Sound.handled {request : Request} {outcome : Outcome τ Answer} (h : l.Sound)
    (hhandled : Handled l ctx request outcome) : outcome.2.Sound := by
  cases hhandled with
  | refused e => exact h
  | quiet hcontrolled => exact h.of_funds_eq hcontrolled.money.1
  | uncollected => exact h
  | unrecorded => exact FundBook.sound_set h (h _)
  | deposited _ _ htotal => exact FundBook.sound_set h ((h _).deposit htotal)
  | emptied _ hopen => exact FundBook.sound_set h ((h _).sweep hopen)
  | unpaid => exact FundBook.sound_set h (h _).release
  | swept _ hopen => exact FundBook.sound_set h ((h _).sweep hopen)
  | claimed hpassed =>
    exact h.paidOut (payable_of_admitOne hpassed) (isTotal_of_admitOne hpassed) (Ledger.paidOut l ..)
  | batchClaimed _ hpassed =>
    exact h.paidOut (payable_of_admitAll hpassed) (isTotal_of_admitAll hpassed) (Ledger.paidOut l ..)

/-- Every event keeps the money in order, since a change of the token touches no fund. -/
theorem Sound.next (h : l.Sound) (event : Event τ) : (l.next event).Sound := by
  cases event with
  | request call => exact h.handled (Ledger.handled l call.ctx call.request)
  | token change => exact h

section start

variable {policy : ProtocolPolicy} {authority : Address} {guardian : Option Address} {token : τ}
  {now : Timestamp}

theorem sound_after (hstart : Ledger.start policy authority guardian token now = .ok l)
    (events : List (Event τ)) : (l.after events).Sound := by
  apply after_of_next fun _ event h => h.next event
  intro p
  unfold periodFund
  rw [(start_eq_ok hstart).2.2.1]
  exact PeriodFund.sound_empty

/-- In every state that a ledger can reach, whatever its token does, each period has claimed and
swept no more than was deposited for it, so that the remainder is exact and the ledger's own check
passes. -/
theorem claimed_add_swept_le_deposited
    (hstart : Ledger.start policy authority guardian token now = .ok l) (events : List (Event τ)) :
    (∀ p, ((l.after events).periodFund p).claimed.val + ((l.after events).periodFund p).swept.val ≤
        ((l.after events).periodFund p).deposited.val ∧
      ((l.after events).periodFund p).remaining.val + ((l.after events).periodFund p).claimed.val +
        ((l.after events).periodFund p).swept.val = ((l.after events).periodFund p).deposited.val) ∧
      (l.after events).checkInvariants = .ok () := by
  have hsound := sound_after hstart events
  refine ⟨fun p => ?_, checkInvariants_of_sound hsound⟩
  have hcovered := (hsound p).covered
  unfold PeriodFund.Covered at hcovered
  refine ⟨hcovered, ?_⟩
  rw [PeriodFund.val_remaining]
  omega

end start

/-- A claim that is paid in full, the only one of its period. -/
def fullEntry : ClaimEntry := ⟨⟨0⟩, 100, 0, []⟩

/-- A claim that loses more than the limit, the only one of its period. -/
def lossyEntry : ClaimEntry := ⟨⟨1⟩, 200, 0, []⟩

/-- The state in which both claims begin, with a token that burns no fee yet and takes transfers
back. -/
def refusingStart : Ledger FaultyToken where
  era := ⟨{}, ⟨0⟩, 0, .epoch, .empty, 0⟩
  claimPolicy := {}
  domain := {}
  governance := ⟨⟨1⟩, none, none, false, 0, none, .epoch, none, {}⟩
  token := { inner := { PoolToken.empty with balances := Table.empty.insert ⟨1⟩ 1000 } }

/-- A time of the run, in seconds from the epoch, at which the ledger is started. -/
def refusingTime (seconds : Count) : Timestamp := Timestamp.epoch.after (.ofSeconds seconds)

/-- Both periods are funded and closed, their roots posted and the claims committed to. -/
def refusingEvents : List (Event FaultyToken) :=
  [.request ⟨⟨⟨1⟩, refusingTime 0, 1⟩, .deposit ⟨0⟩ 500⟩,
   .request ⟨⟨⟨1⟩, refusingTime 0, 1⟩, .deposit ⟨1⟩ 300⟩,
   .request ⟨⟨⟨1⟩, refusingTime 3600, 1⟩, .advancePeriod⟩,
   .request ⟨⟨⟨1⟩, refusingTime 7200, 1⟩, .advancePeriod⟩] ++
  [fullEntry, lossyEntry].flatMap fun e =>
    [.request ⟨⟨⟨1⟩, refusingTime 7200, 1⟩, .postCommitment e.period (e.claim {} ⟨2⟩).leaf⟩,
     .request ⟨⟨⟨2⟩, refusingTime 7200, 1⟩,
       .commitClaim e.period ((e.claim {} ⟨2⟩).commitment e.nonce)⟩]

/-- Both claims are revealed a day after their roots were posted. -/
def refusingContext : CallContext := ⟨⟨2⟩, refusingTime 93600, 2⟩

/-- The token begins to burn a fee of five percent and to refuse taking transfers back. -/
def beginRefusing (t : FaultyToken) : FaultyToken :=
  { t with inner := t.inner.setFee 500, refuseRevert := true }

/-- The first claim is paid in full, then the token changes. What has happened up to here is the
same in every run that goes on from it. -/
def refusingPaid : List (Event FaultyToken) :=
  refusingEvents ++ [.request ⟨refusingContext, .revealClaim fullEntry⟩, .token beginRefusing]

/-- Then the second claim is revealed, and what is left of the first period is swept in the end. -/
def refusingRun : List (Event FaultyToken) :=
  refusingPaid ++ [.request ⟨refusingContext, .revealClaim lossyEntry⟩,
    .request ⟨⟨⟨1⟩, refusingTime 10375200, 3⟩, .sweepPeriod ⟨0⟩ ⟨3⟩⟩]

/-- The state between the two reveals, written as what the payout of the first leaves. -/
def refusingLedger : Ledger FaultyToken :=
  ((refusingStart.after refusingEvents).payOut ⟨2⟩ [fullEntry.reservation] 100).2.next
    (.token beginRefusing)

/-- The events are granted one by one, and the token is as it was told to be. -/
theorem after_refusingPaid : refusingStart.after refusingPaid = refusingLedger := by
  have hcommit : (refusingStart.after refusingEvents).commits.get? ⟨2⟩ ⟨0⟩ =
      some ⟨(fullEntry.claim {} ⟨2⟩).commitment fullEntry.nonce, 1, refusingTime 7200⟩ := rfl
  have hposted : (refusingStart.after refusingEvents).commitments.claimable {} ⟨0⟩
      (refusingTime 93600) =
        .ok (.first {} ⟨0⟩ (fullEntry.claim {} ⟨2⟩).leaf (refusingTime 7200)) := rfl
  have hpassed : (refusingStart.after refusingEvents).admitOne refusingContext fullEntry = .ok () := by
    apply admitOne_of_sole (fullEntry.claim {} ⟨2⟩)
    · exact ⟨rfl, ⟨1, _, by decide, hcommit⟩, ⟨_, hposted, rfl⟩, by decide +kernel⟩
    · decide +kernel
  rw [refusingPaid, after_append, after, List.foldl_cons, List.foldl_cons, List.foldl_nil, next,
    step_revealClaim hpassed]
  rfl

theorem admitOne_lossy : refusingLedger.admitOne refusingContext lossyEntry = .ok () := by
  have hcommit : refusingLedger.commits.get? ⟨2⟩ ⟨1⟩ =
      some ⟨(lossyEntry.claim {} ⟨2⟩).commitment lossyEntry.nonce, 1, refusingTime 7200⟩ := rfl
  have hposted : refusingLedger.commitments.claimable {} ⟨1⟩ (refusingTime 93600) =
      .ok (.first {} ⟨1⟩ (lossyEntry.claim {} ⟨2⟩).leaf (refusingTime 7200)) := rfl
  apply admitOne_of_sole (lossyEntry.claim {} ⟨2⟩)
  · exact ⟨rfl, ⟨1, _, by decide, hcommit⟩, ⟨_, hposted, rfl⟩, by decide +kernel⟩
  · decide +kernel

theorem fst_handle_lossy :
    ((refusingStart.after refusingPaid).handle refusingContext (.revealClaim lossyEntry)).1 =
      .error (.transferFailed "revert refused") := by
  rw [after_refusingPaid, handle_revealClaim admitOne_lossy, Outcome.fst_map_eq_error_iff]
  rfl

theorem after_refusingRun : refusingStart.after refusingRun =
    (refusingLedger.payOut ⟨2⟩ [lossyEntry.reservation] 200).2.step
      ⟨⟨⟨1⟩, refusingTime 10375200, 3⟩, .sweepPeriod ⟨0⟩ ⟨3⟩⟩ := by
  rw [refusingRun, after_append, after_refusingPaid, after, List.foldl_cons, List.foldl_cons,
    List.foldl_nil, next, next, step_revealClaim admitOne_lossy]
  rfl

/-- One period is paid in full and swept, of the other a payout stands that the ledger has refused.
The sums hold for both, and for all others. -/
theorem claimed_add_swept_le_deposited_of_refusing :
    Ledger.start {} ⟨1⟩ none refusingStart.token .epoch = .ok refusingStart ∧
      ((refusingStart.after refusingPaid).handle refusingContext (.revealClaim lossyEntry)).1 =
        .error (.transferFailed "revert refused") ∧
      (((refusingStart.after refusingRun).periodFund ⟨0⟩).claimed = 100 ∧
        ((refusingStart.after refusingRun).periodFund ⟨0⟩).swept = 400) ∧
      (((refusingStart.after refusingRun).periodFund ⟨1⟩).claimed = 200 ∧
        ((refusingStart.after refusingRun).periodFund ⟨1⟩).precisionLoss = 10) ∧
      (∀ p, ((refusingStart.after refusingRun).periodFund p).claimed.val +
            ((refusingStart.after refusingRun).periodFund p).swept.val ≤
          ((refusingStart.after refusingRun).periodFund p).deposited.val ∧
        ((refusingStart.after refusingRun).periodFund p).remaining.val +
            ((refusingStart.after refusingRun).periodFund p).claimed.val +
            ((refusingStart.after refusingRun).periodFund p).swept.val =
          ((refusingStart.after refusingRun).periodFund p).deposited.val) ∧
      (refusingStart.after refusingRun).checkInvariants = .ok () := by
  have hstart : Ledger.start {} ⟨1⟩ none refusingStart.token .epoch = .ok refusingStart := rfl
  refine ⟨hstart, fst_handle_lossy, ?_, ?_, claimed_add_swept_le_deposited hstart refusingRun⟩
  · rw [after_refusingRun]
    decide +kernel
  · rw [after_refusingRun]
    decide +kernel

end Ledger

end Settlement
