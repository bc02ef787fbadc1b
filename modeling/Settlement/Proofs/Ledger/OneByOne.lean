import Settlement.Proofs.Ledger.LossBound
import Settlement.Proofs.Token.Free

namespace Settlement.Ledger

open FundBook PoolToken

section frame

variable {τ : Type} {l : Ledger τ} {ctx : CallContext} {entry other : ClaimEntry}

/-- The claims are paid in full: marked, charged and closed, without a loss. -/
def payInFull (l : Ledger τ) (who : Address) (reserved : List Reservation) (token : τ) : Ledger τ :=
  { l.charge who reserved with
    commits := l.commits.removeAll who (reserved.map Prod.fst)
    token }

private theorem modifyAll_bear_zeros (b : FundBook) (reserved : List Reservation) :
    modifyAll PeriodFund.bear b ((reserved.map Prod.fst).zip (reserved.map fun _ => 0)) = b := by
  induction reserved with
  | nil => rfl
  | cons entry rest ih =>
    rw [List.map_cons, List.map_cons, List.zip_cons_cons, modifyAll_cons, modify_bear_zero]
    exact ih

theorem settle_zeros (l : Ledger τ) (who : Address) (reserved : List Reservation) (token : τ) :
    l.settle who reserved (reserved.map fun _ => 0) token = l.payInFull who reserved token := by
  unfold settle payInFull
  simp only [modifyAll_bear_zeros]

/-- A claim that is paid changes nothing that the checks of a claim of another period look at, so it
makes no difference that a batch checks all claims first. -/
theorem admitOne_payInFull (hne : other.period ≠ entry.period) (token : τ) :
    (l.payInFull ctx.caller [entry.reservation] token).admitOne ctx other =
      l.admitOne ctx other := by
  have hcommit : (l.payInFull ctx.caller [entry.reservation] token).commits.get? ctx.caller
      other.period = l.commits.get? ctx.caller other.period :=
    (CommitBook.get?_remove ..).trans (if_neg fun h => hne h.2)
  have hclaimed : (l.payInFull ctx.caller [entry.reservation] token).registry.hasClaimed ctx.caller
      other.period = l.registry.hasClaimed ctx.caller other.period := by
    rw [Bool.eq_iff_iff]
    refine ClaimRegistry.hasClaimed_add.trans ⟨?_, Or.inr⟩
    rintro (⟨-, heq⟩ | hclaimed)
    · exact absurd heq hne
    · exact hclaimed
  have hremaining : (l.payInFull ctx.caller [entry.reservation] token).remaining other.period =
      l.remaining other.period := by
    have hget : (l.funds.modify entry.period (.charge entry.amount)).get? other.period =
        l.funds.get? other.period := (get?_modify ..).trans (if_neg hne)
    change (((l.funds.modify entry.period (.charge entry.amount)).get? other.period).getD
      {}).remaining = _
    rw [hget]
    rfl
  unfold admitOne checkReveal CommitBook.checkReveal validateClaim ClaimRegistry.check
  rw [hcommit, hclaimed, hremaining]
  rfl

end frame

variable {l l' : Ledger PoolToken} {ctx : CallContext} {who : Address} {total : Amount}
  {reserved : List Reservation} {entries : List ClaimEntry} {receipts : List ClaimReceipt}

/-- Claims revealed one after the other, up to the first that is refused. -/
def revealEach (l : Ledger PoolToken) (ctx : CallContext) :
    List ClaimEntry → Outcome PoolToken (List ClaimReceipt)
  | [] => (.ok [], l)
  | entry :: rest =>
    match l.revealClaim ctx entry with
    | (.error e, l) => (.error e, l)
    | (.ok receipt, l) => Outcome.map (receipt :: ·) (l.revealEach ctx rest)

/-- What is answered to a claim that is paid in full. -/
def fullReceipt (who : Address) (entry : ClaimEntry) : ClaimReceipt :=
  { claimant := who
    period := entry.period
    amount := entry.amount
    received := entry.amount
    precisionLoss := 0 }

private theorem assess_whole (l : Ledger PoolToken) (who : Address) (reserved : List Reservation)
    (total : Amount) :
    l.assess reserved total ⟨who, total, total⟩ = .ok (reserved.map fun _ => 0) := by
  have hshortfall : TransferReceipt.shortfall ⟨who, total, total⟩ = 0 :=
    Word.ext (Nat.sub_self _)
  have hroom : l.funds.HasRoom ((reserved.map Prod.fst).zip (reserved.map fun _ => 0)) := by
    intro loss hmem
    obtain ⟨entry, -, hzero⟩ := List.mem_map.1 (List.of_mem_zip hmem).2
    rw [← hzero, Word.val_zero]
    exact Word.isLt _
  unfold assess checkSlippage
  rw [hshortfall, if_pos rfl, Result.ok_bind, apportion_zero, Result.ok_bind, List.map_map]
  exact Result.bind_eq_ok_iff.2 ⟨(), require_eq_ok_iff.2 hroom, rfl⟩

/-- Without a fee a payout stands exactly if the pool can pay it, and all claims are paid in
full. -/
theorem map_payOut_eq_ok_iff {α : Type} {f : TransferReceipt × List Amount → α} {answer : α}
    (hfree : l.token.feeBps = 0) :
    Outcome.map f (l.payOut who reserved total) = (.ok answer, l') ↔
      l.token.CanPay who total.val ∧
        answer = f (⟨who, total, total⟩, reserved.map fun _ => 0) ∧
        l' = l.payInFull who reserved (l.token.pay who total) := by
  rw [Outcome.map_eq_ok_iff]
  constructor
  · rintro ⟨paid, h, rfl⟩
    have hpaid := paidByPool l who reserved total
    rw [h] at hpaid
    cases hpaid with
    | accepted hsent hlosses =>
      obtain ⟨hcan, rfl, rfl⟩ := (transfer_eq_ok_iff hfree).1 hsent
      rw [assess_whole] at hlosses
      cases hlosses
      exact ⟨hcan, rfl, settle_zeros ..⟩
  · rintro ⟨hcan, rfl, rfl⟩
    have hsent := (transfer_eq_ok_iff hfree).2 ⟨hcan, rfl, rfl⟩
    refine ⟨_, ?_, rfl⟩
    unfold payOut
    simp only [hsent, assess_whole, settle_zeros]

private theorem claimReceipt_full (who : Address) (entry : ClaimEntry) :
    claimReceipt who entry (⟨who, entry.amount, entry.amount⟩,
      [entry.reservation].map fun _ => 0) = fullReceipt who entry := by
  have hshortfall : TransferReceipt.shortfall ⟨who, entry.amount, entry.amount⟩ = 0 :=
    Word.ext (Nat.sub_self _)
  unfold claimReceipt fullReceipt
  rw [hshortfall]

private theorem batchReceipt_full (who : Address) (entries : List ClaimEntry) (total : Amount) :
    batchReceipt who entries (⟨who, total, total⟩,
      (entries.map ClaimEntry.reservation).map fun _ => 0) =
        ⟨who, entries.map (fullReceipt who), total, total⟩ := by
  have hfull (entry : ClaimEntry) : entry.amount.satSub 0 = entry.amount :=
    Word.ext (Nat.sub_zero _)
  have hzip : entries.zip (entries.map fun _ => (0 : Amount)) =
      entries.map fun entry => (entry, 0) := by
    calc entries.zip (entries.map fun _ => (0 : Amount))
        = (entries.map id).zip (entries.map fun _ => (0 : Amount)) := by rw [List.map_id]
      _ = entries.map fun entry => (entry, 0) := List.zip_map'
  unfold batchReceipt fullReceipt
  simp only [List.map_map, Function.comp_def, hzip, hfull]

/-- A single claim without a fee is paid exactly if it is admitted and the pool can pay it. -/
theorem revealClaim_eq_ok_iff (hfree : l.token.feeBps = 0) {entry : ClaimEntry}
    {receipt : ClaimReceipt} :
    l.revealClaim ctx entry = (.ok receipt, l') ↔
      l.admitOne ctx entry = .ok () ∧ l.token.CanPay ctx.caller entry.amount.val ∧
        receipt = fullReceipt ctx.caller entry ∧
        l' = l.payInFull ctx.caller [entry.reservation] (l.token.pay ctx.caller entry.amount) := by
  rw [revealClaim_eq]
  cases hpassed : l.admitOne ctx entry with
  | error e => simp
  | ok _ =>
    refine (map_payOut_eq_ok_iff hfree).trans ?_
    rw [claimReceipt_full]
    exact (and_iff_right rfl).symm

/-- Several claims at once without a fee are paid exactly if they are admitted and the pool can pay
all of them. -/
theorem revealEntries_eq_ok_iff (hfree : l.token.feeBps = 0) {batch : BatchClaimReceipt} :
    l.revealEntries ctx entries = (.ok batch, l') ↔
      ∃ total, l.admitAll ctx entries = .ok total ∧ l.token.CanPay ctx.caller total.val ∧
        batch = ⟨ctx.caller, entries.map (fullReceipt ctx.caller), total, total⟩ ∧
        l' = l.payInFull ctx.caller (entries.map ClaimEntry.reservation)
          (l.token.pay ctx.caller total) := by
  rw [revealEntries_eq]
  cases hpassed : l.admitAll ctx entries with
  | error e => simp
  | ok total =>
    refine (map_payOut_eq_ok_iff hfree).trans ?_
    rw [batchReceipt_full]
    constructor
    · exact fun h => ⟨total, rfl, h⟩
    · rintro ⟨_, ⟨⟩, h⟩
      exact h

private theorem revealEach_cons_eq_ok_iff {entry : ClaimEntry} :
    l.revealEach ctx (entry :: entries) = (.ok receipts, l') ↔
      ∃ receipt mid others, l.revealClaim ctx entry = (.ok receipt, mid) ∧
        mid.revealEach ctx entries = (.ok others, l') ∧ receipts = receipt :: others := by
  rw [revealEach]
  obtain ⟨answer, mid⟩ := l.revealClaim ctx entry
  cases answer with
  | error e => simp
  | ok receipt =>
    simp only [Outcome.map_eq_ok_iff]
    constructor
    · rintro ⟨others, hothers, rfl⟩
      exact ⟨receipt, mid, others, rfl, hothers, rfl⟩
    · rintro ⟨_, _, others, ⟨⟩, hothers, rfl⟩
      exact ⟨others, hothers, rfl⟩

/-- Claims of different periods one after the other. The induction goes over the claims still to
come: their checks do not see that the claims before them were paid. -/
theorem revealEach_eq_ok_iff (hfree : l.token.feeBps = 0) (hlive : l.token.failing = false)
    (hnodup : (entries.map ClaimEntry.period).Nodup) :
    l.revealEach ctx entries = (.ok receipts, l') ↔
      (∀ e ∈ entries, l.admitOne ctx e = .ok ()) ∧
        l.token.CanPay ctx.caller (amountSum (entries.map ClaimEntry.amount)) ∧
        receipts = entries.map (fullReceipt ctx.caller) ∧
        l' = l.payInFull ctx.caller (entries.map ClaimEntry.reservation)
          (l.token.payAll ctx.caller (entries.map ClaimEntry.amount)) := by
  induction entries generalizing l receipts with
  | nil =>
    have hcan : l.token.CanPay ctx.caller 0 := ⟨hlive, Nat.zero_le _, Word.isLt _⟩
    have hstate : l.payInFull ctx.caller [] l.token = l := rfl
    simp [revealEach, hcan, payAll, hstate, eq_comm]
  | cons entry rest ih =>
    rw [List.map_cons, List.nodup_cons] at hnodup
    have hframe (e : ClaimEntry) (hmem : e ∈ rest) (token : PoolToken) :
        (l.payInFull ctx.caller [entry.reservation] token).admitOne ctx e = l.admitOne ctx e :=
      admitOne_payInFull (fun heq => hnodup.1 (heq ▸ List.mem_map_of_mem hmem)) token
    have hmid : (l.payInFull ctx.caller [entry.reservation]
        (l.token.pay ctx.caller entry.amount)).token.feeBps = 0 := hfree
    rw [revealEach_cons_eq_ok_iff, List.map_cons, amountSum_cons, canPay_add_iff]
    constructor
    · rintro ⟨receipt, mid, others, hfirst, hothers, rfl⟩
      obtain ⟨hpassed, hcan, rfl, rfl⟩ := (revealClaim_eq_ok_iff hfree).1 hfirst
      obtain ⟨hall, hrest, rfl, rfl⟩ := (ih hmid hlive hnodup.2).1 hothers
      refine ⟨List.forall_mem_cons.2 ⟨hpassed, fun e he => ?_⟩, ⟨hcan, hrest⟩, rfl, rfl⟩
      rw [← hframe e he]
      exact hall e he
    · rintro ⟨hall, ⟨hcan, hrest⟩, rfl, rfl⟩
      obtain ⟨hpassed, hall⟩ := List.forall_mem_cons.1 hall
      refine ⟨_, _, _, (revealClaim_eq_ok_iff hfree).2 ⟨hpassed, hcan, rfl, rfl⟩,
        (ih hmid hlive hnodup.2).2 ⟨fun e he => ?_, hrest, rfl, rfl⟩, rfl⟩
      rw [hframe e he]
      exact hall e he

private theorem revealClaimBatch_columns (l : Ledger PoolToken) (ctx : CallContext)
    (entries : List ClaimEntry) :
    l.revealClaimBatch ctx (entries.map ClaimEntry.period) (entries.map ClaimEntry.amount)
      (entries.map ClaimEntry.nonce) (entries.map ClaimEntry.proof) =
        l.revealEntries ctx entries := by
  unfold revealClaimBatch
  rw [ClaimEntry.ofLists_eq_ok_iff.2 ⟨rfl, rfl, rfl, rfl⟩]

/-- A claim of several periods is the same as its claims one after the other. For different periods
and a token without a fee, the claims together are granted with some receipts and lead to a state
exactly if one after the other they are all granted with the same receipts and lead to the same
state. -/
theorem revealClaimBatch_iff_revealEach (hfree : l.token.feeBps = 0) (hne : entries ≠ [])
    (hsmall : entries.length ≤ l.claimPolicy.maxClaimBatch.val)
    (hnodup : (entries.map ClaimEntry.period).Nodup) :
    (∃ batch, l.revealClaimBatch ctx (entries.map ClaimEntry.period)
        (entries.map ClaimEntry.amount) (entries.map ClaimEntry.nonce)
        (entries.map ClaimEntry.proof) = (.ok batch, l') ∧ batch.claims = receipts) ↔
      l.revealEach ctx entries = (.ok receipts, l') := by
  have hpay {total : Amount} (hsum : amountSum (entries.map ClaimEntry.amount) = total.val) :
      l.token.payAll ctx.caller (entries.map ClaimEntry.amount) =
        l.token.pay ctx.caller total := by
    rw [payAll_eq (by simpa using hne), foldl_satAdd_eq hsum]
  rw [revealClaimBatch_columns]
  constructor
  · rintro ⟨batch, hbatch, rfl⟩
    obtain ⟨total, hpassed, hcan, rfl, rfl⟩ := (revealEntries_eq_ok_iff hfree).1 hbatch
    obtain ⟨hreveal, hlive, hvalid, hclaims⟩ := admitAll_eq_ok_iff.1 hpassed
    have hsum := sum?_eq_some_iff.1 hvalid.sum
    refine (revealEach_eq_ok_iff hfree hcan.live hnodup).2 ⟨fun e he => ?_, ?_, rfl, ?_⟩
    · exact admitOne_eq_ok_iff.2 ⟨hreveal e he, hlive, hclaims e he⟩
    · rw [hsum]
      exact hcan
    · rw [hpay hsum]
  · intro heach
    have hlive : l.token.failing = false := by
      obtain ⟨first, rest, rfl⟩ := List.exists_cons_of_ne_nil hne
      obtain ⟨receipt, mid, others, hfirst, -⟩ := revealEach_cons_eq_ok_iff.1 heach
      exact ((revealClaim_eq_ok_iff hfree).1 hfirst).2.1.live
    obtain ⟨hpassed, hcan, rfl, rfl⟩ := (revealEach_eq_ok_iff hfree hlive hnodup).1 heach
    have hlt := l.token.pool.isLt
    obtain ⟨total, htotal⟩ : ∃ total : Amount,
        amountSum (entries.map ClaimEntry.amount) = total.val :=
      ⟨⟨_, Nat.lt_of_le_of_lt hcan.pooled hlt⟩, rfl⟩
    refine ⟨_, (revealEntries_eq_ok_iff hfree).2 ⟨total, ?_, htotal ▸ hcan, rfl, ?_⟩, rfl⟩
    · have hchecks (e : ClaimEntry) (he : e ∈ entries) := admitOne_eq_ok_iff.1 (hpassed e he)
      obtain ⟨first, hfirst⟩ := List.exists_mem_of_ne_nil _ hne
      refine admitAll_eq_ok_iff.2 ⟨fun e he => (hchecks e he).1, (hchecks first hfirst).2.1,
        ⟨hne, hsmall, hnodup, sum?_eq_some_iff.2 htotal⟩, fun e he => (hchecks e he).2.2⟩
    · rw [hpay htotal]

private theorem admitAll_token (l : Ledger PoolToken) (token : PoolToken) :
    admitAll { l with token } ctx entries = l.admitAll ctx entries := rfl

/-- The claims of the uneven run, with a token that takes no fee any more. -/
def freeStart : Ledger PoolToken :=
  unevenStart.after (unevenEvents ++ [.token (·.setFee 0)])

/-- The three claims are paid, at once and one after the other. -/
theorem revealClaimBatch_iff_revealEach_of_free :
    freeStart.token.feeBps = 0 ∧ unevenEntries ≠ [] ∧
      unevenEntries.length ≤ freeStart.claimPolicy.maxClaimBatch.val ∧
      (unevenEntries.map ClaimEntry.period).Nodup ∧
      ∃ l', (∃ batch, freeStart.revealClaimBatch unevenReveal.ctx
          (unevenEntries.map ClaimEntry.period) (unevenEntries.map ClaimEntry.amount)
          (unevenEntries.map ClaimEntry.nonce) (unevenEntries.map ClaimEntry.proof) =
            (.ok batch, l') ∧
          batch.claims = unevenEntries.map (fullReceipt unevenReveal.ctx.caller)) ∧
        freeStart.revealEach unevenReveal.ctx unevenEntries =
          (.ok (unevenEntries.map (fullReceipt unevenReveal.ctx.caller)), l') := by
  have hfree : freeStart.token.feeBps = 0 := by decide +kernel
  have hpassed : freeStart.admitAll unevenReveal.ctx unevenEntries = .ok 201 := by
    rw [freeStart, after_append_token, admitAll_token]
    exact admitAll_uneven
  have hcan : freeStart.token.CanPay unevenReveal.ctx.caller (201 : Amount).val :=
    ⟨by decide +kernel, by decide +kernel, by decide +kernel⟩
  have hbatch := (revealEntries_eq_ok_iff hfree).2 ⟨201, hpassed, hcan, rfl, rfl⟩
  rw [← revealClaimBatch_columns] at hbatch
  exact ⟨hfree, by decide, by decide +kernel, by decide, _, ⟨_, hbatch, rfl⟩,
    (revealClaimBatch_iff_revealEach hfree (by decide) (by decide +kernel) (by decide)).1
      ⟨_, hbatch, rfl⟩⟩

end Settlement.Ledger
