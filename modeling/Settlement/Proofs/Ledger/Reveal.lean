import Settlement.Ledger.Request
import Settlement.Proofs.Ledger.Admission

namespace Settlement.Ledger

open FundBook

variable {τ : Type} {l : Ledger τ} {ctx : CallContext} {who : Address}
  {total : Amount} {reserved : List Reservation} {entry : ClaimEntry} {entries : List ClaimEntry}
  {period : PeriodId} {amount : Amount} {receipt : TransferReceipt} {losses : List Amount}

private theorem precisionLoss_charge (h : Payable l who reserved) (p : PeriodId) :
    ((l.charge who reserved).funds.fund p).precisionLoss = (l.funds.fund p).precisionLoss := by
  have hfund (b : FundBook) : (b.fund p).precisionLoss = ((b.get? p).getD {}).precisionLoss := rfl
  have hcharge : (l.charge who reserved).funds = modifyAll PeriodFund.charge l.funds reserved := rfl
  rw [hfund, hfund, hcharge]
  by_cases hp : p ∈ reserved.map Prod.fst
  · obtain ⟨⟨q, amount⟩, hmem, rfl⟩ := List.mem_map.1 hp
    rw [get?_modifyAll_of_mem h.nodup hmem]
    cases l.funds.get? q with
    | none => rfl
    | some f => rfl
  · rw [get?_modifyAll_of_not_mem hp]

private theorem hasRoom_charge (h : Payable l who reserved) {losses : List (PeriodId × Amount)} :
    (l.charge who reserved).funds.HasRoom losses ↔ l.funds.HasRoom losses := by
  simp only [HasRoom, precisionLoss_charge h]

/-- The loss of a single claim is booked if there is room for it; a loss of zero always has room. -/
private theorem recordLoss_charge (h : Payable l who [(period, amount)]) (loss : Amount)
    (token : τ) :
    (if loss = 0 then (.ok (), (l.charge who [(period, amount)]).funds)
      else (l.charge who [(period, amount)]).funds.recordPrecisionLoss period loss) =
      if l.funds.HasRoom [(period, loss)] then
        (.ok (), (l.settle who [(period, amount)] [loss] token).funds)
      else (.error (.overflow "precision loss"), (l.charge who [(period, amount)]).funds) := by
  obtain ⟨f, hget⟩ := Option.isSome_iff_exists.1
    (isSome_get?_charge h [loss] (List.mem_singleton.2 rfl))
  have hsettle : (l.settle who [(period, amount)] [loss] token).funds =
      (l.charge who [(period, amount)]).funds.modify period (.bear loss) := rfl
  rw [hsettle]
  have hroom : l.funds.HasRoom [(period, loss)] ↔ f.precisionLoss.val + loss.val < 2 ^ 128 := by
    rw [← hasRoom_charge h, HasRoom, List.forall_mem_singleton, fund_of_get? hget]
  by_cases hfits : f.precisionLoss.val + loss.val < 2 ^ 128
  · rw [if_pos (hroom.2 hfits)]
    split
    · next hzero => rw [hzero, modify_bear_zero]
    · exact recordPrecisionLoss_eq hget hfits
  · rw [if_neg (mt hroom.1 hfits)]
    have hzero : loss ≠ 0 := by
      rintro rfl
      have := f.precisionLoss.isLt
      rw [Word.val_zero] at hfits
      omega
    rw [if_neg hzero]
    exact recordPrecisionLoss_eq_of_no_room hget (Nat.le_of_not_lt hfits)

theorem recordLosses_charge (h : Payable l who reserved) (hlength : losses.length = reserved.length)
    (token : τ) :
    recordLosses (l.charge who reserved).funds [] ((reserved.map Prod.fst).zip losses) =
      if l.funds.HasRoom ((reserved.map Prod.fst).zip losses) then
        (.ok (), (l.settle who reserved losses token).funds)
      else (.error (.overflow "precision loss"), (l.charge who reserved).funds) := by
  have hnodup : (((reserved.map Prod.fst).zip losses).map Prod.fst).Nodup := by
    rw [List.map_fst_zip (by simp [hlength])]
    exact h.nodup
  have hrows : ∀ entry ∈ (reserved.map Prod.fst).zip losses,
      ((l.charge who reserved).funds.get? entry.1).isSome = true := fun _ hmem =>
    isSome_get?_charge h losses hmem
  split
  · next hroom => exact recordLosses_of_room hnodup hrows ((hasRoom_charge h).2 hroom)
  · next hfull =>
    exact recordLosses_of_no_room hnodup hrows
      (fun _ hmem => absurd hmem List.not_mem_nil) (fun hroom => hfull ((hasRoom_charge h).1 hroom))

private theorem assess_singleton (l : Ledger τ) (period : PeriodId) (amount : Amount)
    (receipt : TransferReceipt) :
    l.assess [(period, amount)] amount receipt = (do
      l.checkSlippage receipt
      require (l.funds.HasRoom [(period, receipt.shortfall)]) (.overflow "precision loss")
      return [receipt.shortfall]) := rfl

private theorem assess_entries (l : Ledger τ) (entries : List ClaimEntry) (total : Amount)
    (receipt : TransferReceipt) :
    l.assess (entries.map ClaimEntry.reservation) total receipt = (do
      l.checkSlippage receipt
      let losses ← apportion receipt.shortfall (entries.map ClaimEntry.amount) total
      require (l.funds.HasRoom (((entries.map ClaimEntry.reservation).map Prod.fst).zip losses))
        (.overflow "precision loss")
      return losses) := by
  unfold assess
  rw [List.map_map]
  rfl

theorem length_of_apportion_entries
    (htotal : IsTotal (entries.map ClaimEntry.reservation) total)
    (h : apportion receipt.shortfall (entries.map ClaimEntry.amount) total = .ok losses) :
    losses.length = (entries.map ClaimEntry.reservation).length := by
  have hne := htotal.map_snd_ne_nil
  have hsum := htotal.sum
  rw [List.map_map] at hne hsum
  rw [length_of_apportion hne hsum htotal.val_pos h, List.length_map, List.length_map]

private theorem removeAll_charge (l : Ledger τ) (who : Address) (entries : List ClaimEntry) :
    entries.foldl (fun commits e => commits.remove who e.period)
        (l.charge who (entries.map ClaimEntry.reservation)).commits =
      l.commits.removeAll who ((entries.map ClaimEntry.reservation).map Prod.fst) := by
  rw [CommitBook.removeAll, List.foldl_map, List.foldl_map]
  rfl

section token

variable [PayoutToken τ]

/-- What a claim of one period answers: its whole loss is that of the transfer. -/
def claimReceipt (who : Address) (entry : ClaimEntry) (paid : TransferReceipt × List Amount) :
    ClaimReceipt :=
  { claimant := who
    period := entry.period
    amount := entry.amount
    received := paid.1.received
    precisionLoss := paid.1.shortfall }

/-- What a claim of several periods answers. What each claim received is told by its loss, while the
batch tells what the transfer sent and received. -/
def batchReceipt (who : Address) (entries : List ClaimEntry)
    (paid : TransferReceipt × List Amount) : BatchClaimReceipt :=
  { claimant := who
    claims := (entries.zip paid.2).map fun (entry, loss) =>
      { claimant := who
        period := entry.period
        amount := entry.amount
        received := entry.amount.satSub loss
        precisionLoss := loss }
    sent := paid.1.sent
    received := paid.1.received }

theorem map_claims_batchReceipt {α : Type} {g : ClaimReceipt → α} {f : ClaimEntry → α}
    (who : Address) (receipt : TransferReceipt) (hlength : losses.length = entries.length)
    (hg : ∀ entry loss, g ⟨who, entry.period, entry.amount, entry.amount.satSub loss, loss⟩ =
      f entry) : (batchReceipt who entries (receipt, losses)).claims.map g = entries.map f := by
  have hfst : (entries.zip losses).map Prod.fst = entries :=
    List.map_fst_zip (Nat.le_of_eq hlength.symm)
  unfold batchReceipt
  calc ((entries.zip losses).map _).map g
      = ((entries.zip losses).map Prod.fst).map f := by
        rw [List.map_map, List.map_map]
        exact List.map_congr_left fun pair _ => hg pair.1 pair.2
    _ = entries.map f := by rw [hfst]

private theorem claims_batchReceipt (who : Address) (entries : List ClaimEntry)
    (receipt : TransferReceipt) (losses : List Amount) :
    (batchReceipt who entries (receipt, losses)).claims =
      ((entries.map ClaimEntry.reservation).zip losses).map fun ((period, amount), loss) =>
        { claimant := who, period, amount
          received := amount.satSub loss
          precisionLoss := loss : ClaimReceipt } := by
  rw [List.zip_map_left, List.map_map]
  rfl

private theorem takeBack_error (l : Ledger τ) (who : Address) (reserved : List Reservation)
    (receipt : TransferReceipt) (cause : Error) (token : τ) :
    ∃ e l', ∀ α, l.takeBack (α := α) who reserved receipt cause token = (.error e, l') := by
  unfold takeBack
  obtain ⟨answer, token'⟩ := PayoutToken.revert token receipt
  cases answer with
  | ok _ => exact ⟨cause, { l with token := token' }, fun _ => rfl⟩
  | error e => exact ⟨e, _, fun _ => rfl⟩

private theorem revealClaim_of_error {e : Error} (h : l.admitOne ctx entry = .error e) :
    l.revealClaim ctx entry = (.error e, l) := by
  unfold admitOne at h
  unfold revealClaim payClaim
  cases hreveal : l.checkReveal ctx entry.period entry.amount entry.nonce with
  | error e' =>
    rw [hreveal] at h
    cases h
    rfl
  | ok _ =>
    rw [hreveal, Result.ok_bind] at h
    simp only [h]

private theorem revealClaim_of_ok (hpassed : l.admitOne ctx entry = .ok ()) :
    l.revealClaim ctx entry = Outcome.map (claimReceipt ctx.caller entry)
      (l.payOut ctx.caller [entry.reservation] entry.amount) := by
  have h : l.Payable ctx.caller [(entry.period, entry.amount)] := payable_of_admitOne hpassed
  obtain ⟨_, hreveal, hchecks⟩ := Result.bind_eq_ok_iff.1 hpassed
  change _ = Outcome.map (claimReceipt ctx.caller entry)
    (l.payOut ctx.caller [(entry.period, entry.amount)] entry.amount)
  unfold revealClaim payClaim payOut
  simp only [hreveal, hchecks, reserve_eq h, charge_token]
  obtain ⟨paid, token⟩ := PayoutToken.transfer l.token ctx.caller entry.amount
  cases paid with
  | error e =>
    simp only [rollBack_charge h]
    rfl
  | ok receipt =>
    simp only [checkSlippage_charge, abortAfterTransfer_charge h, assess_singleton]
    cases l.checkSlippage receipt with
    | error e =>
      obtain ⟨e', l', htake⟩ := takeBack_error l ctx.caller [(entry.period, entry.amount)] receipt
        e token
      simp only [Result.error_bind, htake]
      rfl
    | ok _ =>
      have hbook := recordLoss_charge h receipt.shortfall token
      by_cases hroom : l.funds.HasRoom [(entry.period, receipt.shortfall)]
      · rw [if_pos hroom] at hbook
        simp only [Result.ok_bind, require, if_pos hroom]
        by_cases hzero : receipt.shortfall = 0
        · rw [if_pos hzero] at hbook
          simp only [if_pos hzero, (Prod.mk.injEq .. ▸ hbook).2]
          rfl
        · rw [if_neg hzero] at hbook
          simp only [if_neg hzero, hbook]
          rfl
      · rw [if_neg hroom] at hbook
        obtain ⟨e', l', htake⟩ := takeBack_error l ctx.caller [(entry.period, entry.amount)]
          receipt (.overflow "precision loss") token
        simp only [Result.ok_bind, require, if_neg hroom, Result.error_bind, htake]
        by_cases hzero : receipt.shortfall = 0
        · rw [if_pos hzero] at hbook
          cases congrArg Prod.fst hbook
        · rw [if_neg hzero] at hbook
          simp only [if_neg hzero, hbook, abortAfterTransfer_charge h, htake]
          rfl

/-- A claim of one period is refused by its checks, or paid at one stroke. Whatever else the
operation does on the way is undone or completed before it returns, so its effect is told by
`admitOne` and `payOut` alone. -/
theorem revealClaim_eq (l : Ledger τ) (ctx : CallContext) (entry : ClaimEntry) :
    l.revealClaim ctx entry =
      match l.admitOne ctx entry with
      | .error e => (.error e, l)
      | .ok () => Outcome.map (claimReceipt ctx.caller entry)
          (l.payOut ctx.caller [entry.reservation] entry.amount) := by
  cases hpassed : l.admitOne ctx entry with
  | error e => exact revealClaim_of_error hpassed
  | ok _ => exact revealClaim_of_ok hpassed

private theorem revealEntries_of_error {e : Error} (h : l.admitAll ctx entries = .error e) :
    l.revealEntries ctx entries = (.error e, l) := by
  unfold admitAll at h
  unfold revealEntries payClaimBatch
  cases hreveal : entries.forM fun e => l.checkReveal ctx e.period e.amount e.nonce with
  | error e' =>
    rw [hreveal] at h
    cases h
    rfl
  | ok _ =>
    rw [hreveal, Result.ok_bind] at h
    simp only [h]

private theorem revealEntries_of_ok (hpassed : l.admitAll ctx entries = .ok total) :
    l.revealEntries ctx entries = Outcome.map (batchReceipt ctx.caller entries)
      (l.payOut ctx.caller (entries.map ClaimEntry.reservation) total) := by
  have h := payable_of_admitAll hpassed
  obtain ⟨_, hreveal, hchecks⟩ := Result.bind_eq_ok_iff.1 hpassed
  have hreserved : entries.map ClaimEntry.reservation =
      entries.map fun e => (e.period, e.amount) := rfl
  unfold revealEntries payClaimBatch payOut
  simp only [hreveal, hchecks, ← hreserved, reserveAll_eq h, charge_token]
  obtain ⟨paid, token⟩ := PayoutToken.transfer l.token ctx.caller total
  cases paid with
  | error e =>
    simp only [rollBack_charge h]
    rfl
  | ok receipt =>
    -- However the transfer comes to be taken back, a reveal answers with an error then.
    have hback (cause : Error) := takeBack_error l ctx.caller
      (entries.map ClaimEntry.reservation) receipt cause token
    simp only [checkSlippage_charge, abortAfterTransfer_charge h, assess_entries]
    cases l.checkSlippage receipt with
    | error e =>
      obtain ⟨e', l', htake⟩ := hback e
      simp only [Result.error_bind, htake]
      rfl
    | ok _ =>
    simp only [Result.ok_bind]
    cases hshares : apportion receipt.shortfall (entries.map ClaimEntry.amount) total with
    | error e =>
      obtain ⟨e', l', htake⟩ := hback e
      simp only [Result.error_bind, htake]
      rfl
    | ok losses =>
      have hlength := length_of_apportion_entries (isTotal_of_admitAll hpassed) hshares
      simp only [recordLosses_charge h hlength token, Result.ok_bind]
      by_cases hroom : l.funds.HasRoom
          (((entries.map ClaimEntry.reservation).map Prod.fst).zip losses)
      · simp only [if_pos hroom, require, Result.ok_bind, removeAll_charge,
          ← claims_batchReceipt ctx.caller entries receipt losses]
        rfl
      · obtain ⟨e', l', htake⟩ := hback (.overflow "precision loss")
        simp only [if_neg hroom, require, abortAfterTransfer_charge h, Result.error_bind, htake]
        rfl

theorem revealEntries_eq (l : Ledger τ) (ctx : CallContext) (entries : List ClaimEntry) :
    l.revealEntries ctx entries =
      match l.admitAll ctx entries with
      | .error e => (.error e, l)
      | .ok total => Outcome.map (batchReceipt ctx.caller entries)
          (l.payOut ctx.caller (entries.map ClaimEntry.reservation) total) := by
  cases hpassed : l.admitAll ctx entries with
  | error e => exact revealEntries_of_error hpassed
  | ok total => exact revealEntries_of_ok hpassed

end token

end Settlement.Ledger
