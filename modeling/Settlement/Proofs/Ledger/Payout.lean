import Settlement.Proofs.Claim.Marks
import Settlement.Proofs.Fund.Loss
import Settlement.Proofs.Ledger.Share

namespace Settlement.Ledger

open FundBook

variable {τ : Type} {l : Ledger τ} {who : Address} {entry : Reservation}
  {reserved done rest : List Reservation}

/-- What the checks establish about the claims of a payout: they are for different periods, none of
them was paid, and each of them is covered by what its period holds. -/
structure Payable (l : Ledger τ) (who : Address) (reserved : List Reservation) : Prop where
  nodup : (reserved.map Prod.fst).Nodup
  unclaimed : ∀ entry ∈ reserved, l.hasClaimed who entry.1 = false
  covered : ∀ entry ∈ reserved, ∃ f, l.funds.get? entry.1 = some f ∧
    f.claimed.val + f.swept.val + entry.2.val ≤ f.deposited.val

/-- What a payout transfers: the sum of at least one amount, none of them zero. -/
structure IsTotal (reserved : List Reservation) (total : Amount) : Prop where
  nonempty : reserved ≠ []
  positive : ∀ entry ∈ reserved, entry.2 ≠ 0
  sum : amountSum (reserved.map Prod.snd) = total.val

theorem IsTotal.map_snd_ne_nil {total : Amount} (h : IsTotal reserved total) :
    reserved.map Prod.snd ≠ [] :=
  fun hnil => h.nonempty (List.map_eq_nil_iff.1 hnil)

theorem IsTotal.val_pos {total : Amount} (h : IsTotal reserved total) : 0 < total.val := by
  obtain ⟨hnonempty, hpositive, hsum⟩ := h
  cases reserved with
  | nil => exact absurd rfl hnonempty
  | cons entry rest =>
    have hentry := Word.pos_of_ne_zero (hpositive entry (List.mem_cons_self ..))
    rw [List.map_cons, amountSum_cons] at hsum
    omega

/-- The claims are marked as paid and their amounts counted as claimed. -/
def charge (l : Ledger τ) (who : Address) (reserved : List Reservation) : Ledger τ :=
  { l with
    funds := modifyAll PeriodFund.charge l.funds reserved
    registry := l.registry.addAll who (reserved.map Prod.fst) }

theorem charge_token (l : Ledger τ) (who : Address) (reserved : List Reservation) :
    (l.charge who reserved).token = l.token := rfl

theorem checkSlippage_charge (l : Ledger τ) (who : Address) (reserved : List Reservation)
    (token : τ) (receipt : TransferReceipt) :
    Ledger.checkSlippage { l.charge who reserved with token } receipt = l.checkSlippage receipt :=
  rfl

/-- The first claim does not stand in the way of the others, which are for other periods. -/
private theorem Payable.of_cons (h : Payable l who (entry :: rest)) :
    Payable (l.charge who [entry]) who rest := by
  obtain ⟨hnodup, hunclaimed, hcovered⟩ := h
  rw [List.map_cons, List.nodup_cons] at hnodup
  have hother {next : Reservation} (hmem : next ∈ rest) : next.1 ≠ entry.1 := fun heq =>
    hnodup.1 (heq ▸ List.mem_map_of_mem hmem)
  refine ⟨hnodup.2, fun next hmem => ?_, fun next hmem => ?_⟩
  · rw [← Bool.not_eq_true]
    change ¬ (l.registry.addAll who [entry.1]).hasClaimed who next.1 = true
    rw [ClaimRegistry.hasClaimed_addAll, List.mem_singleton]
    rintro (⟨-, heq⟩ | hclaimed)
    · exact hother hmem heq
    · have hfree := hunclaimed next (List.mem_cons_of_mem _ hmem)
      change l.registry.hasClaimed who next.1 = false at hfree
      rw [hfree] at hclaimed
      cases hclaimed
  · obtain ⟨f, hget, hroom⟩ := hcovered next (List.mem_cons_of_mem _ hmem)
    refine ⟨f, ?_, hroom⟩
    change (l.funds.modify entry.1 (.charge entry.2)).get? next.1 = some f
    rw [get?_modify, if_neg (hother hmem), hget]

theorem reserve_eq (h : Payable l who (entry :: rest)) :
    l.reserve who entry = (.ok (), l.charge who [entry]) := by
  obtain ⟨f, hget, hroom⟩ := h.covered entry (List.mem_cons_self ..)
  have hfree := h.unclaimed entry (List.mem_cons_self ..)
  unfold reserve
  simp only [ClaimRegistry.mark_eq hfree, reserveClaim_eq hget hroom]
  rfl

theorem reserveAll_eq (h : Payable l who reserved) :
    l.reserveAll who done reserved = (.ok (), l.charge who reserved) := by
  induction reserved generalizing l done with
  | nil => rfl
  | cons entry rest ih =>
    rw [reserveAll]
    simp only [reserve_eq h, ih h.of_cons]
    rfl

private theorem rollBack_eq (l : Ledger τ) (who : Address) (reserved : List Reservation) :
    l.rollBack who reserved =
      { l with
        funds := modifyAll PeriodFund.refund l.funds reserved
        registry := l.registry.unmarkAll who (reserved.map Prod.fst) } := by
  induction reserved generalizing l with
  | nil => rfl
  | cons entry rest ih =>
    have hstep : l.rollBack who (entry :: rest) =
        Ledger.rollBack
          { l with
            funds := l.funds.releaseClaim entry.1 entry.2
            registry := l.registry.unmark who entry.1 } who rest := rfl
    rw [hstep, ih]
    rfl

/-- Taking back the reservations of a payout leaves only what the token did in the meantime. -/
theorem rollBack_charge (h : Payable l who reserved) (token : τ) :
    Ledger.rollBack { l.charge who reserved with token } who reserved = { l with token } := by
  have hfunds :
      modifyAll PeriodFund.refund (modifyAll PeriodFund.charge l.funds reserved) reserved =
      l.funds := by
    apply modifyAll_modifyAll_eq_self h.nodup
    intro p amount f hmem hget
    obtain ⟨g, hg, hroom⟩ := h.covered (p, amount) hmem
    simp only [hget, Option.some.injEq] at hg
    subst hg
    simp only at hroom
    have := f.deposited.isLt
    exact PeriodFund.refund_charge (by omega)
  have hregistry : (l.registry.addAll who (reserved.map Prod.fst)).unmarkAll who
      (reserved.map Prod.fst) = l.registry := by
    apply ClaimRegistry.unmarkAll_addAll
    intro p hp
    obtain ⟨entry, hmem, rfl⟩ := List.mem_map.1 hp
    exact h.unclaimed entry hmem
  rw [rollBack_eq]
  simp only [charge, hfunds, hregistry]

/-- The payout stands: the claims are marked, their amounts counted as claimed, the losses counted
as far as there is room, and the commitments closed. -/
def settle (l : Ledger τ) (who : Address) (reserved : List Reservation) (losses : List Amount)
    (token : τ) : Ledger τ :=
  let periods := reserved.map Prod.fst
  { l.charge who reserved with
    funds := modifyAll PeriodFund.bear (l.charge who reserved).funds (periods.zip losses)
    commits := l.commits.removeAll who periods
    token }

theorem isSome_get?_charge (h : Payable l who reserved) (losses : List Amount)
    {loss : PeriodId × Amount} (hmem : loss ∈ (reserved.map Prod.fst).zip losses) :
    ((l.charge who reserved).funds.get? loss.1).isSome = true := by
  obtain ⟨entry, hentry, hperiod⟩ := List.mem_map.1 (List.of_mem_zip hmem).1
  obtain ⟨f, hget, -⟩ := h.covered entry hentry
  rw [← hperiod]
  change ((modifyAll PeriodFund.charge l.funds reserved).get? entry.1).isSome = true
  rw [get?_modifyAll_of_mem h.nodup hentry, hget]
  rfl

theorem keepPayout_charge (h : Payable l who reserved) (token : τ) (receipt : TransferReceipt) :
    Ledger.keepPayout { l.charge who reserved with token } who reserved receipt =
      l.settle who reserved (shares receipt.shortfall (reserved.map Prod.snd)) token := by
  have hbook := bookLosses_eq fun _ hmem =>
    isSome_get?_charge h (shares receipt.shortfall (reserved.map Prod.snd)) hmem
  have hcommits : reserved.foldl (fun commits (entry : Reservation) => commits.remove who entry.1)
      l.commits = l.commits.removeAll who (reserved.map Prod.fst) := by
    rw [CommitBook.removeAll, List.foldl_map]
  unfold settle
  simp only [← hbook, ← hcommits]
  rfl

/-- The losses with which a transfer is accepted, in the order of its claims. -/
def assess (l : Ledger τ) (reserved : List Reservation) (total : Amount)
    (receipt : TransferReceipt) : Result (List Amount) := do
  l.checkSlippage receipt
  let losses ← apportion receipt.shortfall (reserved.map Prod.snd) total
  require (l.funds.HasRoom ((reserved.map Prod.fst).zip losses)) (.overflow "precision loss")
  return losses

/-- A transfer is accepted with one loss for each claim. They add up to what was lost, and there is
room for them. -/
theorem assess_eq_ok {total : Amount} {receipt : TransferReceipt} {losses : List Amount}
    (htotal : IsTotal reserved total) (h : l.assess reserved total receipt = .ok losses) :
    losses.length = reserved.length ∧ amountSum losses = receipt.shortfall.val ∧
      apportion receipt.shortfall (reserved.map Prod.snd) total = .ok losses ∧
      l.funds.HasRoom ((reserved.map Prod.fst).zip losses) := by
  obtain ⟨_, -, h⟩ := Result.bind_eq_ok_iff.1 h
  obtain ⟨shares, hshares, h⟩ := Result.bind_eq_ok_iff.1 h
  obtain ⟨_, hroom, h⟩ := Result.bind_eq_ok_iff.1 h
  obtain rfl := Result.pure_eq_ok_iff.1 h
  have hlength := length_of_apportion htotal.map_snd_ne_nil htotal.sum htotal.val_pos hshares
  rw [List.length_map] at hlength
  exact ⟨hlength, amountSum_of_apportion htotal.map_snd_ne_nil htotal.sum htotal.val_pos hshares,
    hshares, require_eq_ok_iff.1 hroom⟩

section token

variable [PayoutToken τ]

/-- A transfer is taken back because of `cause`. When the token refuses, the payout stands and its
refusal is the answer. -/
def takeBack {α : Type} (l : Ledger τ) (who : Address) (reserved : List Reservation)
    (receipt : TransferReceipt) (cause : Error) (token : τ) : Outcome τ α :=
  match PayoutToken.revert token receipt with
  | (.ok (), token) => (.error cause, { l with token })
  | (.error e, token) =>
    (.error e, l.settle who reserved (shares receipt.shortfall (reserved.map Prod.snd)) token)

theorem abortAfterTransfer_charge {α : Type} (h : Payable l who reserved)
    (receipt : TransferReceipt) (cause : Error) (token : τ) :
    abortAfterTransfer (α := α) { l.charge who reserved with token } who reserved receipt cause =
      l.takeBack who reserved receipt cause token := by
  unfold abortAfterTransfer takeBack
  cases hrevert : PayoutToken.revert token receipt with
  | mk answer token' =>
    cases answer with
    | ok _ => simp only [← rollBack_charge h token']
    | error e => simp only [← keepPayout_charge h token' receipt]

/-- One transfer for all claims, which stands with its losses or is taken back. The ledger reserves
first, and undoes what it did when the transfer comes to nothing; for claims that passed their
checks this has the same effect as a payout that touches the books only once it is known to
stand. -/
def payOut (l : Ledger τ) (who : Address) (reserved : List Reservation) (total : Amount) :
    Outcome τ (TransferReceipt × List Amount) :=
  match PayoutToken.transfer l.token who total with
  | (.error e, token) => (.error e, { l with token })
  | (.ok receipt, token) =>
    match l.assess reserved total receipt with
    | .error cause => l.takeBack who reserved receipt cause token
    | .ok losses => (.ok (receipt, losses), l.settle who reserved losses token)

end token

end Settlement.Ledger
