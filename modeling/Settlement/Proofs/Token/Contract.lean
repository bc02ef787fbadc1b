import Mathlib.Algebra.Group.Nat.Defs
import Settlement.Proofs.Token.Pool
import Settlement.Token.Faulty

namespace Settlement

/-- What a token owes to the ledger in one of its states: a movement that fails changes nothing, no
more is collected than was asked for, and taking back a transfer at once restores the state before
it. -/
structure Honours {τ : Type} [PayoutToken τ] (t : τ) : Prop where
  collect_error : ∀ who amount e t', PayoutToken.collect t who amount = (.error e, t') → t' = t
  collect_le : ∀ who amount received t',
    PayoutToken.collect t who amount = (.ok received, t') → received ≤ amount
  transfer_error : ∀ who amount e t', PayoutToken.transfer t who amount = (.error e, t') → t' = t
  revert_transfer : ∀ who amount receipt sent t',
    PayoutToken.transfer t who amount = (.ok receipt, sent) →
    PayoutToken.revert sent receipt = (.ok (), t') → t' = t
  revert_error : ∀ who amount receipt sent e t',
    PayoutToken.transfer t who amount = (.ok receipt, sent) →
    PayoutToken.revert sent receipt = (.error e, t') → t' = sent

namespace PoolToken

/-- The books of the token are in order: no row is empty, and there is room to burn all of the pool.
Both are needed for a transfer to be taken back without a trace. -/
structure Tidy (t : PoolToken) : Prop where
  rows : ∀ who, t.balances.get? who ≠ some 0
  room : t.burned.val + t.pool.val < 2 ^ 128

variable {t : PoolToken} {who : Address}

/-- Setting a balance and then what it was leaves the rows as they were, since no row is empty. -/
private theorem setBalance_balanceOf (hrows : ∀ who, t.balances.get? who ≠ some 0) (who : Address)
    (amount : Amount) :
    ((t.setBalance who amount).setBalance who (t.balanceOf who)).balances = t.balances := by
  apply Table.ext_get?
  intro other
  rw [get?_setBalance, get?_setBalance]
  by_cases hother : other = who
  · rw [if_pos hother, hother]
    have hrow := hrows who
    unfold balanceOf Table.getD
    cases hget : t.balances.get? who with
    | none => rfl
    | some balance =>
      have hne : balance ≠ 0 := fun hzero => hrow (hzero ▸ hget)
      rw [Option.getD_some, if_neg hne]
  · rw [if_neg hother, if_neg hother]

/-- The token that burns a fee keeps its contract as long as its books are in order. -/
theorem honours (h : t.Tidy) : Honours t where
  collect_error who amount e t' h := (unlessRefused_eq_error_iff.1 h).2
  collect_le who amount received t' h := collect_le h
  transfer_error who amount e t' h := (unlessRefused_eq_error_iff.1 h).2
  revert_transfer who amount receipt sent t' hsent hback := by
    rw [revert_of_transfer hsent] at hback
    obtain ⟨-, rfl⟩ := Prod.mk.injEq .. ▸ hback
    obtain ⟨-, hpool, balance, -, rfl⟩ := transfer_eq_ok hsent
    have hburned : (t.burned.satAdd (t.feeOf amount)).satSub (t.feeOf amount) = t.burned := by
      apply Word.satSub_satAdd
      have hfee := t.feeOf_le amount
      have hroom := h.room
      rw [Word.le_def] at hpool
      omega
    have hbalances := setBalance_balanceOf h.rows who balance
    obtain ⟨balances, pool, feeBps, feeBps_le, burned, failing⟩ := t
    simp only [PoolToken.mk.injEq]
    exact ⟨hbalances, trivial, rfl, hburned, rfl⟩
  revert_error who amount receipt sent e t' hsent hback := by
    rw [revert_of_transfer hsent] at hback
    cases hback

end PoolToken

namespace FaultyToken

variable {t t' : FaultyToken}

private theorem collect_eq {who : Address} {amount : Amount} {answer : Result Amount}
    (h : PayoutToken.collect t who amount = (answer, t')) :
    ∃ inner, PayoutToken.collect t.inner who amount = (answer, inner) ∧ t' = { t with inner } := by
  change ((PayoutToken.collect t.inner who amount).1,
    { t with inner := (PayoutToken.collect t.inner who amount).2 }) = _ at h
  cases h
  exact ⟨_, rfl, rfl⟩

private theorem transfer_eq (hreport : t.report = none) {who : Address} {amount : Amount}
    {answer : Result TransferReceipt} (h : PayoutToken.transfer t who amount = (answer, t')) :
    ∃ inner, PayoutToken.transfer t.inner who amount = (answer, inner) ∧ t' = { t with inner } := by
  obtain ⟨inner, refuse, report⟩ := t
  cases hreport
  change ((PayoutToken.transfer inner who amount).1, FaultyToken.mk
    (PayoutToken.transfer inner who amount).2 refuse none) = _ at h
  cases h
  exact ⟨_, rfl, rfl⟩

private theorem revert_eq (hrefuse : t.refuseRevert = true) {inner : PoolToken}
    {receipt : TransferReceipt} : PayoutToken.revert { t with inner } receipt =
      (.error (.transferFailed "revert refused"), { t with inner }) :=
  if_pos hrefuse

theorem honours_of_refuseRevert (hrefuse : t.refuseRevert = true) (hreport : t.report = none) :
    Honours t where
  collect_error who amount e t' h := by
    obtain ⟨inner, hinner, rfl⟩ := collect_eq h
    rw [(unlessRefused_eq_error_iff.1 hinner).2]
  collect_le who amount received t' h := by
    obtain ⟨inner, hinner, -⟩ := collect_eq h
    exact PoolToken.collect_le hinner
  transfer_error who amount e t' h := by
    obtain ⟨inner, hinner, rfl⟩ := transfer_eq hreport h
    rw [(unlessRefused_eq_error_iff.1 hinner).2]
  revert_transfer who amount receipt sent t' hsent hback := by
    obtain ⟨inner, -, rfl⟩ := transfer_eq hreport hsent
    rw [revert_eq hrefuse] at hback
    cases hback
  revert_error who amount receipt sent e t' hsent hback := by
    obtain ⟨inner, -, rfl⟩ := transfer_eq hreport hsent
    rw [revert_eq hrefuse] at hback
    cases hback
    rfl

end FaultyToken

end Settlement
